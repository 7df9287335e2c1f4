import Mathlib
import Campaign.Json.Write
import Campaign.Json.Cursor

/-! The compact and the indented writers put the same tokens in the same order and differ only in
the blanks between them. A `Layout` says which blanks go where, and both writers are layouts
(`compact_toList`, `pretty_toList`), so a reader that skips blanks is followed once for all.
-/

namespace Campaign

namespace Json

open Scan

/-- Characters that are all JSON white space. -/
def Blanks (bs : List Char) : Prop := ∀ ch ∈ bs, isBlank ch = true

theorem blanks_nil : Blanks [] := by simp [Blanks]

/-- Where the blanks of a text go. -/
structure Layout where
  /-- Before each element or member at a level, and before the closing bracket of an array or
  object whose contents are one level deeper. -/
  indent : Nat → List Char
  /-- After the colon of each member. -/
  gap : List Char
  indent_blanks : ∀ L, Blanks (indent L)
  gap_blanks : Blanks gap

namespace Layout

mutual
/-- The text of a value at nesting level `L`. -/
def text (y : Layout) (L : Nat) : Json → List Char
  | .array [] => ['[', ']']
  | .array (j :: items) =>
    '[' :: (y.indent (L + 1) ++ y.text (L + 1) j ++ y.items (L + 1) items ++ y.indent L ++ [']'])
  | .object [] => ['\x7b', '\x7d']
  | .object ((k, v) :: ms) =>
    '\x7b' :: (y.indent (L + 1) ++ (quote k).toList ++ ':' :: (y.gap ++ y.text (L + 1) v) ++
      y.members (L + 1) ms ++ y.indent L ++ ['\x7d'])
  | .null => (Json.compact .null).toList
  | .bool b => (Json.compact (.bool b)).toList
  | .number n => (Json.compact (.number n)).toList
  | .string s => (Json.compact (.string s)).toList

/-- The elements after the first, each after a comma. -/
def items (y : Layout) (L : Nat) : List Json → List Char
  | [] => []
  | j :: rest => ',' :: (y.indent L ++ y.text L j ++ y.items L rest)

/-- The members after the first, each after a comma. -/
def members (y : Layout) (L : Nat) : List (String × Json) → List Char
  | [] => []
  | (k, v) :: rest =>
    ',' :: (y.indent L ++ (quote k).toList ++ ':' :: (y.gap ++ y.text L v) ++ y.members L rest)
end

/-- One member: its quoted key, a colon, the gap and its value. -/
def member (y : Layout) (L : Nat) (m : String × Json) : List Char :=
  (quote m.1).toList ++ ':' :: (y.gap ++ y.text L m.2)

/-- No blanks at all. -/
def compact : Layout where
  indent _ := []
  gap := []
  indent_blanks _ := blanks_nil
  gap_blanks := blanks_nil

/-- A new line per element, member and closing bracket, two blanks per level, and a blank after
each colon. -/
def pretty : Layout where
  indent L := '\n' :: List.replicate (2 * L) ' '
  gap := [' ']
  indent_blanks L := by
    intro ch mem
    rcases List.mem_cons.mp mem with rfl | blank
    · rfl
    · rw [List.eq_of_mem_replicate blank]
      rfl
  gap_blanks := by simp [Blanks]; rfl

/-! ### The cases of a text

Each by `rfl`; the proofs that follow a reader through a text rewrite with these. -/

section Cases

variable (y : Layout) (L : Nat)

theorem text_array_nil : y.text L (.array []) = ['[', ']'] := rfl

theorem text_array_cons (j : Json) (rest : List Json) :
    y.text L (.array (j :: rest)) =
      '[' :: (y.indent (L + 1) ++ y.text (L + 1) j ++ y.items (L + 1) rest ++ y.indent L ++ [']']) :=
  rfl

theorem text_object_nil : y.text L (.object []) = ['\x7b', '\x7d'] := rfl

theorem text_object_cons (m : String × Json) (rest : List (String × Json)) :
    y.text L (.object (m :: rest)) = '\x7b' :: (y.indent (L + 1) ++ y.member (L + 1) m ++
      y.members (L + 1) rest ++ y.indent L ++ ['\x7d']) := by
  obtain ⟨k, v⟩ := m
  simp [text, member]

/-- An array's text opens with its bracket, whatever its elements. -/
theorem text_array_opens (items : List Json) : ∃ t, y.text L (.array items) = '[' :: t := by
  cases items with
  | nil => exact ⟨_, text_array_nil y L⟩
  | cons j items => exact ⟨_, text_array_cons y L j items⟩

/-- An object's text opens with its brace, whatever its members. -/
theorem text_object_opens (ms : List (String × Json)) :
    ∃ t, y.text L (.object ms) = '\x7b' :: t := by
  cases ms with
  | nil => exact ⟨_, text_object_nil y L⟩
  | cons m ms => exact ⟨_, text_object_cons y L m ms⟩

theorem text_nat (k : Nat) : y.text L (.nat k) = (Json.compact (.nat k)).toList := rfl
theorem text_string (s : String) : y.text L (.string s) = (Json.compact (.string s)).toList := rfl

theorem text_int (i : Int) : y.text L (.int i) = (Json.compact (.int i)).toList := by
  unfold Json.int
  split <;> rfl

theorem items_nil : y.items L [] = [] := rfl

theorem items_cons (j : Json) (rest : List Json) :
    y.items L (j :: rest) = ',' :: (y.indent L ++ y.text L j ++ y.items L rest) := rfl

theorem members_nil : y.members L [] = [] := rfl

theorem members_cons (m : String × Json) (rest : List (String × Json)) :
    y.members L (m :: rest) = ',' :: (y.indent L ++ y.member L m ++ y.members L rest) := by
  obtain ⟨k, v⟩ := m
  simp [members, member]

/-- After the elements already read comes a comma, or nothing when there are no more. -/
theorem items_next (xs : List Json) : y.items L xs = [] ∨ ∃ t, y.items L xs = ',' :: t := by
  cases xs with
  | nil => exact .inl rfl
  | cons x xs => exact .inr ⟨_, rfl⟩

/-- After the members already read comes a comma, or nothing when there are no more. -/
theorem members_next (ms : List (String × Json)) :
    y.members L ms = [] ∨ ∃ t, y.members L ms = ',' :: t := by
  cases ms with
  | nil => exact .inl rfl
  | cons m ms => exact .inr ⟨_, members_cons y L m ms⟩

end Cases

end Layout

/-! ### The two writers -/

theorem toList_pushn (s : String) (c : Char) :
    ∀ n, (s.pushn c n).toList = s.toList ++ List.replicate n c
  | 0 => by simp [String.pushn, Nat.repeat]
  | n + 1 => by
    show ((s.pushn c n).push c).toList = _
    rw [String.toList_push, toList_pushn s c n, List.replicate_succ', List.append_assoc]

mutual
theorem writeTo_text (acc : String) (L : Nat) : ∀ j : Json,
    (writeTo acc j).toList = acc.toList ++ Layout.compact.text L j
  | .null => by simp [Layout.text, Json.compact, writeTo]
  | .bool true => by simp [Layout.text, Json.compact, writeTo]
  | .bool false => by simp [Layout.text, Json.compact, writeTo]
  | .number n => by simp [Layout.text, Json.compact, writeTo]
  | .string s => by simp [Layout.text, Json.compact, writeTo]
  | .array [] => by simp [Layout.text, writeTo, writeItems]
  | .array (j :: items) => by
    simp [Layout.text, writeTo, writeItems, writeItems_text _ (L + 1), writeTo_text _ (L + 1) j,
      Layout.compact]
  | .object [] => by simp [Layout.text, writeTo, writeMembers]
  | .object ((k, v) :: ms) => by
    simp [Layout.text, writeTo, writeMembers, writeMembers_text _ (L + 1),
      writeTo_text _ (L + 1) v, Layout.compact]

theorem writeItems_text (acc : String) (L : Nat) : ∀ items : List Json,
    (writeItems acc false items).toList = acc.toList ++ Layout.compact.items L items
  | [] => by simp [writeItems, Layout.items]
  | j :: items => by
    simp [writeItems, Layout.items, writeItems_text _ L items, writeTo_text _ L j, Layout.compact]

theorem writeMembers_text (acc : String) (L : Nat) : ∀ ms : List (String × Json),
    (writeMembers acc false ms).toList = acc.toList ++ Layout.compact.members L ms
  | [] => by simp [writeMembers, Layout.members]
  | (k, v) :: ms => by
    simp [writeMembers, Layout.members, writeMembers_text _ L ms, writeTo_text _ L v,
      Layout.compact]
end

/-- The compact text of a value is its text without blanks. -/
theorem compact_toList (j : Json) : (Json.compact j).toList = Layout.compact.text 0 j := by
  simpa [Json.compact] using writeTo_text "" 0 j

theorem newline_toList (acc : String) (level : Nat) :
    (newline acc level).toList = acc.toList ++ Layout.pretty.indent level := by
  simp [newline, toList_pushn, Layout.pretty]

mutual
theorem prettyTo_text (acc : String) (level : Nat) : ∀ j : Json,
    (prettyTo acc level j).toList = acc.toList ++ Layout.pretty.text level j
  | .null => by simp [Layout.text, Json.compact, prettyTo, writeTo]
  | .bool true => by simp [Layout.text, Json.compact, prettyTo, writeTo]
  | .bool false => by simp [Layout.text, Json.compact, prettyTo, writeTo]
  | .number n => by simp [Layout.text, Json.compact, prettyTo, writeTo]
  | .string s => by simp [Layout.text, Json.compact, prettyTo, writeTo]
  | .array [] => by simp [Layout.text, prettyTo]
  | .array (j :: items) => by
    simp [Layout.text, prettyTo, prettyItems, prettyItems_text, prettyTo_text _ (level + 1) j,
      newline_toList]
  | .object [] => by simp [Layout.text, prettyTo]
  | .object ((k, v) :: ms) => by
    simp [Layout.text, prettyTo, prettyMembers, prettyMembers_text, prettyTo_text _ (level + 1) v,
      newline_toList, Layout.pretty]

theorem prettyItems_text (acc : String) (level : Nat) : ∀ items : List Json,
    (prettyItems acc level false items).toList = acc.toList ++ Layout.pretty.items (level + 1) items
  | [] => by simp [prettyItems, Layout.items]
  | j :: items => by
    simp [prettyItems, Layout.items, prettyItems_text _ level items, prettyTo_text _ (level + 1) j,
      newline_toList]

theorem prettyMembers_text (acc : String) (level : Nat) : ∀ ms : List (String × Json),
    (prettyMembers acc level false ms).toList =
      acc.toList ++ Layout.pretty.members (level + 1) ms
  | [] => by simp [prettyMembers, Layout.members]
  | (k, v) :: ms => by
    simp [prettyMembers, Layout.members, prettyMembers_text _ level ms,
      prettyTo_text _ (level + 1) v, newline_toList, Layout.pretty]
end

/-- The indented text of a value is its text laid out with a line per element and member. -/
theorem pretty_toList (j : Json) : (Json.pretty j).toList = Layout.pretty.text 0 j := by
  simpa [Json.pretty] using prettyTo_text "" 0 j

end Json

end Campaign
