import Campaign.Text.Quoted

/-! An outline is the diagnostic text of a structured value, on one line: a record is its name and
its fields in braces (`Name { a: 1, b: 2 }`, or the bare name without fields), a tuple its
name and items in parentheses (`Some(1)`), a list its items in brackets and a map its entries
in braces. Strings are quoted by `Text.quoted`.
-/

namespace Campaign

/-- The diagnostic text of a structured value. -/
inductive Outline where
  /-- Text shown as it is: numbers, names, truth values. -/
  | atom (text : String)
  /-- A string, shown quoted. -/
  | str (s : String)
  /-- A record: name and fields. -/
  | record (name : String) (fields : List (String × Outline))
  /-- A tuple: name and items. -/
  | tuple (name : String) (items : List Outline)
  | list (items : List Outline)
  | map (entries : List (Outline × Outline))
  /-- A name followed by the outline of its contents (`Array [..]`). -/
  | tagged (name : String) (inner : Outline)
  deriving Repr, Inhabited

namespace Outline

/-- A value that may be absent: `Some(..)` or `None`. -/
def option {α : Type} (f : α → Outline) : Option α → Outline
  | some a => .tuple "Some" [f a]
  | none => .atom "None"

/-- A number. -/
def nat (n : Nat) : Outline := .atom (toString n)

/-- A truth value. -/
def bool (b : Bool) : Outline := .atom (if b then "true" else "false")

mutual
/-- The one-line text of an outline. -/
def render : Outline → String
  | .atom t => t
  | .str s => Text.quoted s
  | .record name [] => name
  | .record name fields => name ++ " \x7b " ++ renderFields fields ++ " \x7d"
  | .tuple name [] => name
  | .tuple name items => name ++ "(" ++ renderItems items ++ ")"
  | .list items => "[" ++ renderItems items ++ "]"
  | .map entries => "\x7b" ++ renderEntries entries ++ "\x7d"
  | .tagged name inner => name ++ " " ++ render inner

/-- Items separated by commas. -/
def renderItems : List Outline → String
  | [] => ""
  | [o] => render o
  | o :: rest => render o ++ ", " ++ renderItems rest

/-- Fields as `name: value`, separated by commas. -/
def renderFields : List (String × Outline) → String
  | [] => ""
  | [(n, o)] => n ++ ": " ++ render o
  | (n, o) :: rest => n ++ ": " ++ render o ++ ", " ++ renderFields rest

/-- Entries as `key: value`, separated by commas. -/
def renderEntries : List (Outline × Outline) → String
  | [] => ""
  | [(k, v)] => render k ++ ": " ++ render v
  | (k, v) :: rest => render k ++ ": " ++ render v ++ ", " ++ renderEntries rest
end

end Outline

end Campaign
