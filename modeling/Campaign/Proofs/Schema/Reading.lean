import Campaign.Proofs.Json.Tokens
import Campaign.Schema.OfText

/-! `Shape.Reads s j n` says, without text, which values the text of `j` reads back as by shape
`s`, and to which normal value. Reading the text of `j` in any layout gives `n` whenever
`Reads s j n` and the shape nests less than 127 deep (`Reads.ofText_layout`), since the reader
skips the blanks before every token.
-/

namespace Campaign

namespace Json

theorem compact_string (s : String) : (compact (.string s)).toList = (quote s).toList := by
  simp [compact, writeTo]

theorem compact_nat (k : Nat) : (compact (.nat k)).toList = Nat.toDigits 10 k := by
  simp [compact, writeTo, nat, Number.render, Nat.toString_eq_repr, Nat.repr_eq_ofList_toDigits]

theorem compact_int_of_nonneg {i : Int} (nonneg : 0 ≤ i) :
    (compact (.int i)).toList = Nat.toDigits 10 i.toNat := by
  have same : Json.int i = .nat i.toNat := by simp [Json.int, nonneg, Json.nat]
  rw [same, compact_nat]

theorem compact_int_of_neg {i : Int} (neg : i < 0) :
    (compact (.int i)).toList = '-' :: Nat.toDigits 10 i.natAbs := by
  obtain ⟨m, rfl⟩ := Int.eq_negSucc_of_lt_zero neg
  have written : Number.render (.sint (Int.negSucc m)) = "-" ++ toString (m + 1) := rfl
  simp [Json.int, show ¬(0 ≤ Int.negSucc m) by omega, compact, writeTo, written,
    Nat.toString_eq_repr, Nat.repr_eq_ofList_toDigits]

/-- A digit needs no escape. -/
theorem escapeChar_digit {ch : Char} (digit : Scan.isDigit ch = true) : escapeChar ch = [ch] := by
  have low : '0' ≤ ch ∧ ch ≤ '9' := by simpa [Scan.isDigit] using digit
  have code : 48 ≤ ch.toNat ∧ ch.toNat ≤ 57 := by
    obtain ⟨above, below⟩ := low
    rw [Char.le_def, UInt32.le_iff_toNat_le] at above below
    exact ⟨above, below⟩
  -- each character that is escaped has a code outside the digits
  have apart : ∀ x : Char, x.toNat < 48 ∨ 57 < x.toNat → ch ≠ x := fun x outside same => by
    rw [same] at code
    omega
  unfold escapeChar
  simp [apart '"' (by decide), apart '\\' (by decide), apart '\n' (by decide),
    apart '\r' (by decide), apart '\t' (by decide), show ch.toNat ≠ 8 by omega,
    show ch.toNat ≠ 12 by omega, show ¬ch.toNat < 32 by omega]

/-- A number as a key is its digits between quotes. -/
theorem quote_toString (n : Nat) :
    (quote (toString n)).toList = '"' :: (Nat.toDigits 10 n ++ ['"']) := by
  obtain ⟨digits, -⟩ := Scan.toDigits_decimal n
  have plain : (Nat.toDigits 10 n).flatMap escapeChar = Nat.toDigits 10 n := by
    conv => rhs; rw [← List.flatMap_singleton' (Nat.toDigits 10 n)]
    exact List.flatMap_congr fun ch mem => escapeChar_digit (digits ch mem)
  rw [Scan.quote_toList, Scan.toString_toList, plain]

end Json

namespace Scan

open Json

section Punctuation

variable {c : Cursor} {r bs : List Char} {d : Nat}

theorem enter_gives (deep : 1 < c.depth) (depth : c.depth - 1 = d) : enter.Gives c () c.rest d := by
  unfold enter
  refine (get_gives rfl rfl).bind fun c₁ r₁ d₁ => ?_
  simp only [show ¬c.depth ≤ 1 by omega, if_false]
  exact ⟨_, rfl, rfl, depth⟩

theorem leave_gives (depth : c.depth + 1 = d) : leave.Gives c () c.rest d :=
  ⟨_, rfl, rfl, depth⟩

theorem hasElement_close {first : Bool} (h : c.rest = bs ++ ']' :: r) (blanks : Blanks bs)
    (depth : c.depth = d) : (hasElement first).Gives c false (']' :: r) d := by
  unfold hasElement
  exact (peekSkip_blanks h blanks (by decide) depth).bind fun c₁ r₁ d₁ => gives_pure _ r₁ d₁

theorem hasElement_first {ch : Char} (h : c.rest = bs ++ ch :: r) (blanks : Blanks bs)
    (blank : isBlank ch = false) (close : ch ≠ ']') (depth : c.depth = d) :
    (hasElement true).Gives c true (ch :: r) d := by
  unfold hasElement
  refine (peekSkip_blanks h blanks blank depth).bind fun c₁ r₁ d₁ => ?_
  simp only
  exact gives_pure _ r₁ d₁

theorem hasElement_comma {ch : Char} (h : c.rest = ',' :: (bs ++ ch :: r)) (blanks : Blanks bs)
    (blank : isBlank ch = false) (close : ch ≠ ']') (depth : c.depth = d) :
    (hasElement false).Gives c true (ch :: r) d := by
  unfold hasElement
  refine (peekSkip_gives h (by decide) depth).bind fun c₁ r₁ d₁ => ?_
  refine (eat_gives r₁ d₁).bind fun c₂ r₂ d₂ => ?_
  refine (peekSkip_blanks r₂ blanks blank d₂).bind fun c₃ r₃ d₃ => ?_
  simp only
  exact gives_pure _ r₃ d₃

theorem hasMember_close {first : Bool} (h : c.rest = bs ++ '\x7d' :: r) (blanks : Blanks bs)
    (depth : c.depth = d) : (hasMember first).Gives c false ('\x7d' :: r) d := by
  unfold hasMember
  exact (peekSkip_blanks h blanks (by decide) depth).bind fun c₁ r₁ d₁ => gives_pure _ r₁ d₁

theorem hasMember_first (h : c.rest = bs ++ '"' :: r) (blanks : Blanks bs) (depth : c.depth = d) :
    (hasMember true).Gives c true ('"' :: r) d := by
  unfold hasMember
  exact (peekSkip_blanks h blanks (by decide) depth).bind fun c₁ r₁ d₁ => gives_pure _ r₁ d₁

theorem hasMember_comma (h : c.rest = ',' :: (bs ++ '"' :: r)) (blanks : Blanks bs)
    (depth : c.depth = d) : (hasMember false).Gives c true ('"' :: r) d := by
  unfold hasMember
  refine (peekSkip_gives h (by decide) depth).bind fun c₁ r₁ d₁ => ?_
  refine (eat_gives r₁ d₁).bind fun c₂ r₂ d₂ => ?_
  exact (peekSkip_blanks r₂ blanks (by decide) d₂).bind fun c₃ r₃ d₃ => gives_pure _ r₃ d₃

theorem colon_gives (h : c.rest = ':' :: r) (depth : c.depth = d) : colon.Gives c () r d := by
  unfold colon
  exact (peekSkip_gives h (by decide) depth).bind fun c₁ r₁ d₁ => eat_gives r₁ d₁

theorem endList_gives (h : c.rest = ']' :: r) (depth : c.depth = d) : endList.Gives c () r d := by
  unfold endList
  exact (peekSkip_gives h (by decide) depth).bind fun c₁ r₁ d₁ => eat_gives r₁ d₁

theorem endObject_gives (h : c.rest = '\x7d' :: r) (depth : c.depth = d) :
    endObject.Gives c () r d := by
  unfold endObject
  exact (peekSkip_gives h (by decide) depth).bind fun c₁ r₁ d₁ => eat_gives r₁ d₁

/-- A collection from its opening bracket: one level deeper past the bracket, the body up to the
closing bracket, and back out past that. -/
theorem nested_gives {α β : Type} {body : Scan α} {close : Scan Unit} {k : α → Scan β} {x : α}
    {v : β} {opening closing : Char} {more : List Char} (h : c.rest = opening :: more)
    (deep : 1 < d) (depth : c.depth = d)
    (inner : ∀ c', c'.rest = more → c'.depth = d - 1 → body.Gives c' x (closing :: r) (d - 1))
    (closed : ∀ c', c'.rest = closing :: r → c'.depth = d → close.Gives c' () r d)
    (after : ∀ c', c'.rest = r → c'.depth = d → (k x).Gives c' v r d) :
    (do enter; eat; let x ← body; leave; close; k x).Gives c v r d := by
  refine (enter_gives (d := d - 1) (by omega) (by omega)).bind fun c₁ r₁ d₁ => ?_
  refine (eat_gives (r₁.trans h) d₁).bind fun c₂ r₂ d₂ => ?_
  refine (inner c₂ r₂ d₂).bind fun c₃ r₃ d₃ => ?_
  refine (leave_gives (d := d) (by omega)).bind fun c₄ r₄ d₄ => ?_
  exact (closed c₄ (r₄.trans r₃) d₄).bind after

/-- A quoted key reads back as itself. -/
theorem key_gives (k : String) (h : c.rest = (quote k).toList ++ r) (depth : c.depth = d) :
    key.Gives c k r d := by
  rw [quote_toList] at h
  unfold key
  exact (eat_gives h depth).bind fun c₁ r₁ d₁ => string_escaped k (by rw [r₁]; simp) d₁

/-- A number below `2 ^ 64` between quotes reads back as a numeric key. -/
theorem numericKey_gives {k : Nat} (fits : k < 2 ^ 64)
    (h : c.rest = '"' :: (Nat.toDigits 10 k ++ '"' :: r)) (depth : c.depth = d) :
    numericKey.Gives c k r d := by
  obtain ⟨ch, more, lead, digit⟩ := toDigits_cons k
  have minus : ch ≠ '-' := apart_of_digit digit (by decide)
  unfold numericKey
  refine (eat_gives h depth).bind fun c₁ r₁ d₁ => ?_
  have at₁ : c₁.rest = ch :: (more ++ '"' :: r) := by rw [r₁, lead]; rfl
  refine (peek_gives at₁ d₁).bind fun c₂ r₂ d₂ => ?_
  simp only [digit, Bool.true_or, if_true]
  refine (peek_gives r₂ d₂).bind fun c₄ r₄ d₄ => ?_
  -- the key has no sign
  split
  · rename_i same
    exact absurd (Option.some.inj same) minus
  · refine (number_unsigned (k := k) (by rw [wordMax_eq]; omega) (by rw [r₄, lead]; rfl)
      (closes_cons _ (by simp)) d₄).bind fun c₅ r₅ d₅ => ?_
    refine (peek_gives r₅ d₅).bind fun c₆ r₆ d₆ => ?_
    refine (eat_gives r₆ d₆).bind fun c₇ r₇ d₇ => ?_
    exact gives_pure _ r₇ d₇

end Punctuation

end Scan

namespace Shape

open Scan Json

mutual
/-- How deep reading by a shape nests arrays and objects. -/
def nesting : Shape → Nat
  | .optional inner => inner.nesting
  | .list item => item.nesting + 1
  | .map _ value => value.nesting + 1
  | .record _ fields => fieldsNesting fields + 1
  | _ => 0

/-- The deepest nesting of the fields of a record. -/
def fieldsNesting : List (String × Shape × Option Json) → Nat
  | [] => 0
  | (_, s, _) :: fields => max s.nesting (fieldsNesting fields)
end

mutual
/-- The most optional places on one way down a shape. The reader takes one step at each that
reads no character, and this is the fuel it needs beyond two steps per character. -/
def slack : Shape → Nat
  | .optional inner => inner.slack + 1
  | .list item => item.slack
  | .map _ value => value.slack
  | .record _ fields => fieldsSlack fields
  | _ => 0

/-- The largest slack of the fields of a record. -/
def fieldsSlack : List (String × Shape × Option Json) → Nat
  | [] => 0
  | (_, s, _) :: fields => max s.slack (fieldsSlack fields)
end

/-! ### One step of the reader

The cases of the measures and of the reader's definitions that the proofs below go through,
each by `rfl`. The proofs rewrite with these rather than unfold the definitions. -/

theorem nesting_optional (inner : Shape) : (Shape.optional inner).nesting = inner.nesting := rfl
theorem nesting_list (item : Shape) : (Shape.list item).nesting = item.nesting + 1 := rfl
theorem nesting_map (k : KeyShape) (value : Shape) :
    (Shape.map k value).nesting = value.nesting + 1 := rfl
theorem nesting_record (name : String) (fields : List (String × Shape × Option Json)) :
    (Shape.record name fields).nesting = fieldsNesting fields + 1 := rfl
theorem slack_optional (inner : Shape) : (Shape.optional inner).slack = inner.slack + 1 := rfl
theorem slack_list (item : Shape) : (Shape.list item).slack = item.slack := rfl
theorem slack_map (k : KeyShape) (value : Shape) : (Shape.map k value).slack = value.slack := rfl
theorem slack_record (name : String) (fields : List (String × Shape × Option Json)) :
    (Shape.record name fields).slack = fieldsSlack fields := rfl

section Steps

variable (fuel : Nat)

theorem textValue_unsigned (name : String) :
    textValue (fuel + 1) (.unsigned name) = textUnsigned name := rfl
theorem textValue_signed : textValue (fuel + 1) .signed = textSigned := rfl
theorem textValue_bool : textValue (fuel + 1) .bool = textBool := rfl
theorem textValue_string (expected : String) :
    textValue (fuel + 1) (.string expected) = textString expected := rfl
theorem textValue_variant (names : List String) :
    textValue (fuel + 1) (.variant names) = textVariant names := rfl

theorem textValue_optional (inner : Shape) :
    textValue (fuel + 1) (.optional inner) = (do
      match ← peekSkip with
      | some 'n' => eat; ident "ull".toList; return .null
      | _ => textValue fuel inner) := rfl

theorem textValue_list (item : Shape) :
    textValue (fuel + 1) (.list item) = (do
      match ← peekSkip with
      | none => failAhead .eofWhileParsingValue
      | some '[' =>
        enter; eat
        let items ← textItems fuel item true []
        leave
        endList
        return .array items
      | some _ => wrongKind "a sequence") := rfl

theorem textValue_map (k : KeyShape) (value : Shape) :
    textValue (fuel + 1) (.map k value) = (do
      match ← peekSkip with
      | none => failAhead .eofWhileParsingValue
      | some '\x7b' =>
        enter; eat
        let ms ← textEntries fuel k value true []
        leave
        endObject
        return .object ms
      | some _ => wrongKind "a map") := rfl

theorem textValue_record (name : String) (fields : List (String × Shape × Option Json)) :
    textValue (fuel + 1) (.record name fields) = (do
      match ← peekSkip with
      | none => failAhead .eofWhileParsingValue
      | some '[' =>
        enter; eat
        let vs ← textFieldItems fuel name fields.length 0 true fields
        leave
        endList
        return .object vs
      | some '\x7b' =>
        enter; eat
        let found ← textMembers fuel fields true []
        leave
        endObject
        match ofFill fields found with
        | .ok v => return v
        | .error (.mismatch m _) => mismatch m
        | .error f => throw f
      | some _ => wrongKind ("struct " ++ name)) := rfl

theorem textItems_succ (item : Shape) (first : Bool) (acc : List Json) :
    textItems (fuel + 1) item first acc = (do
      if ← hasElement first then
        let v ← textValue fuel item
        textItems fuel item false (v :: acc)
      else return acc.reverse) := rfl

theorem textEntries_succ (k : KeyShape) (value : Shape) (first : Bool)
    (acc : List (String × Json)) :
    textEntries (fuel + 1) k value first acc = (do
      if ← hasMember first then
        let key ← textKey k
        colon
        let v ← textValue fuel value
        textEntries fuel k value false (insertKey k key v acc)
      else return acc) := rfl

theorem textMembers_succ (fields : List (String × Shape × Option Json)) (first : Bool)
    (acc : List (String × Json)) :
    textMembers (fuel + 1) fields first acc = (do
      if ← hasMember first then
        let k ← key
        match fields.lookup k with
        | some (s, _) =>
          if (acc.lookup k).isSome then mismatch (.duplicateField k)
          colon
          let v ← textValue fuel s
          textMembers fuel fields false (acc ++ [(k, v)])
        | none =>
          colon
          skipValue fuel
          textMembers fuel fields false acc
      else return acc) := rfl

end Steps

/-- A field found by name nests and wraps no deeper than its record's fields. -/
theorem le_fields_of_lookup {fields : List (String × Shape × Option Json)} {k : String}
    {s : Shape} {d : Option Json} (found : fields.lookup k = some (s, d)) :
    s.nesting ≤ fieldsNesting fields ∧ s.slack ≤ fieldsSlack fields := by
  induction fields with
  | nil => simp at found
  | cons f fields ih =>
    obtain ⟨name, s', d'⟩ := f
    rw [List.lookup_cons] at found
    split at found
    · cases found
      simp [fieldsNesting, fieldsSlack]
    · obtain ⟨deep, wrapped⟩ := ih found
      simp only [fieldsNesting, fieldsSlack]
      omega

/-- The values whose text reads back by a shape, and what they read back as. -/
inductive Reads : Shape → Json → Json → Prop
  | unsigned {name : String} {k : Nat} : k < 2 ^ 64 → Reads (.unsigned name) (.nat k) (.nat k)
  | signed {i : Int} : -2 ^ 63 ≤ i → i < 2 ^ 63 → Reads .signed (.int i) (.int i)
  | bool (b : Bool) : Reads .bool (.bool b) (.bool b)
  | string {expected : String} (s : String) : Reads (.string expected) (.string s) (.string s)
  | variant {names : List String} {s : String} : s ∈ names →
      Reads (.variant names) (.string s) (.string s)
  | none {inner : Shape} : Reads (.optional inner) .null .null
  | some {inner : Shape} {j n : Json} : Reads inner j n → j.isNull = false →
      Reads (.optional inner) j n
  /-- Each pair is an element as written and as read back. -/
  | list {item : Shape} (ps : List (Json × Json)) : (∀ p ∈ ps, Reads item p.1 p.2) →
      Reads (.list item) (.array (ps.map Prod.fst)) (.array (ps.map Prod.snd))
  /-- Each triple is a key, its value as written and as read back. -/
  | map {value : Shape} (ps : List (String × Json × Json)) :
      (ps.map Prod.fst).Pairwise (· < ·) → (∀ p ∈ ps, Reads value p.2.1 p.2.2) →
      Reads (.map .text value) (.object (ps.map fun p => (p.1, p.2.1)))
        (.object (ps.map fun p => (p.1, p.2.2)))
  /-- Each triple is a numeric key, written as its digits, and its value as written and as read
  back. -/
  | mapNat {value : Shape} (ps : List (Nat × Json × Json)) :
      (ps.map Prod.fst).Pairwise (· < ·) → (∀ p ∈ ps, p.1 < 2 ^ 64) →
      (∀ p ∈ ps, Reads value p.2.1 p.2.2) →
      Reads (.map .unsigned value) (.object (ps.map fun p => (toString p.1, p.2.1)))
        (.object (ps.map fun p => (toString p.1, p.2.2)))
  /-- Each triple is a field named once, its value as written and as read back; the fields
  left out take their defaults. -/
  | record {name : String} {fields : List (String × Shape × Option Json)} {n : Json}
      (ps : List (String × Json × Json)) : (ps.map Prod.fst).Nodup →
      (∀ p ∈ ps, (fields.lookup p.1).isSome) →
      (∀ p ∈ ps, ∀ s d, fields.lookup p.1 = some (s, d) → Reads s p.2.1 p.2.2) →
      ofFill fields (ps.map fun p => (p.1, p.2.2)) = .ok n →
      Reads (.record name fields) (.object (ps.map fun p => (p.1, p.2.1))) n

/-- The text of `j` starts, in every layout, with the same character, one that begins a value:
not a blank, not a closing bracket, and `n` only for `null`. -/
def Opens (j : Json) : Prop :=
  ∃ ch, isBlank ch = false ∧ ch ≠ ']' ∧ (ch = 'n' → j.isNull = true) ∧
    ∀ (y : Layout) (L : Nat), ∃ t, y.text L j = ch :: t

theorem opens_of_digit {j : Json} {ch : Char} {t : List Char}
    (laid : ∀ (y : Layout) (L : Nat), y.text L j = ch :: t) (digit : isDigit ch = true) : Opens j :=
  ⟨ch, blank_of_digit digit, apart_of_digit digit (by decide),
    fun same => absurd same (apart_of_digit digit (by decide)), fun y L => ⟨t, laid y L⟩⟩

theorem opens_nat (k : Nat) : Opens (.nat k) := by
  obtain ⟨ch, more, lead, digit⟩ := toDigits_cons k
  exact opens_of_digit (fun y L => (Layout.text_nat y L k).trans ((compact_nat k).trans lead)) digit

/-- An array opens with its bracket in every layout. -/
theorem opens_array (items : List Json) : Opens (.array items) := by
  exact ⟨'[', by decide, by decide, fun same => absurd same (by decide), fun y L =>
    Layout.text_array_opens y L items⟩

/-- An object opens with its brace in every layout. -/
theorem opens_object (ms : List (String × Json)) : Opens (.object ms) := by
  exact ⟨'\x7b', by decide, by decide, fun same => absurd same (by decide), fun y L =>
    Layout.text_object_opens y L ms⟩

/-- Every value that reads back begins as a value does. -/
theorem Reads.opens {s : Shape} {j n : Json} (h : Reads s j n) : Opens j := by
  have apart {x : Char} {P : Prop} (other : x ≠ 'n') : x = 'n' → P := fun same => absurd same other
  induction h with
  | unsigned => exact opens_nat _
  | @signed i _ _ =>
    by_cases nonneg : 0 ≤ i
    · have same : Json.int i = .nat i.toNat := by simp [Json.int, nonneg, Json.nat]
      rw [same]
      exact opens_nat _
    · exact ⟨'-', by decide, by decide, apart (by decide), fun y L =>
        ⟨_, (Layout.text_int y L i).trans (compact_int_of_neg (by omega))⟩⟩
  | bool b => cases b <;> exact ⟨_, by decide, by decide, apart (by decide), fun _ _ => ⟨_, rfl⟩⟩
  | string s =>
    exact ⟨'"', by decide, by decide, apart (by decide), fun y L =>
      ⟨_, (Layout.text_string y L s).trans ((compact_string s).trans (quote_toList s))⟩⟩
  | variant =>
    exact ⟨'"', by decide, by decide, apart (by decide), fun y L =>
      ⟨_, (Layout.text_string y L _).trans ((compact_string _).trans (quote_toList _))⟩⟩
  | none => exact ⟨'n', by decide, by decide, fun _ => rfl, fun _ _ => ⟨_, rfl⟩⟩
  | some _ notNull ih =>
    obtain ⟨ch, blank, close, null, texts⟩ := ih
    exact ⟨ch, blank, close, fun isN => absurd (null isN) (by simp [notNull]), texts⟩
  | list ps => exact opens_array _
  | map ps => exact opens_object _
  | mapNat ps => exact opens_object _
  | record ps => exact opens_object _

/-- Reading by `s` after blanks and the text of `j` in any layout gives `n` and stops at the end
of that text, from every cursor deep enough and with fuel enough. -/
def ReadsBack (s : Shape) (j n : Json) : Prop :=
  ∀ (y : Layout) (L fuel d : Nat) (c : Cursor) (bs rest : List Char), Blanks bs →
    c.rest = bs ++ (y.text L j ++ rest) → Closes rest → c.depth = d → s.nesting < d →
    2 * c.rest.length + s.slack ≤ fuel → (textValue fuel s).Gives c n rest d

section Scalars

variable {fuel d L : Nat} {y : Layout} {c : Cursor} {bs rest : List Char}

theorem fuel_pos {j : Json} (h : c.rest = bs ++ (y.text L j ++ rest)) (opens : Opens j)
    {extra : Nat} (enough : 2 * c.rest.length + extra ≤ fuel) : ∃ f, fuel = f + 1 := by
  obtain ⟨ch, -, -, -, texts⟩ := opens
  obtain ⟨t, text⟩ := texts y L
  rw [h, text] at enough
  exact ⟨fuel - 1, by simp at enough; omega⟩

theorem readsBack_unsigned {name : String} {k : Nat} (fits : k < 2 ^ 64) :
    ReadsBack (.unsigned name) (.nat k) (.nat k) := by
  intro y L fuel d c bs rest blanks h ends depth _ enough
  obtain ⟨f, rfl⟩ := fuel_pos h (opens_nat k) enough
  obtain ⟨ch, more, lead, digit⟩ := toDigits_cons k
  rw [Layout.text_nat, compact_nat, lead] at h
  simp only [List.cons_append] at h
  have minus : ch ≠ '-' := apart_of_digit digit (by decide)
  rw [textValue_unsigned]
  unfold textUnsigned
  refine (peekSkip_blanks h blanks (blank_of_digit digit) depth).bind fun c₁ r₁ d₁ => ?_
  simp only [digit, if_true]
  refine (number_unsigned (k := k) (by rw [wordMax_eq]; omega) (by rw [r₁, lead]; rfl) ends d₁).bind
    fun c₂ r₂ d₂ => ?_
  exact gives_pure _ r₂ d₂

theorem readsBack_signed {i : Int} (low : -2 ^ 63 ≤ i) (high : i < 2 ^ 63) :
    ReadsBack .signed (.int i) (.int i) := by
  intro y L fuel d c bs rest blanks h ends depth _ enough
  rw [Layout.text_int] at h
  by_cases nonneg : 0 ≤ i
  · -- a non-negative integer is written and read as its digits
    have same : Json.int i = .nat i.toNat := by simp [Json.int, nonneg, Json.nat]
    obtain ⟨ch, more, lead, digit⟩ := toDigits_cons i.toNat
    rw [compact_int_of_nonneg nonneg, lead] at h
    simp only [List.cons_append] at h
    obtain ⟨f, rfl⟩ : ∃ f, fuel = f + 1 := ⟨fuel - 1, by rw [h] at enough; simp at enough; omega⟩
    have minus : ch ≠ '-' := apart_of_digit digit (by decide)
    rw [textValue_signed]
    unfold textSigned
    refine (peekSkip_blanks h blanks (blank_of_digit digit) depth).bind fun c₁ r₁ d₁ => ?_
    simp only [digit, if_true]
    refine (number_unsigned (k := i.toNat) (by rw [wordMax_eq]; omega) (by rw [r₁, lead]; rfl)
      ends d₁).bind fun c₂ r₂ d₂ => ?_
    have small : i.toNat < Nat.pow 2 63 := show i.toNat < 2 ^ 63 by omega
    simp only [small, if_true]
    rw [same]
    exact gives_pure _ r₂ d₂
  · -- a negative one as a minus and the digits of its magnitude
    rw [compact_int_of_neg (by omega)] at h
    simp only [List.cons_append] at h
    obtain ⟨f, rfl⟩ : ∃ f, fuel = f + 1 := ⟨fuel - 1, by rw [h] at enough; simp at enough; omega⟩
    rw [textValue_signed]
    unfold textSigned
    refine (peekSkip_blanks h blanks (by decide) depth).bind fun c₁ r₁ d₁ => ?_
    refine (eat_gives r₁ d₁).bind fun c₂ r₂ d₂ => ?_
    refine (number_negative (m := i.natAbs) (by omega) (by omega) r₂ ends d₂).bind
      fun c₃ r₃ d₃ => ?_
    have magnitude : -(i.natAbs : Int) = i := by omega
    rw [magnitude]
    simp only [Json.int, nonneg, if_false]
    exact gives_pure _ r₃ d₃

theorem readsBack_bool (b : Bool) : ReadsBack .bool (.bool b) (.bool b) := by
  intro y L fuel d c bs rest blanks h ends depth _ enough
  obtain ⟨f, rfl⟩ := fuel_pos h (Reads.bool b).opens enough
  rw [textValue_bool]
  unfold textBool
  cases b
  · have h' : c.rest = bs ++ 'f' :: ("alse".toList ++ rest) := by rw [h]; rfl
    refine (peekSkip_blanks h' blanks (by decide) depth).bind fun c₁ r₁ d₁ => ?_
    refine (eat_gives r₁ d₁).bind fun c₂ r₂ d₂ => ?_
    exact (ident_gives _ r₂ d₂).bind fun c₃ r₃ d₃ => gives_pure _ r₃ d₃
  · have h' : c.rest = bs ++ 't' :: ("rue".toList ++ rest) := by rw [h]; rfl
    refine (peekSkip_blanks h' blanks (by decide) depth).bind fun c₁ r₁ d₁ => ?_
    refine (eat_gives r₁ d₁).bind fun c₂ r₂ d₂ => ?_
    exact (ident_gives _ r₂ d₂).bind fun c₃ r₃ d₃ => gives_pure _ r₃ d₃

theorem readsBack_string {expected : String} (s : String) :
    ReadsBack (.string expected) (.string s) (.string s) := by
  intro y L fuel d c bs rest blanks h ends depth _ enough
  obtain ⟨f, rfl⟩ := fuel_pos h (@Reads.string expected s).opens enough
  rw [Layout.text_string, compact_string, quote_toList, List.cons_append] at h
  rw [textValue_string]
  unfold textString
  refine (peekSkip_blanks h blanks (by decide) depth).bind fun c₁ r₁ d₁ => ?_
  refine (eat_gives r₁ d₁).bind fun c₂ r₂ d₂ => ?_
  exact (string_escaped s (by rw [r₂]; simp) d₂).bind fun c₃ r₃ d₃ => gives_pure _ r₃ d₃

theorem readsBack_variant {names : List String} {s : String} (mem : s ∈ names) :
    ReadsBack (.variant names) (.string s) (.string s) := by
  intro y L fuel d c bs rest blanks h ends depth _ enough
  obtain ⟨f, rfl⟩ := fuel_pos h (Reads.variant mem).opens enough
  rw [Layout.text_string, compact_string, quote_toList, List.cons_append] at h
  rw [textValue_variant]
  unfold textVariant
  refine (peekSkip_blanks h blanks (by decide) depth).bind fun c₁ r₁ d₁ => ?_
  refine Gives.bind (a := s) (r := rest) ?_ fun c₂ r₂ d₂ => gives_pure _ r₂ d₂
  unfold textName
  refine (peekSkip_gives r₁ (by decide) d₁).bind fun c₂ r₂ d₂ => ?_
  refine (eat_gives r₂ d₂).bind fun c₃ r₃ d₃ => ?_
  refine (string_escaped (r := rest) s (by rw [r₃]; simp) d₃).bind fun c₄ r₄ d₄ => ?_
  simp only [List.contains_iff_mem, mem, if_true]
  exact gives_pure _ r₄ d₄

theorem readsBack_none {inner : Shape} : ReadsBack (.optional inner) .null .null := by
  intro y L fuel d c bs rest blanks h ends depth _ enough
  obtain ⟨f, rfl⟩ := fuel_pos h (@Reads.none inner).opens enough
  have h' : c.rest = bs ++ 'n' :: ("ull".toList ++ rest) := by rw [h]; rfl
  rw [textValue_optional]
  refine (peekSkip_blanks h' blanks (by decide) depth).bind fun c₁ r₁ d₁ => ?_
  refine (eat_gives r₁ d₁).bind fun c₂ r₂ d₂ => ?_
  exact (ident_gives _ r₂ d₂).bind fun c₃ r₃ d₃ => gives_pure _ r₃ d₃

/-- Where a value is optional, a value other than `null` is read by the inner shape, with one
step of fuel spent on looking at it. -/
theorem readsBack_some {inner : Shape} {j n : Json} (back : ReadsBack inner j n) (opens : Opens j)
    (notNull : j.isNull = false) : ReadsBack (.optional inner) j n := by
  intro y L fuel d c bs rest blanks h ends depth deep enough
  obtain ⟨f, rfl⟩ := fuel_pos h opens enough
  obtain ⟨ch, blank, -, null, texts⟩ := opens
  obtain ⟨t, text⟩ := texts y L
  have letter : ch ≠ 'n' := fun same => by simp [null same] at notNull
  have h' : c.rest = bs ++ ch :: (t ++ rest) := by rw [h, text]; rfl
  rw [textValue_optional]
  refine (peekSkip_blanks h' blanks blank depth).bind fun c₁ r₁ d₁ => ?_
  split
  · rename_i same
    cases same
    exact absurd rfl letter
  refine back y L f d c₁ [] rest blanks_nil (by rw [r₁, text]; rfl) ends d₁
    (by simpa [nesting_optional] using deep) ?_
  have shorter : c₁.rest.length ≤ c.rest.length := by rw [r₁, h']; simp
  simp only [slack_optional] at enough
  omega

end Scalars

section Collections

variable {fuel d L : Nat} {y : Layout} {c : Cursor} {rest : List Char}

/-- After an element or member comes a comma, or the blanks before the closing bracket and the
bracket itself: a number ends there either way. -/
theorem closes_after {more : List Char} (next : more = [] ∨ ∃ t, more = ',' :: t) (y : Layout)
    (L : Nat) {close : Char} (closing : close = ']' ∨ close = '\x7d') (rest : List Char) :
    Closes (more ++ (y.indent L ++ close :: rest)) := by
  rcases next with rfl | ⟨t, rfl⟩
  · cases indent : y.indent L with
    | nil => exact closes_cons _ (by rcases closing with rfl | rfl <;> simp)
    | cons b bs =>
      have blank : isBlank b = true := y.indent_blanks L b (by rw [indent]; exact List.mem_cons_self)
      exact closes_cons _ (.inr (.inr (.inr (.inr blank))))
  · exact closes_cons _ (.inl rfl)

/-- The elements after the first, each after its comma, read back in order up to the closing
bracket; by induction on the elements, with the ones read so far in `acc`. -/
theorem textItems_more {item : Shape} (ps : List (Json × Json))
    (each : ∀ p ∈ ps, ReadsBack item p.1 p.2 ∧ Opens p.1) :
    ∀ (fuel d : Nat) (acc : List Json) (c : Cursor) (rest : List Char),
      c.rest = y.items (L + 1) (ps.map Prod.fst) ++ (y.indent L ++ ']' :: rest) →
      c.depth = d → item.nesting < d → 2 * c.rest.length + item.slack < fuel →
      (textItems fuel item false acc).Gives c (acc.reverse ++ ps.map Prod.snd) (']' :: rest) d := by
  induction ps with
  | nil =>
    intro fuel d acc c rest h depth deep enough
    obtain ⟨f, rfl⟩ : ∃ f, fuel = f + 1 := ⟨fuel - 1, by omega⟩
    rw [List.map_nil, Layout.items_nil, List.nil_append] at h
    rw [textItems_succ]
    refine (hasElement_close h (y.indent_blanks L) depth).bind fun c₁ r₁ d₁ => ?_
    simpa using gives_pure acc.reverse r₁ d₁
  | cons p ps ih =>
    intro fuel d acc c rest h depth deep enough
    obtain ⟨f, rfl⟩ : ∃ f, fuel = f + 1 := ⟨fuel - 1, by omega⟩
    obtain ⟨back, ch, blank, close, -, texts⟩ := each p List.mem_cons_self
    obtain ⟨t, text⟩ := texts y (L + 1)
    have h' : c.rest = ',' :: (y.indent (L + 1) ++ ch :: (t ++
        (y.items (L + 1) (ps.map Prod.fst) ++ (y.indent L ++ ']' :: rest)))) := by
      rw [h, List.map_cons, Layout.items_cons, text]
      simp
    rw [textItems_succ]
    refine (hasElement_comma h' (y.indent_blanks (L + 1)) blank close depth).bind
      fun c₁ r₁ d₁ => ?_
    simp only [if_true]
    have at₁ : c₁.rest = [] ++ (y.text (L + 1) p.1 ++
        (y.items (L + 1) (ps.map Prod.fst) ++ (y.indent L ++ ']' :: rest))) := by
      rw [r₁, text]
      rfl
    have step₁ : c.rest.length ≥ c₁.rest.length + 1 := by rw [h', r₁]; simp
    refine (back y (L + 1) f d c₁ [] _ blanks_nil at₁
      (closes_after (Layout.items_next y (L + 1) _) y L (.inl rfl) rest) d₁ deep (by omega)).bind
      fun c₂ r₂ d₂ => ?_
    have step₂ : c₁.rest.length = (y.text (L + 1) p.1).length + c₂.rest.length := by
      rw [at₁, r₂]
      simp
    have wide : 0 < (y.text (L + 1) p.1).length := by rw [text]; simp
    simpa using ih (fun q mem => each q (List.mem_cons_of_mem _ mem)) f d (p.2 :: acc) c₂ rest r₂ d₂
      deep (by omega)

/-- The elements of an array, its opening bracket read, read back in order up to the closing
bracket. -/
theorem textItems_all {item : Shape} (ps : List (Json × Json))
    (each : ∀ p ∈ ps, ReadsBack item p.1 p.2 ∧ Opens p.1)
    (h : '[' :: c.rest = y.text L (.array (ps.map Prod.fst)) ++ rest) (depth : c.depth = d)
    (deep : item.nesting < d) (enough : 2 * c.rest.length + item.slack < fuel) :
    (textItems fuel item true []).Gives c (ps.map Prod.snd) (']' :: rest) d := by
  obtain ⟨f, rfl⟩ : ∃ f, fuel = f + 1 := ⟨fuel - 1, by omega⟩
  cases ps with
  | nil =>
    rw [List.map_nil, Layout.text_array_nil] at h
    have h' : c.rest = [] ++ ']' :: rest := by simpa using h
    rw [textItems_succ]
    exact (hasElement_close h' blanks_nil depth).bind fun c₁ r₁ d₁ => gives_pure _ r₁ d₁
  | cons p ps =>
    obtain ⟨back, ch, blank, close, -, texts⟩ := each p List.mem_cons_self
    obtain ⟨t, text⟩ := texts y (L + 1)
    rw [List.map_cons, Layout.text_array_cons, text] at h
    have h' : c.rest = y.indent (L + 1) ++ ch :: (t ++
        (y.items (L + 1) (ps.map Prod.fst) ++ (y.indent L ++ ']' :: rest))) := by
      simpa using h
    rw [textItems_succ]
    refine (hasElement_first h' (y.indent_blanks (L + 1)) blank close depth).bind
      fun c₁ r₁ d₁ => ?_
    simp only [if_true]
    have at₁ : c₁.rest = [] ++ (y.text (L + 1) p.1 ++
        (y.items (L + 1) (ps.map Prod.fst) ++ (y.indent L ++ ']' :: rest))) := by
      rw [r₁, text]
      rfl
    have shorter : c₁.rest.length ≤ c.rest.length := by rw [r₁, h']; simp
    refine (back y (L + 1) f d c₁ [] _ blanks_nil at₁
      (closes_after (Layout.items_next y (L + 1) _) y L (.inl rfl) rest) d₁ deep (by omega)).bind
      fun c₂ r₂ d₂ => ?_
    have step : c₁.rest.length = (y.text (L + 1) p.1).length + c₂.rest.length := by
      rw [at₁, r₂]
      simp
    have wide : 0 < (y.text (L + 1) p.1).length := by rw [text]; simp
    simpa using textItems_more ps (fun q mem => each q (List.mem_cons_of_mem _ mem)) f d [p.2] c₂
      rest r₂ d₂ deep (by omega)

/-- The quoted text of a key reads back as the key by the key reader of `k`. -/
def KeyReads (k : KeyShape) (key : String) : Prop :=
  ∀ (c : Cursor) (r : List Char) (d : Nat), c.rest = (quote key).toList ++ r → c.depth = d →
    (textKey k).Gives c key r d

theorem keyReads_text (key : String) : KeyReads .text key :=
  fun _ _ _ h depth => key_gives key h depth

theorem keyReads_unsigned {n : Nat} (fits : n < 2 ^ 64) : KeyReads .unsigned (toString n) := by
  intro c r d h depth
  rw [quote_toString] at h
  show (numericKey >>= fun n => pure (toString n)).Gives c (toString n) r d
  exact (numericKey_gives fits (by rw [h]; simp) depth).bind fun c₁ r₁ d₁ => gives_pure _ r₁ d₁

/-- Keys each of which differs from every earlier one and does not go before it in the order of
`k`. -/
def KeysAscend (k : KeyShape) (keys : List String) : Prop :=
  keys.Pairwise fun a b => b ≠ a ∧ keyBefore k b a = false

theorem keysAscend_text {keys : List String} (ascending : keys.Pairwise (· < ·)) :
    KeysAscend .text keys :=
  ascending.imp fun lt => ⟨ne_of_gt lt, by simp [keyBefore, not_lt_of_gt lt]⟩

theorem keysAscend_nat {ns : List Nat} (ascending : ns.Pairwise (· < ·)) :
    KeysAscend .unsigned (ns.map toString) := by
  rw [KeysAscend, List.pairwise_map]
  refine ascending.imp fun {m n} lt => ⟨fun same => ?_, ?_⟩
  · have := toString_injective same
    omega
  · simp only [keyBefore, toNat?_toString, Option.getD_some, decide_eq_false_iff_not]
    omega

/-- A key that differs from every key read so far and goes before none of them goes to their
end. -/
theorem insertKey_last (k : KeyShape) (key : String) (v : Json) :
    ∀ acc : List (String × Json), (∀ a ∈ acc, key ≠ a.1 ∧ keyBefore k key a.1 = false) →
      insertKey k key v acc = acc ++ [(key, v)]
  | [], _ => rfl
  | (k', v') :: acc, before => by
    obtain ⟨apart, after⟩ := before (k', v') List.mem_cons_self
    have later := insertKey_last k key v acc fun a mem => before a (List.mem_cons_of_mem _ mem)
    simp [insertKey, apart, after, later]

/-- The members of a map after the first, each after its comma, read back in the order written
up to the closing brace; by induction on the members, with those read so far in `acc`. -/
theorem textEntries_more {k : KeyShape} {value : Shape} (ps : List (String × Json × Json))
    (keys : ∀ p ∈ ps, KeyReads k p.1) (each : ∀ p ∈ ps, ReadsBack value p.2.1 p.2.2)
    (ascending : KeysAscend k (ps.map Prod.fst)) :
    ∀ (fuel d : Nat) (acc : List (String × Json)) (c : Cursor) (rest : List Char),
      (∀ a ∈ acc, ∀ p ∈ ps, p.1 ≠ a.1 ∧ keyBefore k p.1 a.1 = false) →
      c.rest = y.members (L + 1) (ps.map fun p => (p.1, p.2.1)) ++ (y.indent L ++ '\x7d' :: rest) →
      c.depth = d → value.nesting < d → 2 * c.rest.length + value.slack < fuel →
      (textEntries fuel k value false acc).Gives c (acc ++ ps.map fun p => (p.1, p.2.2))
        ('\x7d' :: rest) d := by
  induction ps with
  | nil =>
    intro fuel d acc c rest _ h depth deep enough
    obtain ⟨f, rfl⟩ : ∃ f, fuel = f + 1 := ⟨fuel - 1, by omega⟩
    rw [List.map_nil, Layout.members_nil, List.nil_append] at h
    rw [textEntries_succ]
    refine (hasMember_close h (y.indent_blanks L) depth).bind fun c₁ r₁ d₁ => ?_
    simpa using gives_pure acc r₁ d₁
  | cons p ps ih =>
    intro fuel d acc c rest before h depth deep enough
    obtain ⟨f, rfl⟩ : ∃ f, fuel = f + 1 := ⟨fuel - 1, by omega⟩
    have later := List.pairwise_cons.mp ascending
    obtain ⟨qt, quoted⟩ : ∃ qt, (quote p.1).toList = '"' :: qt := ⟨_, quote_toList p.1⟩
    have h' : c.rest = ',' :: (y.indent (L + 1) ++ '"' :: (qt ++ ':' :: (y.gap ++
        (y.text (L + 1) p.2.1 ++ (y.members (L + 1) (ps.map fun p => (p.1, p.2.1)) ++
          (y.indent L ++ '\x7d' :: rest)))))) := by
      rw [h, List.map_cons, Layout.members_cons, Layout.member, quoted]
      simp
    rw [textEntries_succ]
    refine (hasMember_comma h' (y.indent_blanks (L + 1)) depth).bind fun c₁ r₁ d₁ => ?_
    simp only [if_true]
    refine (keys p List.mem_cons_self c₁ _ d (by rw [r₁, quoted]; rfl) d₁).bind
      fun c₂ r₂ d₂ => ?_
    refine (colon_gives r₂ d₂).bind fun c₃ r₃ d₃ => ?_
    have read : c.rest.length ≥ c₃.rest.length + 2 := by rw [h', r₃]; simp; omega
    refine (each p List.mem_cons_self y (L + 1) f d c₃ y.gap _ y.gap_blanks r₃
      (closes_after (Layout.members_next y (L + 1) _) y L (.inr rfl) rest) d₃ deep
      (by omega)).bind fun c₄ r₄ d₄ => ?_
    have tail : c₃.rest.length ≥ c₄.rest.length := by rw [r₃, r₄]; simp; omega
    rw [insertKey_last k p.1 p.2.2 acc fun a mem => before a mem p List.mem_cons_self]
    have ascend : ∀ a ∈ acc ++ [(p.1, p.2.2)], ∀ q ∈ ps, q.1 ≠ a.1 ∧ keyBefore k q.1 a.1 = false := by
      intro a mem q inPs
      rcases List.mem_append.mp mem with old | new
      · exact before a old q (List.mem_cons_of_mem _ inPs)
      · rw [List.mem_singleton.mp new]
        exact later.1 q.1 (List.mem_map_of_mem inPs)
    simpa using ih (fun q mem => keys q (List.mem_cons_of_mem _ mem))
      (fun q mem => each q (List.mem_cons_of_mem _ mem)) later.2 f d (acc ++ [(p.1, p.2.2)]) c₄
      rest ascend r₄ d₄ deep (by omega)

/-- The members of a map, its opening brace read, read back in the order written up to the
closing brace. -/
theorem textEntries_all {k : KeyShape} {value : Shape} (ps : List (String × Json × Json))
    (keys : ∀ p ∈ ps, KeyReads k p.1) (each : ∀ p ∈ ps, ReadsBack value p.2.1 p.2.2)
    (ascending : KeysAscend k (ps.map Prod.fst))
    (h : '\x7b' :: c.rest = y.text L (.object (ps.map fun p => (p.1, p.2.1))) ++ rest)
    (depth : c.depth = d) (deep : value.nesting < d)
    (enough : 2 * c.rest.length + value.slack < fuel) :
    (textEntries fuel k value true []).Gives c (ps.map fun p => (p.1, p.2.2)) ('\x7d' :: rest) d := by
  obtain ⟨f, rfl⟩ : ∃ f, fuel = f + 1 := ⟨fuel - 1, by omega⟩
  cases ps with
  | nil =>
    rw [List.map_nil, Layout.text_object_nil] at h
    have h' : c.rest = [] ++ '\x7d' :: rest := by simpa using h
    rw [textEntries_succ]
    exact (hasMember_close h' blanks_nil depth).bind fun c₁ r₁ d₁ => gives_pure _ r₁ d₁
  | cons p ps =>
    have later := List.pairwise_cons.mp ascending
    obtain ⟨qt, quoted⟩ : ∃ qt, (quote p.1).toList = '"' :: qt := ⟨_, quote_toList p.1⟩
    rw [List.map_cons, Layout.text_object_cons, Layout.member, quoted] at h
    have h' : c.rest = y.indent (L + 1) ++ '"' :: (qt ++ ':' :: (y.gap ++
        (y.text (L + 1) p.2.1 ++ (y.members (L + 1) (ps.map fun p => (p.1, p.2.1)) ++
          (y.indent L ++ '\x7d' :: rest))))) := by
      simpa using h
    rw [textEntries_succ]
    refine (hasMember_first h' (y.indent_blanks (L + 1)) depth).bind fun c₁ r₁ d₁ => ?_
    simp only [if_true]
    refine (keys p List.mem_cons_self c₁ _ d (by rw [r₁, quoted]; rfl) d₁).bind
      fun c₂ r₂ d₂ => ?_
    refine (colon_gives r₂ d₂).bind fun c₃ r₃ d₃ => ?_
    have read : c.rest.length ≥ c₃.rest.length + 2 := by rw [h', r₃]; simp; omega
    refine (each p List.mem_cons_self y (L + 1) f d c₃ y.gap _ y.gap_blanks r₃
      (closes_after (Layout.members_next y (L + 1) _) y L (.inr rfl) rest) d₃ deep
      (by omega)).bind fun c₄ r₄ d₄ => ?_
    have tail : c₃.rest.length ≥ c₄.rest.length := by rw [r₃, r₄]; simp; omega
    have ascend : ∀ a ∈ [(p.1, p.2.2)], ∀ q ∈ ps, q.1 ≠ a.1 ∧ keyBefore k q.1 a.1 = false := by
      intro a mem q inPs
      rw [List.mem_singleton.mp mem]
      exact later.1 q.1 (List.mem_map_of_mem inPs)
    simpa [insertKey] using textEntries_more ps (fun q mem => keys q (List.mem_cons_of_mem _ mem))
      (fun q mem => each q (List.mem_cons_of_mem _ mem)) later.2 f d [(p.1, p.2.2)] c₄ rest ascend
      r₄ d₄ deep (by omega)

/-- The members of a record after the first, each after its comma, read back in the order
written up to the closing brace; by induction on the members, with those read so far in `acc`.
Each is a field of the record, and none is given twice. -/
theorem textMembers_more {fields : List (String × Shape × Option Json)}
    (ps : List (String × Json × Json)) (known : ∀ p ∈ ps, (fields.lookup p.1).isSome)
    (each : ∀ p ∈ ps, ∀ s dflt, fields.lookup p.1 = some (s, dflt) → ReadsBack s p.2.1 p.2.2)
    (distinct : (ps.map Prod.fst).Nodup) :
    ∀ (fuel d : Nat) (acc : List (String × Json)) (c : Cursor) (rest : List Char),
      (∀ a ∈ acc, ∀ p ∈ ps, a.1 ≠ p.1) →
      c.rest = y.members (L + 1) (ps.map fun p => (p.1, p.2.1)) ++ (y.indent L ++ '\x7d' :: rest) →
      c.depth = d → fieldsNesting fields < d → 2 * c.rest.length + fieldsSlack fields < fuel →
      (textMembers fuel fields false acc).Gives c (acc ++ ps.map fun p => (p.1, p.2.2))
        ('\x7d' :: rest) d := by
  induction ps with
  | nil =>
    intro fuel d acc c rest _ h depth deep enough
    obtain ⟨f, rfl⟩ : ∃ f, fuel = f + 1 := ⟨fuel - 1, by omega⟩
    rw [List.map_nil, Layout.members_nil, List.nil_append] at h
    rw [textMembers_succ]
    refine (hasMember_close h (y.indent_blanks L) depth).bind fun c₁ r₁ d₁ => ?_
    simpa using gives_pure acc r₁ d₁
  | cons p ps ih =>
    intro fuel d acc c rest apart h depth deep enough
    obtain ⟨f, rfl⟩ : ∃ f, fuel = f + 1 := ⟨fuel - 1, by omega⟩
    obtain ⟨⟨s, dflt⟩, found⟩ := Option.isSome_iff_exists.mp (known p List.mem_cons_self)
    obtain ⟨inner, wrapped⟩ := le_fields_of_lookup found
    have fresh : acc.lookup p.1 = none := by
      exact List.lookup_eq_none_iff.mpr fun a mem =>
        bne_iff_ne.mpr (apart a mem p List.mem_cons_self).symm
    have later := List.nodup_cons.mp distinct
    obtain ⟨qt, quoted⟩ : ∃ qt, (quote p.1).toList = '"' :: qt := ⟨_, quote_toList p.1⟩
    have h' : c.rest = ',' :: (y.indent (L + 1) ++ '"' :: (qt ++ ':' :: (y.gap ++
        (y.text (L + 1) p.2.1 ++ (y.members (L + 1) (ps.map fun p => (p.1, p.2.1)) ++
          (y.indent L ++ '\x7d' :: rest)))))) := by
      rw [h, List.map_cons, Layout.members_cons, Layout.member, quoted]
      simp
    rw [textMembers_succ]
    refine (hasMember_comma h' (y.indent_blanks (L + 1)) depth).bind fun c₁ r₁ d₁ => ?_
    simp only [if_true]
    refine (key_gives p.1 (by rw [r₁, quoted]; rfl) d₁).bind fun c₂ r₂ d₂ => ?_
    simp only [found, fresh, Option.isSome_none, Bool.false_eq_true, if_false]
    refine (colon_gives r₂ d₂).bind fun c₃ r₃ d₃ => ?_
    have read : c.rest.length ≥ c₃.rest.length + 2 := by rw [h', r₃]; simp; omega
    refine (each p List.mem_cons_self s dflt found y (L + 1) f d c₃ y.gap _ y.gap_blanks r₃
      (closes_after (Layout.members_next y (L + 1) _) y L (.inr rfl) rest) d₃ (by omega)
      (by omega)).bind fun c₄ r₄ d₄ => ?_
    have tail : c₃.rest.length ≥ c₄.rest.length := by rw [r₃, r₄]; simp; omega
    have apart' : ∀ a ∈ acc ++ [(p.1, p.2.2)], ∀ q ∈ ps, a.1 ≠ q.1 := by
      intro a mem q inPs
      rcases List.mem_append.mp mem with old | new
      · exact apart a old q (List.mem_cons_of_mem _ inPs)
      · rw [List.mem_singleton.mp new]
        exact fun same => later.1 (same ▸ List.mem_map_of_mem inPs)
    simpa using ih (fun q mem => known q (List.mem_cons_of_mem _ mem))
      (fun q mem => each q (List.mem_cons_of_mem _ mem)) later.2 f d (acc ++ [(p.1, p.2.2)]) c₄
      rest apart' r₄ d₄ deep (by omega)

/-- The members of a record, its opening brace read, read back in the order written up to the
closing brace. -/
theorem textMembers_all {fields : List (String × Shape × Option Json)}
    (ps : List (String × Json × Json)) (known : ∀ p ∈ ps, (fields.lookup p.1).isSome)
    (each : ∀ p ∈ ps, ∀ s dflt, fields.lookup p.1 = some (s, dflt) → ReadsBack s p.2.1 p.2.2)
    (distinct : (ps.map Prod.fst).Nodup)
    (h : '\x7b' :: c.rest = y.text L (.object (ps.map fun p => (p.1, p.2.1))) ++ rest)
    (depth : c.depth = d) (deep : fieldsNesting fields < d)
    (enough : 2 * c.rest.length + fieldsSlack fields < fuel) :
    (textMembers fuel fields true []).Gives c (ps.map fun p => (p.1, p.2.2)) ('\x7d' :: rest) d := by
  obtain ⟨f, rfl⟩ : ∃ f, fuel = f + 1 := ⟨fuel - 1, by omega⟩
  cases ps with
  | nil =>
    rw [List.map_nil, Layout.text_object_nil] at h
    have h' : c.rest = [] ++ '\x7d' :: rest := by simpa using h
    rw [textMembers_succ]
    exact (hasMember_close h' blanks_nil depth).bind fun c₁ r₁ d₁ => gives_pure _ r₁ d₁
  | cons p ps =>
    obtain ⟨⟨s, dflt⟩, found⟩ := Option.isSome_iff_exists.mp (known p List.mem_cons_self)
    obtain ⟨inner, wrapped⟩ := le_fields_of_lookup found
    have later := List.nodup_cons.mp distinct
    obtain ⟨qt, quoted⟩ : ∃ qt, (quote p.1).toList = '"' :: qt := ⟨_, quote_toList p.1⟩
    rw [List.map_cons, Layout.text_object_cons, Layout.member, quoted] at h
    have h' : c.rest = y.indent (L + 1) ++ '"' :: (qt ++ ':' :: (y.gap ++
        (y.text (L + 1) p.2.1 ++ (y.members (L + 1) (ps.map fun p => (p.1, p.2.1)) ++
          (y.indent L ++ '\x7d' :: rest))))) := by
      simpa using h
    rw [textMembers_succ]
    refine (hasMember_first h' (y.indent_blanks (L + 1)) depth).bind fun c₁ r₁ d₁ => ?_
    simp only [if_true]
    refine (key_gives p.1 (by rw [r₁, quoted]; rfl) d₁).bind fun c₂ r₂ d₂ => ?_
    simp only [found, List.lookup_nil, Option.isSome_none, Bool.false_eq_true, if_false]
    refine (colon_gives r₂ d₂).bind fun c₃ r₃ d₃ => ?_
    have read : c.rest.length ≥ c₃.rest.length + 2 := by rw [h', r₃]; simp; omega
    refine (each p List.mem_cons_self s dflt found y (L + 1) f d c₃ y.gap _ y.gap_blanks r₃
      (closes_after (Layout.members_next y (L + 1) _) y L (.inr rfl) rest) d₃ (by omega)
      (by omega)).bind fun c₄ r₄ d₄ => ?_
    have tail : c₃.rest.length ≥ c₄.rest.length := by rw [r₃, r₄]; simp; omega
    have apart : ∀ a ∈ [(p.1, p.2.2)], ∀ q ∈ ps, a.1 ≠ q.1 := by
      intro a mem q inPs
      rw [List.mem_singleton.mp mem]
      exact fun same => later.1 (same ▸ List.mem_map_of_mem inPs)
    simpa using textMembers_more ps (fun q mem => known q (List.mem_cons_of_mem _ mem))
      (fun q mem => each q (List.mem_cons_of_mem _ mem)) later.2 f d [(p.1, p.2.2)] c₄ rest apart r₄
      d₄ deep (by omega)

end Collections

section Nested

variable {fuel d : Nat} {c : Cursor} {rest : List Char}

theorem readsBack_list {item : Shape} (ps : List (Json × Json))
    (each : ∀ p ∈ ps, ReadsBack item p.1 p.2 ∧ Opens p.1) :
    ReadsBack (.list item) (.array (ps.map Prod.fst)) (.array (ps.map Prod.snd)) := by
  intro y L fuel d c bs rest blanks h ends depth deep enough
  obtain ⟨f, rfl⟩ := fuel_pos h (opens_array _) enough
  obtain ⟨t, opened⟩ := Layout.text_array_opens y L (ps.map Prod.fst)
  have h' : c.rest = bs ++ '[' :: (t ++ rest) := by rw [h, opened]; rfl
  rw [nesting_list] at deep
  rw [slack_list] at enough
  rw [textValue_list]
  refine (peekSkip_blanks h' blanks (by decide) depth).bind fun c₁ r₁ d₁ => ?_
  refine nested_gives r₁ (by omega) d₁ (fun c₂ r₂ d₂ => ?_) (fun _ => endList_gives)
    fun c₃ r₃ d₃ => gives_pure _ r₃ d₃
  have read : c.rest.length ≥ c₂.rest.length + 1 := by rw [h', r₂]; simp
  exact textItems_all ps each (by rw [r₂, opened]; rfl) d₂ (by omega) (by omega)

/-- A map whose keys each read back by the key reader of `k`, and come in its order, reads back
member by member. -/
theorem readsBack_entries {k : KeyShape} {value : Shape} (ps : List (String × Json × Json))
    (keys : ∀ p ∈ ps, KeyReads k p.1) (each : ∀ p ∈ ps, ReadsBack value p.2.1 p.2.2)
    (ascending : KeysAscend k (ps.map Prod.fst)) :
    ReadsBack (.map k value) (.object (ps.map fun p => (p.1, p.2.1)))
      (.object (ps.map fun p => (p.1, p.2.2))) := by
  intro y L fuel d c bs rest blanks h ends depth deep enough
  obtain ⟨f, rfl⟩ := fuel_pos h (opens_object _) enough
  obtain ⟨t, opened⟩ := Layout.text_object_opens y L (ps.map fun p => (p.1, p.2.1))
  have h' : c.rest = bs ++ '\x7b' :: (t ++ rest) := by rw [h, opened]; rfl
  rw [nesting_map] at deep
  rw [slack_map] at enough
  rw [textValue_map]
  refine (peekSkip_blanks h' blanks (by decide) depth).bind fun c₁ r₁ d₁ => ?_
  refine nested_gives r₁ (by omega) d₁ (fun c₂ r₂ d₂ => ?_) (fun _ => endObject_gives)
    fun c₃ r₃ d₃ => gives_pure _ r₃ d₃
  have read : c.rest.length ≥ c₂.rest.length + 1 := by rw [h', r₂]; simp
  exact textEntries_all ps keys each ascending (by rw [r₂, opened]; rfl) d₂ (by omega) (by omega)

theorem readsBack_map {value : Shape} (ps : List (String × Json × Json))
    (each : ∀ p ∈ ps, ReadsBack value p.2.1 p.2.2) (ascending : (ps.map Prod.fst).Pairwise (· < ·)) :
    ReadsBack (.map .text value) (.object (ps.map fun p => (p.1, p.2.1)))
      (.object (ps.map fun p => (p.1, p.2.2))) :=
  readsBack_entries ps (fun p _ => keyReads_text p.1) each (keysAscend_text ascending)

/-- A map of numeric keys, written in ascending order as their digits, reads back member by
member. -/
theorem readsBack_mapNat {value : Shape} (ps : List (Nat × Json × Json))
    (each : ∀ p ∈ ps, ReadsBack value p.2.1 p.2.2) (ascending : (ps.map Prod.fst).Pairwise (· < ·))
    (fit : ∀ p ∈ ps, p.1 < 2 ^ 64) :
    ReadsBack (.map .unsigned value) (.object (ps.map fun p => (toString p.1, p.2.1)))
      (.object (ps.map fun p => (toString p.1, p.2.2))) := by
  let qs := ps.map fun p => (toString p.1, p.2)
  have keys : ∀ q ∈ qs, KeyReads .unsigned q.1 := by
    intro q mem
    obtain ⟨p, inPs, rfl⟩ := List.mem_map.mp mem
    exact keyReads_unsigned (fit p inPs)
  have values : ∀ q ∈ qs, ReadsBack value q.2.1 q.2.2 := by
    intro q mem
    obtain ⟨p, inPs, rfl⟩ := List.mem_map.mp mem
    exact each p inPs
  have ascend : KeysAscend .unsigned (qs.map Prod.fst) := by
    simpa [qs, Function.comp_def] using keysAscend_nat ascending
  simpa [qs, Function.comp_def] using readsBack_entries qs keys values ascend

theorem readsBack_record {name : String} {fields : List (String × Shape × Option Json)} {n : Json}
    (ps : List (String × Json × Json)) (known : ∀ p ∈ ps, (fields.lookup p.1).isSome)
    (each : ∀ p ∈ ps, ∀ s dflt, fields.lookup p.1 = some (s, dflt) → ReadsBack s p.2.1 p.2.2)
    (distinct : (ps.map Prod.fst).Nodup)
    (filled : ofFill fields (ps.map fun p => (p.1, p.2.2)) = .ok n) :
    ReadsBack (.record name fields) (.object (ps.map fun p => (p.1, p.2.1))) n := by
  intro y L fuel d c bs rest blanks h ends depth deep enough
  obtain ⟨f, rfl⟩ := fuel_pos h (opens_object _) enough
  obtain ⟨t, opened⟩ := Layout.text_object_opens y L (ps.map fun p => (p.1, p.2.1))
  have h' : c.rest = bs ++ '\x7b' :: (t ++ rest) := by rw [h, opened]; rfl
  rw [nesting_record] at deep
  rw [slack_record] at enough
  rw [textValue_record]
  refine (peekSkip_blanks h' blanks (by decide) depth).bind fun c₁ r₁ d₁ => ?_
  refine nested_gives (x := ps.map fun p => (p.1, p.2.2)) r₁ (by omega) d₁ (fun c₂ r₂ d₂ => ?_)
    (fun _ => endObject_gives) fun c₃ r₃ d₃ => ?_
  · have read : c.rest.length ≥ c₂.rest.length + 1 := by rw [h', r₂]; simp
    exact textMembers_all ps known each distinct (by rw [r₂, opened]; rfl) d₂ (by omega) (by omega)
  · simp only [filled]
    exact gives_pure _ r₃ d₃

end Nested

/-- Every value that `Reads` allows reads back from its text in every layout; by induction on
`Reads`, one lemma per constructor. -/
theorem Reads.text {s : Shape} {j n : Json} (h : Reads s j n) : ReadsBack s j n := by
  induction h with
  | unsigned fits => exact readsBack_unsigned fits
  | signed low high => exact readsBack_signed low high
  | bool b => exact readsBack_bool b
  | string s => exact readsBack_string s
  | variant mem => exact readsBack_variant mem
  | none => exact readsBack_none
  | some read notNull back => exact readsBack_some back read.opens notNull
  | list ps each back => exact readsBack_list ps fun p mem => ⟨back p mem, (each p mem).opens⟩
  | map ps ascending _ back => exact readsBack_map ps back ascending
  | mapNat ps ascending fit _ back => exact readsBack_mapNat ps back ascending fit
  | record ps distinct known _ filled back => exact readsBack_record ps known back distinct filled

/-- Reading a text that lays out a value by a shape gives what `Reads` says it reads back as,
when the shape nests arrays and objects less than 127 deep and wraps values in at most eight
optional places. -/
theorem Reads.ofText_layout {s : Shape} {j n : Json} (h : Reads s j n) (shallow : s.nesting < 128)
    (wrapped : s.slack ≤ 8) {text : String} (y : Layout) (laid : text.toList = y.text 0 j) :
    Shape.ofText s text = .ok n := by
  let c := Cursor.ofString text
  obtain ⟨c₁, run₁, r₁, -⟩ := h.text y 0 (2 * c.rest.length + 8) 128 c [] []
    blanks_nil (by simp [c, Cursor.ofString, laid]) closes_nil rfl shallow (by omega)
  obtain ⟨c₂, run₂, -, -⟩ := peekSkip_end r₁ rfl
  simp only [ofText, StateT.run]
  rw [bind_apply_ok run₁, bind_apply_ok run₂]
  rfl

theorem Reads.ofText_compact {s : Shape} {j n : Json} (h : Reads s j n) (shallow : s.nesting < 128)
    (wrapped : s.slack ≤ 8) : Shape.ofText s (compact j) = .ok n :=
  h.ofText_layout shallow wrapped Layout.compact (compact_toList j)

theorem Reads.ofText_pretty {s : Shape} {j n : Json} (h : Reads s j n) (shallow : s.nesting < 128)
    (wrapped : s.slack ≤ 8) : Shape.ofText s (pretty j) = .ok n :=
  h.ofText_layout shallow wrapped Layout.pretty (pretty_toList j)

end Shape

end Campaign
