import Campaign.Proofs.Json.Layout

/-! The tokens `Json.compact` writes read back to what was written, stated with `Scan.Gives` at any
cursor whose unread text it names: escaped strings whatever their characters (`string_escaped`)
and the digits of words, unsigned or negative (`number_toDigits`).
-/

namespace Campaign

namespace Scan

variable {α β : Type}

/-- Run at `c`, `x` gives `v`, leaving `rest` unread at depth `depth`. -/
def Gives (x : Scan α) (c : Cursor) (v : α) (rest : List Char) (depth : Nat) : Prop :=
  ∃ c', x c = .ok (v, c') ∧ c'.rest = rest ∧ c'.depth = depth

theorem bind_apply_ok {x : Scan α} {f : α → Scan β} {c c' : Cursor} {a : α}
    (h : x c = .ok (a, c')) : (x >>= f) c = f a c' := by
  show (StateT.bind x f) c = _
  simp only [StateT.bind, h]
  rfl

/-- Two readers in sequence: the second starts where the first stopped. -/
theorem Gives.bind {x : Scan α} {f : α → Scan β} {c : Cursor} {a : α} {b : β}
    {r r' : List Char} {d d' : Nat} (first : x.Gives c a r d)
    (next : ∀ c', c'.rest = r → c'.depth = d → (f a).Gives c' b r' d') :
    (x >>= f).Gives c b r' d' := by
  obtain ⟨c₁, run₁, rest₁, depth₁⟩ := first
  obtain ⟨c₂, run₂, rest₂, depth₂⟩ := next c₁ rest₁ depth₁
  exact ⟨c₂, (bind_apply_ok run₁).trans run₂, rest₂, depth₂⟩

/-- A reader whose run at every cursor of the right text is that of another. -/
theorem Gives.of_eq {x y : Scan α} {c c' : Cursor} {v : α} {r : List Char} {d : Nat}
    (same : x c = y c') (later : y.Gives c' v r d) : x.Gives c v r d := by
  obtain ⟨c₁, run, rest, depth⟩ := later
  exact ⟨c₁, same.trans run, rest, depth⟩

section Primitives

variable {c : Cursor} {ch : Char} {r : List Char} {d : Nat}

theorem gives_pure (v : α) (rest : c.rest = r) (depth : c.depth = d) :
    (pure v : Scan α).Gives c v r d :=
  ⟨c, rfl, rest, depth⟩

theorem get_gives (rest : c.rest = r) (depth : c.depth = d) :
    (get : Scan Cursor).Gives c c r d :=
  ⟨c, rfl, rest, depth⟩

theorem skipBlanks_of_head (h : c.rest = ch :: r) (hb : isBlank ch = false) :
    skipBlanks c = c := by
  have nl : ch ≠ '\n' := by rintro rfl; simp [isBlank] at hb
  unfold skipBlanks
  rw [h]
  simp only [skipBlanks.go, nl, hb, if_false, Bool.false_eq_true]
  rw [← h]

theorem skipBlanks_of_nil (h : c.rest = []) : skipBlanks c = c := by
  unfold skipBlanks
  rw [h]
  simp only [skipBlanks.go]
  rw [← h]

theorem peekSkip_gives (h : c.rest = ch :: r) (hb : isBlank ch = false) (depth : c.depth = d) :
    peekSkip.Gives c (some ch) (ch :: r) d :=
  ⟨c, by rw [show peekSkip c = .ok ((skipBlanks c).rest.head?, skipBlanks c) from rfl,
    skipBlanks_of_head h hb, h]; rfl, h, depth⟩

/-- Skipping blanks stops at the first character that is not one. -/
theorem skipBlanks_go_blanks {ch : Char} {r : List Char} (hb : isBlank ch = false) :
    ∀ (bs : List Char) (line column : Nat), Json.Blanks bs →
      (skipBlanks.go (bs ++ ch :: r) line column).1 = ch :: r
  | [], line, column, _ => by
    have nl : ch ≠ '\n' := by rintro rfl; simp [isBlank] at hb
    simp [skipBlanks.go, nl, hb]
  | b :: bs, line, column, blanks => by
    have blank : isBlank b = true := blanks b List.mem_cons_self
    have later : Json.Blanks bs := fun x mem => blanks x (List.mem_cons_of_mem _ mem)
    simp only [List.cons_append, skipBlanks.go, blank, if_true]
    -- a line break and any other blank are both skipped, only the position differs
    split <;> exact skipBlanks_go_blanks hb bs _ _ later

/-- Looking past blanks sees the character after them. -/
theorem peekSkip_blanks {bs : List Char} (h : c.rest = bs ++ ch :: r) (blanks : Json.Blanks bs)
    (hb : isBlank ch = false) (depth : c.depth = d) : peekSkip.Gives c (some ch) (ch :: r) d := by
  have skipped : (skipBlanks c).rest = ch :: r := by
    have stops := skipBlanks_go_blanks (r := r) hb bs c.line c.column blanks
    unfold skipBlanks
    rw [h]
    rcases found : skipBlanks.go (bs ++ ch :: r) c.line c.column with ⟨rest, line, column⟩
    rw [found] at stops
    exact stops
  have kept : (skipBlanks c).depth = c.depth := rfl
  exact ⟨skipBlanks c, by
    rw [show peekSkip c = .ok ((skipBlanks c).rest.head?, skipBlanks c) from rfl, skipped]; rfl,
    skipped, kept.trans depth⟩

theorem peekSkip_end (h : c.rest = []) (depth : c.depth = d) : peekSkip.Gives c none [] d :=
  ⟨c, by rw [show peekSkip c = .ok ((skipBlanks c).rest.head?, skipBlanks c) from rfl,
    skipBlanks_of_nil h, h]; rfl, h, depth⟩

theorem peek_gives (h : c.rest = ch :: r) (depth : c.depth = d) :
    peek.Gives c (some ch) (ch :: r) d :=
  ⟨c, by rw [show peek c = .ok (c.rest.head?, c) from rfl, h]; rfl, h, depth⟩

theorem peek_end (h : c.rest = []) (depth : c.depth = d) : peek.Gives c none [] d :=
  ⟨c, by rw [show peek c = .ok (c.rest.head?, c) from rfl, h]; rfl, h, depth⟩

theorem advance_of_head (h : c.rest = ch :: r) : c.advance.rest = r ∧ c.advance.depth = c.depth := by
  unfold Cursor.advance
  rw [h]
  dsimp only
  split <;> exact ⟨rfl, rfl⟩

theorem eat_gives (h : c.rest = ch :: r) (depth : c.depth = d) : eat.Gives c () r d :=
  ⟨c.advance, rfl, (advance_of_head h).1, (advance_of_head h).2.trans depth⟩

theorem next_gives (h : c.rest = ch :: r) (depth : c.depth = d) : next.Gives c (some ch) r d :=
  ⟨c.advance, by rw [show next c = .ok (c.rest.head?, c.advance) from rfl, h]; rfl,
    (advance_of_head h).1, (advance_of_head h).2.trans depth⟩

/-- The rest of a keyword reads back when the text spells it. -/
theorem ident_gives (w : List Char) : ∀ {c : Cursor} {r : List Char}, c.rest = w ++ r →
    c.depth = d → (ident w).Gives c () r d := by
  induction w with
  | nil => intro c r h depth; exact ⟨c, rfl, h, depth⟩
  | cons ch w ih =>
    intro c r h depth
    unfold ident
    rw [List.forIn_cons]
    simp only [bind_assoc]
    refine (next_gives h depth).bind fun c₁ r₁ d₁ => ?_
    simp only [ne_eq, not_true_eq_false, if_false, pure_bind]
    exact ih r₁ d₁

end Primitives

section Strings

variable {c : Cursor} {r : List Char} {d : Nat}

theorem hexValue_hexDigit : ∀ k, k < 16 → hexValue (Json.hexDigit k) = some k := by decide

theorem hexEscape_gives {a b e f : Char} {w x y z : Nat}
    (h : c.rest = a :: b :: e :: f :: r) (ha : hexValue a = some w) (hb : hexValue b = some x)
    (he : hexValue e = some y) (hf : hexValue f = some z) (depth : c.depth = d) :
    hexEscape.Gives c (((w * 16 + x) * 16 + y) * 16 + z) r d := by
  unfold hexEscape
  refine (get_gives rfl depth).bind fun c₁ r₁ d₁ => ?_
  simp only [h]
  rw [h] at r₁
  refine (eat_gives r₁ d₁).bind fun c₂ r₂ d₂ => ?_
  refine (eat_gives r₂ d₂).bind fun c₃ r₃ d₃ => ?_
  refine (eat_gives r₃ d₃).bind fun c₄ r₄ d₄ => ?_
  refine (eat_gives r₄ d₄).bind fun c₅ r₅ d₅ => ?_
  simp only [ha, hb, he, hf]
  exact gives_pure _ r₅ d₅

/-- A control character written `\u00XX` reads back, the `\u` already read. -/
theorem unicodeEscape_control {ch : Char} (small : ch.toNat < 32)
    (h : c.rest = '0' :: '0' :: Json.hexDigit (ch.toNat / 16) :: Json.hexDigit (ch.toNat % 16) :: r)
    (depth : c.depth = d) : unicodeEscape.Gives c ch r d := by
  unfold unicodeEscape
  have zero : hexValue '0' = some 0 := by decide
  refine (hexEscape_gives h zero zero (hexValue_hexDigit _ (by omega))
    (hexValue_hexDigit _ (by omega)) depth).bind fun c₁ r₁ d₁ => ?_
  have value : ((0 * 16 + 0) * 16 + ch.toNat / 16) * 16 + ch.toNat % 16 = ch.toNat := by omega
  rw [value]
  simp only [show ¬(56320 ≤ ch.toNat ∧ ch.toNat ≤ 57343) by omega,
    show ch.toNat < 55296 ∨ 56319 < ch.toNat by omega, if_true, if_false, Char.ofNat_toNat]
  exact gives_pure _ r₁ d₁

/-- A short escape reads back as the character it stands for, the backslash already read. -/
theorem escape_short {x ch : Char} (h : c.rest = x :: r) (depth : c.depth = d)
    (short : (x, ch) ∈ [('"', '"'), ('\\', '\\'), ('n', '\n'), ('r', '\r'), ('t', '\t'),
      ('b', Char.ofNat 8), ('f', Char.ofNat 12)]) :
    escape.Gives c ch r d := by
  unfold escape
  refine (next_gives h depth).bind fun c₁ r₁ d₁ => ?_
  simp only [List.mem_cons, Prod.mk.injEq, List.not_mem_nil, or_false] at short
  rcases short with ⟨rfl, rfl⟩ | ⟨rfl, rfl⟩ | ⟨rfl, rfl⟩ | ⟨rfl, rfl⟩ | ⟨rfl, rfl⟩ | ⟨rfl, rfl⟩ |
    ⟨rfl, rfl⟩ <;> exact gives_pure _ r₁ d₁

/-- After a backslash, the string goes on with the character its escape stands for. -/
theorem stringBody_backslash {fuel : Nat} {acc t : List Char} {ch : Char}
    (h : c.rest = '\\' :: t) (depth : c.depth = d)
    (esc : ∀ c₁ : Cursor, c₁.rest = t → c₁.depth = d → escape.Gives c₁ ch r d) :
    ∃ c', c'.rest = r ∧ c'.depth = d ∧ stringBody (fuel + 1) acc c = stringBody fuel (ch :: acc) c' := by
  obtain ⟨c₁, run₁, r₁, d₁⟩ := next_gives h depth
  obtain ⟨c₂, run₂, r₂, d₂⟩ := esc c₁ r₁ d₁
  refine ⟨c₂, r₂, d₂, ?_⟩
  rw [stringBody, bind_apply_ok run₁]
  exact bind_apply_ok run₂

/-- One written character reads back as itself, in one step of the string reader. -/
theorem stringBody_escapeChar (fuel : Nat) (acc : List Char) {ch : Char}
    (h : c.rest = Json.escapeChar ch ++ r) (depth : c.depth = d) :
    ∃ c', c'.rest = r ∧ c'.depth = d ∧ stringBody (fuel + 1) acc c = stringBody fuel (ch :: acc) c' := by
  unfold Json.escapeChar at h
  split at h
  · rename_i same
    subst same
    exact stringBody_backslash h depth fun c₁ r₁ d₁ => escape_short r₁ d₁ (by simp)
  split at h
  · rename_i same
    subst same
    exact stringBody_backslash h depth fun c₁ r₁ d₁ => escape_short r₁ d₁ (by simp)
  split at h
  · rename_i same
    subst same
    exact stringBody_backslash h depth fun c₁ r₁ d₁ => escape_short r₁ d₁ (by simp)
  split at h
  · rename_i same
    subst same
    exact stringBody_backslash h depth fun c₁ r₁ d₁ => escape_short r₁ d₁ (by simp)
  split at h
  · rename_i same
    subst same
    exact stringBody_backslash h depth fun c₁ r₁ d₁ => escape_short r₁ d₁ (by simp)
  split at h
  · rename_i backspace
    have : ch = Char.ofNat 8 := by rw [← backspace, Char.ofNat_toNat]
    subst this
    exact stringBody_backslash h depth fun c₁ r₁ d₁ => escape_short r₁ d₁ (by simp)
  split at h
  · rename_i formfeed
    have : ch = Char.ofNat 12 := by rw [← formfeed, Char.ofNat_toNat]
    subst this
    exact stringBody_backslash h depth fun c₁ r₁ d₁ => escape_short r₁ d₁ (by simp)
  split at h
  · rename_i small
    refine stringBody_backslash h depth fun c₁ r₁ d₁ => ?_
    unfold escape
    refine (next_gives r₁ d₁).bind fun c₂ r₂ d₂ => ?_
    exact unicodeEscape_control small r₂ d₂
  · rename_i quote backslash _ _ _ _ _ small
    obtain ⟨c₁, run₁, r₁, d₁⟩ := next_gives h depth
    refine ⟨c₁, r₁, d₁, ?_⟩
    rw [stringBody, bind_apply_ok run₁]
    simp only [small, if_false]

theorem escapeChar_ne_nil (ch : Char) : Json.escapeChar ch ≠ [] := by
  unfold Json.escapeChar
  repeat' split
  all_goals simp

theorem length_le_escaped (cs : List Char) : cs.length ≤ (cs.flatMap Json.escapeChar).length := by
  induction cs with
  | nil => simp
  | cons ch cs ih =>
    have one := List.length_pos_iff.mpr (escapeChar_ne_nil ch)
    simp only [List.flatMap_cons, List.length_append, List.length_cons]
    omega

/-- The written characters of a list, then a closing quote, read back as that list, after the
characters read before. -/
theorem stringBody_escaped (cs : List Char) : ∀ {fuel : Nat} {acc : List Char} {c : Cursor},
    cs.length < fuel → c.rest = cs.flatMap Json.escapeChar ++ '"' :: r → c.depth = d →
    (stringBody fuel acc).Gives c (String.ofList (acc.reverse ++ cs)) r d := by
  induction cs with
  | nil =>
    intro fuel acc c enough h depth
    obtain ⟨f, rfl⟩ : ∃ f, fuel = f + 1 := ⟨fuel - 1, by simp at enough; omega⟩
    rw [List.flatMap_nil, List.nil_append] at h
    unfold stringBody
    refine (next_gives h depth).bind fun c₁ r₁ d₁ => ?_
    simpa using gives_pure (String.ofList acc.reverse) r₁ d₁
  | cons ch cs ih =>
    intro fuel acc c enough h depth
    obtain ⟨f, rfl⟩ : ∃ f, fuel = f + 1 := ⟨fuel - 1, by simp at enough; omega⟩
    rw [List.flatMap_cons, List.append_assoc] at h
    obtain ⟨c₁, r₁, d₁, step⟩ := stringBody_escapeChar f acc h depth
    have rest := @ih f (ch :: acc) c₁ (by simp at enough; omega) r₁ d₁
    simpa using Gives.of_eq step rest

/-- A string's escaped characters and closing quote read back as the string. -/
theorem string_escaped (s : String) (h : c.rest = s.toList.flatMap Json.escapeChar ++ '"' :: r)
    (depth : c.depth = d) : Scan.string.Gives c s r d := by
  unfold Scan.string
  refine (get_gives rfl depth).bind fun c₁ r₁ d₁ => ?_
  have enough : s.toList.length < c.rest.length + 1 := by
    have := length_le_escaped s.toList
    rw [h, List.length_append]
    omega
  simpa using @stringBody_escaped r d s.toList _ [] c₁ enough (r₁.trans h) d₁

theorem quote_toList (s : String) :
    (Json.quote s).toList = '"' :: (s.toList.flatMap Json.escapeChar ++ ['"']) := by
  simp [Json.quote]

end Strings

section Numbers

variable {c : Cursor} {r : List Char} {d : Nat}

/-- What may follow a written number: the end of the text or a character that does not go on
with it, such as a comma, a closing bracket, a blank or a closing quote. -/
def Closes (rest : List Char) : Prop :=
  ∀ ch ∈ rest.head?, isDigit ch = false ∧ ch ≠ '.' ∧ ch ≠ 'e' ∧ ch ≠ 'E'

theorem Closes.not_digit {rest : List Char} (ends : Closes rest) :
    ∀ ch ∈ rest.head?, isDigit ch = false :=
  fun ch mem => (ends ch mem).1

theorem closes_nil : Closes [] := by simp [Closes]

/-- A comma, a closing bracket, a quote or a blank ends a number. -/
theorem closes_cons {ch : Char} (r : List Char)
    (ok : ch = ',' ∨ ch = ']' ∨ ch = '\x7d' ∨ ch = '"' ∨ isBlank ch = true) : Closes (ch :: r) := by
  intro x mem
  simp only [List.head?_cons, Option.mem_def, Option.some.injEq] at mem
  subst mem
  rcases ok with rfl | rfl | rfl | rfl | blank
  any_goals decide
  simp only [isBlank, Bool.or_eq_true, decide_eq_true_eq] at blank
  rcases blank with ((rfl | rfl) | rfl) | rfl <;> decide

/-- The value of decimal digits read after the value `v`. -/
def decimal (v : Nat) (ds : List Char) : Nat :=
  ds.foldl (fun v d => v * 10 + digitValue d) v

@[simp] theorem decimal_nil (v : Nat) : decimal v [] = v := by
  simp only [decimal, List.foldl_nil]

@[simp] theorem decimal_cons (v : Nat) (ch : Char) (ds : List Char) :
    decimal v (ch :: ds) = decimal (v * 10 + digitValue ch) ds := by
  simp only [decimal, List.foldl_cons]

theorem decimal_append (v : Nat) (ds es : List Char) :
    decimal v (ds ++ es) = decimal (decimal v ds) es := by
  simp [decimal, List.foldl_append]

theorem le_decimal (v : Nat) (ds : List Char) : v ≤ decimal v ds := by
  induction ds generalizing v with
  | nil => exact Nat.le_refl v
  | cons ch ds ih => exact Nat.le_trans (by omega) (ih (v * 10 + digitValue ch))

theorem digitChar_digit : ∀ k, k < 10 → isDigit k.digitChar = true ∧ digitValue k.digitChar = k := by
  intro k small
  interval_cases k <;> exact ⟨rfl, rfl⟩

theorem toDigits_ten (n : Nat) : Nat.toDigits 10 n =
    if n < 10 then [n.digitChar] else Nat.toDigits 10 (n / 10) ++ [(n % 10).digitChar] := by
  split
  · exact Nat.toDigits_of_lt_base ‹_›
  · have joined := Nat.toDigits_append_toDigits (b := 10) (n := n / 10) (d := n % 10) (by decide)
      (by omega) (Nat.mod_lt _ (by decide))
    rw [Nat.toDigits_of_lt_base (Nat.mod_lt _ (by decide)), Nat.div_add_mod] at joined
    exact joined.symm

/-- The decimal digits of a number are digits, and their value is the number. -/
theorem toDigits_decimal (n : Nat) :
    (∀ ch ∈ Nat.toDigits 10 n, isDigit ch = true) ∧ decimal 0 (Nat.toDigits 10 n) = n := by
  induction n using Nat.strongRecOn with
  | _ n ih =>
    rw [toDigits_ten]
    split
    · rename_i small
      obtain ⟨digit, value⟩ := digitChar_digit n small
      simp [digit, value]
    · rename_i large
      obtain ⟨digits, value⟩ := ih (n / 10) (by omega)
      obtain ⟨digit, last⟩ := digitChar_digit (n % 10) (Nat.mod_lt _ (by decide))
      refine ⟨fun ch mem => ?_, ?_⟩
      · rcases List.mem_append.mp mem with inner | inner
        · exact digits ch inner
        · rw [List.mem_singleton.mp inner]
          exact digit
      · rw [decimal_append, value]
        simp [last]
        omega

/-- A positive number's decimal digits do not start with `0`. -/
theorem toDigits_lead {n : Nat} (pos : 0 < n) :
    ∃ ch more, Nat.toDigits 10 n = ch :: more ∧ ch ≠ '0' := by
  induction n using Nat.strongRecOn with
  | _ n ih =>
    rw [toDigits_ten]
    split
    · rename_i small
      have lead : ∀ k, k < 10 → 0 < k → k.digitChar ≠ '0' := by
        intro k small pos
        interval_cases k <;> decide
      exact ⟨_, [], rfl, lead n small pos⟩
    · rename_i large
      obtain ⟨ch, more, eq, lead⟩ := ih (n / 10) (by omega) (by omega)
      exact ⟨ch, more ++ [(n % 10).digitChar], by rw [eq]; rfl, lead⟩

/-- Digits accumulate into the significand as long as the value fits 64 bits. -/
theorem foldl_significand {step : Nat × Nat × Bool → Char → Nat × Nat × Bool}
    (hstep : ∀ v k ch, v * 10 + digitValue ch ≤ wordMax →
      step (v, k, false) ch = (v * 10 + digitValue ch, k + 1, false)) :
    ∀ (ds : List Char) (v k : Nat), decimal v ds ≤ wordMax →
      ds.foldl step (v, k, false) = (decimal v ds, k + ds.length, false) := by
  intro ds
  induction ds with
  | nil => intro v k _; rfl
  | cons ch ds ih =>
    intro v k fits
    rw [decimal_cons] at fits
    have first : v * 10 + digitValue ch ≤ wordMax := Nat.le_trans (le_decimal _ ds) fits
    rw [List.foldl_cons, hstep v k ch first, ih _ _ fits, decimal_cons, List.length_cons]
    simp only [Nat.add_assoc, Nat.add_comm 1]

theorem digits_gives {ds : List Char} (h : c.rest = ds ++ r) (all : ∀ ch ∈ ds, isDigit ch = true)
    (stop : ∀ ch ∈ r.head?, isDigit ch = false) (depth : c.depth = d) :
    digits.Gives c ds r d := by
  have taken : c.rest.takeWhile isDigit = ds := by
    rw [h, List.takeWhile_append_of_pos all]
    cases r with
    | nil => simp
    | cons ch t => simp [List.takeWhile_cons_of_neg, stop ch rfl]
  have run : digits c = .ok (c.rest.takeWhile isDigit, { c with
      rest := c.rest.drop (c.rest.takeWhile isDigit).length,
      column := c.column + (c.rest.takeWhile isDigit).length }) := rfl
  rw [taken] at run
  exact ⟨_, run, by simp [h], depth⟩

/-- After the digits of an integer and no fraction or exponent, an unsigned number ends. -/
theorem numberTail_unsigned (sig : Nat) (ends : Closes c.rest) (depth : c.depth = d) :
    (numberTail false sig 0 false).Gives c (.uint sig) c.rest d := by
  unfold numberTail
  cases hr : c.rest with
  | nil => exact (peek_end hr depth).bind fun c₁ r₁ d₁ => gives_pure _ r₁ d₁
  | cons ch t =>
    rw [hr] at ends
    obtain ⟨-, dot, e, E⟩ := ends ch rfl
    refine (peek_gives hr depth).bind fun c₁ r₁ d₁ => ?_
    split
    · rename_i same
      exact absurd (Option.some.inj same) dot
    · rename_i same
      exact absurd (Option.some.inj same) e
    · rename_i same
      exact absurd (Option.some.inj same) E
    · exact gives_pure _ r₁ d₁

/-- After a minus and the digits of an integer from `1` to `2 ^ 63`, a negative number ends. -/
theorem numberTail_negative {sig : Nat} (pos : 0 < sig) (small : sig ≤ 2 ^ 63)
    (ends : Closes c.rest) (depth : c.depth = d) :
    (numberTail true sig 0 false).Gives c (.sint (-(sig : Int))) c.rest d := by
  have nonzero : sig ≠ 0 := by omega
  have fits : sig ≤ Nat.pow 2 63 := small
  unfold numberTail
  cases hr : c.rest with
  | nil =>
    refine (peek_end hr depth).bind fun c₁ r₁ d₁ => ?_
    simp only [nonzero, fits, if_true, if_false]
    exact gives_pure _ r₁ d₁
  | cons ch t =>
    rw [hr] at ends
    obtain ⟨-, dot, e, E⟩ := ends ch rfl
    refine (peek_gives hr depth).bind fun c₁ r₁ d₁ => ?_
    split
    · rename_i same
      exact absurd (Option.some.inj same) dot
    · rename_i same
      exact absurd (Option.some.inj same) e
    · rename_i same
      exact absurd (Option.some.inj same) E
    · simp only [nonzero, fits, if_true, if_false]
      exact gives_pure _ r₁ d₁

/-- The largest word, as a power of two. -/
theorem wordMax_eq : wordMax = 2 ^ 64 - 1 := rfl

/-- The digits of a number below `2 ^ 64` read up to the end of the number, with the number as
its significand and no exponent. -/
theorem number_toDigits (neg : Bool) {n : Nat} (fits : n ≤ wordMax)
    (h : c.rest = Nat.toDigits 10 n ++ r) (ends : Closes r) (depth : c.depth = d) :
    ∃ c', c'.rest = r ∧ c'.depth = d ∧ number neg c = numberTail neg n 0 false c' := by
  obtain ⟨digits, value⟩ := toDigits_decimal n
  rcases Nat.eq_zero_or_pos n with rfl | pos
  · -- zero is the single digit `0`, and what follows it is not a digit
    obtain ⟨c₁, run₁, r₁, d₁⟩ := next_gives (show c.rest = '0' :: r from h) depth
    unfold number
    rw [bind_apply_ok run₁]
    cases hr : r with
    | nil =>
      obtain ⟨c₂, run₂, r₂, d₂⟩ := peek_end (r₁.trans hr) d₁
      exact ⟨c₂, r₂, d₂, bind_apply_ok run₂⟩
    | cons ch t =>
      obtain ⟨c₂, run₂, r₂, d₂⟩ := peek_gives (r₁.trans hr) d₁
      have other : isDigit ch = false := ends.not_digit ch (by simp [hr])
      refine ⟨c₂, r₂, d₂, ?_⟩
      simp only
      rw [bind_apply_ok run₂]
      simp [other]
  · -- a positive number starts with a digit other than `0`
    obtain ⟨ch, more, eq, lead⟩ := toDigits_lead pos
    rw [eq] at h digits value
    obtain ⟨c₁, run₁, r₁, d₁⟩ := next_gives h depth
    have digit : isDigit ch = true := digits ch (by simp)
    obtain ⟨c₂, run₂, r₂, d₂⟩ :=
      digits_gives r₁ (fun x mem => digits x (by simp [mem])) ends.not_digit d₁
    refine ⟨c₂, r₂, d₂, ?_⟩
    unfold number
    rw [bind_apply_ok run₁]
    simp only [digit, Bool.not_true, Bool.false_eq_true, if_false]
    rw [bind_apply_ok run₂]
    simp only [decimal_cons, Nat.zero_mul, Nat.zero_add] at value
    rw [foldl_significand ?_ more _ 0 (by rw [value]; exact fits)]
    · simp [value]
    · intro v k x small
      simp [Nat.not_lt.mpr small]

/-- An unsigned number below `2 ^ 64` reads back from its digits. -/
theorem number_unsigned {k : Nat} (fits : k ≤ wordMax) (h : c.rest = Nat.toDigits 10 k ++ r)
    (ends : Closes r) (depth : c.depth = d) : (number false).Gives c (.uint k) r d := by
  obtain ⟨c₁, r₁, d₁, run⟩ := number_toDigits false fits h ends depth
  rw [← r₁] at ends
  exact Gives.of_eq run (r₁ ▸ numberTail_unsigned k ends d₁)

/-- A negative number down to `-2 ^ 63` reads back from the digits after its minus. -/
theorem number_negative {m : Nat} (pos : 0 < m) (small : m ≤ 2 ^ 63)
    (h : c.rest = Nat.toDigits 10 m ++ r) (ends : Closes r) (depth : c.depth = d) :
    (number true).Gives c (.sint (-(m : Int))) r d := by
  obtain ⟨c₁, r₁, d₁, run⟩ := number_toDigits true (by rw [wordMax_eq]; omega) h ends depth
  rw [← r₁] at ends
  exact Gives.of_eq run (r₁ ▸ numberTail_negative pos small ends d₁)

/-- The decimal digits of a number start with a digit. -/
theorem toDigits_cons (k : Nat) : ∃ ch more, Nat.toDigits 10 k = ch :: more ∧ isDigit ch = true := by
  obtain ⟨digits, -⟩ := toDigits_decimal k
  cases text : Nat.toDigits 10 k with
  | nil =>
    rw [toDigits_ten] at text
    split at text <;> simp at text
  | cons ch more => exact ⟨ch, more, rfl, digits ch (by simp [text])⟩

/-- The decimal text of a number is its digits. -/
theorem toString_toList (n : Nat) : (toString n).toList = Nat.toDigits 10 n := by
  simp [Nat.toString_eq_repr, Nat.repr_eq_ofList_toDigits]

/-- The loop of `String.Slice.isNat` over digits meets no separator and no other character: it
ends with whether it saw a digit. -/
theorem forIn_isNat_digits : ∀ (ds : List Char) (seen : Bool), (∀ ch ∈ ds, isDigit ch = true) →
    (forIn (m := Id) ds ((none : Option Bool), seen) fun c (s : Option Bool × Bool) =>
      if c = '_' then
        if (!s.snd) = true then pure (ForInStep.done (some false, s.snd))
        else pure (ForInStep.yield (none, false))
      else
        if c.isDigit = true then pure (ForInStep.yield (none, true))
        else pure (ForInStep.done (some false, s.snd))) = (none, seen || !ds.isEmpty)
  | [], seen, _ => by simp; rfl
  | ch :: ds, seen, all => by
    have digit : ch.isDigit = true := all ch List.mem_cons_self
    have under : ch ≠ '_' := by rintro rfl; simp at digit
    rw [List.forIn_cons]
    simp [under, digit]
    simpa using forIn_isNat_digits ds true fun x mem => all x (List.mem_cons_of_mem _ mem)

/-- The fold of `String.Slice.toNat?` over digits is their decimal value. -/
theorem foldl_toNat_digits : ∀ (ds : List Char) (v : Nat), (∀ ch ∈ ds, isDigit ch = true) →
    ds.foldl (fun n c => if c = '_' then n else n * 10 + (c.toNat - '0'.toNat)) v = decimal v ds
  | [], v, _ => rfl
  | ch :: ds, v, all => by
    have digit : isDigit ch = true := all ch List.mem_cons_self
    have under : ch ≠ '_' := by rintro rfl; simp [isDigit] at digit
    rw [List.foldl_cons, if_neg under, decimal_cons]
    exact foldl_toNat_digits ds _ fun x mem => all x (List.mem_cons_of_mem _ mem)

/-- The decimal text of a number reads back as the number. -/
theorem toNat?_toString (n : Nat) : (toString n).toNat? = some n := by
  obtain ⟨digits, value⟩ := toDigits_decimal n
  obtain ⟨ch, more, lead, -⟩ := toDigits_cons n
  unfold String.toNat? String.Slice.toNat? String.Slice.isNat
  simp only [String.Slice.forIn_eq_forIn_toList, String.Slice.foldl_eq_foldl_toList,
    String.copy_toSlice, toString_toList]
  rw [forIn_isNat_digits _ false digits, foldl_toNat_digits _ 0 digits, value, lead]
  rfl

/-- Numbers with the same decimal text are the same number. -/
theorem toString_injective {m n : Nat} (same : toString m = toString n) : m = n := by
  have readBack := toNat?_toString m
  rw [same, toNat?_toString n] at readBack
  exact (Option.some.inj readBack).symm

theorem apart_of_digit {ch x : Char} (digit : isDigit ch = true) (other : isDigit x = false) :
    ch ≠ x := by
  rintro rfl
  rw [digit] at other
  exact Bool.noConfusion other

theorem blank_of_digit {ch : Char} (digit : isDigit ch = true) : isBlank ch = false := by
  simp only [isBlank, Bool.or_eq_false_iff, decide_eq_false_iff_not]
  exact ⟨⟨⟨apart_of_digit digit (by decide), apart_of_digit digit (by decide)⟩,
    apart_of_digit digit (by decide)⟩, apart_of_digit digit (by decide)⟩

end Numbers

end Scan

end Campaign
