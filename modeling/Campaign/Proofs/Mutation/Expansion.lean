import Campaign.Mutation.Automator
import Campaign.Proofs.Plan.Wire

/-! A range expands through its first and last mutant, and its size is counted apart; the two agree
on every range (`Range.mutants_eq`). A configuration holds as many mutants as its ranges
together (`Config.length_mutants`), and its automator is built exactly when that count is
positive.
-/

namespace Campaign

namespace Mutation

namespace Range

@[simp] theorem length_inclusive (first last : Nat) :
    (inclusive first last).length = last + 1 - first := List.length_range'

/-- The bounds span the size: the last mutant less the first, plus one, is the end less the
start, or one for a range without an end. -/
theorem span_bounds (r : Range) : r.bounds.2 + 1 - r.bounds.1 = r.len := by
  unfold bounds len
  cases r.stop with
  | none => simp
  | some e =>
    by_cases above : e > r.start
    · simp only [above, if_true]
      omega
    · simp only [above, if_false]
      omega

/-- A range that holds a mutant starts its expansion at its start; only the empty range has the
made-up first bound. -/
theorem bounds_first (r : Range) (held : 0 < r.len) : r.bounds.1 = r.start := by
  unfold bounds
  cases stop : r.stop with
  | none => rfl
  | some e =>
    have above : e > r.start := by
      simp only [len, stop] at held
      omega
    simp [above]

/-- The expansion is the size's worth of numbers from the start up. -/
theorem mutants_eq (r : Range) : r.mutants = (List.range' r.start r.len).map Mutant.mk := by
  unfold mutants inclusive
  rw [span_bounds]
  rcases Nat.eq_zero_or_pos r.len with empty | held
  · simp [empty]
  · rw [bounds_first r held]

@[simp] theorem length_mutants (r : Range) : r.mutants.length = r.len := by
  simp [mutants_eq]

/-- A well-formed range ends at most at `2 ^ 64`: its size never runs past the words. -/
theorem start_add_len_le (r : Range) (fits : r.WellFormed) : r.start + r.len ≤ 2 ^ 64 := by
  obtain ⟨start_fits, stop_fits⟩ := fits
  unfold len
  cases stop : r.stop with
  | none =>
    show r.start + 1 ≤ 2 ^ 64
    omega
  | some e =>
    have end_fits : e < 2 ^ 64 := stop_fits e stop
    show r.start + (e - r.start) ≤ 2 ^ 64
    omega

/-- Every mutant a well-formed range expands to is a word. -/
theorem mutants_fit (r : Range) (fits : r.WellFormed) : ∀ m ∈ r.mutants, m.id < 2 ^ 64 := by
  intro m mem
  rw [mutants_eq] at mem
  obtain ⟨n, listed, rfl⟩ := List.mem_map.mp mem
  have below : n < r.start + r.len := (List.mem_range'_1.mp listed).2
  have bound := start_add_len_le r fits
  show n < 2 ^ 64
  omega

/-- The first mutants an answer shows are the first ones of the expansion. -/
theorem firstMutants_eq_take (r : Range) (count : Nat) :
    r.firstMutants count = r.mutants.take count := by
  rw [firstMutants, mutants_eq, ← List.map_take]
  by_cases within : count ≤ r.len
  · rw [List.take_range'_of_length_ge within, Nat.min_eq_left within]
  · rw [List.take_range'_of_length_le (by omega), Nat.min_eq_right (by omega)]

end Range

/-- The count of a configuration adds up its ranges' sizes. -/
theorem Config.count_eq_sum (c : Config) : c.count = (c.ranges.map Range.len).sum := rfl

/-- A configuration holds as many mutants as its ranges together. -/
@[simp] theorem Config.length_mutants (c : Config) : c.mutants.length = c.count := by
  simp [Config.mutants, Config.count_eq_sum, List.length_flatMap]

/-- An automator cannot be built exactly when the ranges hold no mutant together. -/
theorem Automator.ofConfig_eq_error_iff (c : Config) :
    Automator.ofConfig c = .error .noMutants ↔ c.count = 0 := by
  rw [← Config.length_mutants, List.length_eq_zero_iff]
  unfold Automator.ofConfig
  cases c.mutants <;> simp

/-- Every range with word bounds expands to exactly its size's worth of mutants, its start and
the numbers after it: the start alone when there is no end, none when the end is not above the
start, and each of them a word, also when the start or the end is the largest word. A
configuration expands into its ranges' expansions one after the other, repeats kept, so it holds
as many mutants as its ranges' sizes add up to, and its automator fails for want of mutants
exactly when they add up to nothing. -/
theorem mutants_expand_by_length (r : Range) (fits : r.WellFormed) (c : Config) :
    (r.mutants = (List.range' r.start r.len).map Mutant.mk ∧ r.mutants.length = r.len ∧
      (r.stop = none → r.mutants = [⟨r.start⟩]) ∧
      (∀ e ∈ r.stop, e ≤ r.start → r.mutants = []) ∧
      ∀ m ∈ r.mutants, m.id < 2 ^ 64) ∧
    c.mutants = c.ranges.flatMap (fun r => (List.range' r.start r.len).map Mutant.mk) ∧
      c.mutants.length = (c.ranges.map Range.len).sum ∧
      (Automator.ofConfig c = .error .noMutants ↔ (c.ranges.map Range.len).sum = 0) := by
  have single : r.stop = none → r.mutants = [⟨r.start⟩] := by
    intro open_ended
    simp [r.mutants_eq, Range.len, open_ended]
  have empty : ∀ e ∈ r.stop, e ≤ r.start → r.mutants = [] := by
    intro e stop below
    have none_held : r.len = 0 := by
      simp only [Range.len, Option.mem_def.mp stop]
      omega
    simp [r.mutants_eq, none_held]
  refine ⟨⟨r.mutants_eq, r.length_mutants, single, empty, r.mutants_fit fits⟩, ?_, ?_, ?_⟩
  · exact congrArg (fun expand => c.ranges.flatMap expand) (funext Range.mutants_eq)
  · rw [c.length_mutants, c.count_eq_sum]
  · rw [Automator.ofConfig_eq_error_iff c, c.count_eq_sum]

/-- The range from the largest word up to itself, which holds nothing. -/
def topWordRange : Range := ⟨2 ^ 64 - 1, some (2 ^ 64 - 1)⟩

/-- The configuration of the largest word alone. -/
def topWordConfig : Config := { ranges := [⟨2 ^ 64 - 1, none⟩] }

theorem mutants_expand_by_length_topWord :
    topWordRange.WellFormed ∧
      ((topWordRange.mutants = (List.range' topWordRange.start topWordRange.len).map Mutant.mk ∧
          topWordRange.mutants.length = topWordRange.len ∧
          (topWordRange.stop = none → topWordRange.mutants = [⟨topWordRange.start⟩]) ∧
          (∀ e ∈ topWordRange.stop, e ≤ topWordRange.start → topWordRange.mutants = []) ∧
          ∀ m ∈ topWordRange.mutants, m.id < 2 ^ 64) ∧
        topWordConfig.mutants =
            topWordConfig.ranges.flatMap (fun r => (List.range' r.start r.len).map Mutant.mk) ∧
          topWordConfig.mutants.length = (topWordConfig.ranges.map Range.len).sum ∧
          (Automator.ofConfig topWordConfig = .error .noMutants ↔
            (topWordConfig.ranges.map Range.len).sum = 0)) :=
  ⟨by decide, mutants_expand_by_length topWordRange (by decide) topWordConfig⟩

end Mutation

end Campaign
