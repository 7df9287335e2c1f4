import Mathlib
import Campaign.Async.Context

/-! A context read off its lineage, the chain of derivations from the background: it is cancelled
exactly when a signal of a canceller on that chain is raised, and otherwise over once a deadline
on it has come. In a family of contexts made one after another, raising a canceller's signal
cancels exactly the contexts that descend from it.
-/

namespace Campaign

namespace Async

namespace Context

/-- A deadline leaves a context's signals as they are. -/
@[simp] theorem withDeadline_signals (cx : Context) (d : Nat) :
    (cx.withDeadline d).signals = cx.signals := by
  unfold withDeadline
  split
  · split <;> rfl
  · rfl

end Context

/-- How a context was derived from the background context. -/
inductive Lineage where
  | background
  /-- A child with a canceller, whose signal is `signal`. -/
  | withCancel (parent : Lineage) (signal : Nat)
  /-- A child that is over at `deadline`, or at its parent's deadline if that is earlier. -/
  | withDeadline (parent : Lineage) (deadline : Nat)
  deriving DecidableEq, Repr

namespace Lineage

/-- The context a lineage builds. -/
def context : Lineage → Context
  | .background => Context.background
  | .withCancel p s => p.context.withSignal s
  | .withDeadline p d => p.context.withDeadline d

/-- The signals of the cancellers made along a lineage, oldest first. -/
def cancellers : Lineage → List Nat
  | .background => []
  | .withCancel p s => p.cancellers ++ [s]
  | .withDeadline p _ => p.cancellers

/-- The deadlines set along a lineage, latest first. -/
def deadlines : Lineage → List Nat
  | .background => []
  | .withCancel p _ => p.deadlines
  | .withDeadline p d => d :: p.deadlines

/-- Why a context of this lineage is done, read off the lineage: cancelled when the signal of
a canceller on it is raised, else over when one of its deadlines has come. -/
def reason (l : Lineage) (raised : Nat → Bool) (now : Nat) : Option Cancelled :=
  if l.cancellers.any raised then some .cancelled
  else if l.deadlines.any (· ≤ now) then some .deadlineExceeded
  else none

@[simp] theorem context_background : background.context = Context.background := rfl

@[simp] theorem context_withCancel (p : Lineage) (s : Nat) :
    (withCancel p s).context = p.context.withSignal s := rfl

@[simp] theorem context_withDeadline (p : Lineage) (d : Nat) :
    (withDeadline p d).context = p.context.withDeadline d := rfl

@[simp] theorem cancellers_background : background.cancellers = [] := rfl

@[simp] theorem cancellers_withCancel (p : Lineage) (s : Nat) :
    (withCancel p s).cancellers = p.cancellers ++ [s] := rfl

@[simp] theorem cancellers_withDeadline (p : Lineage) (d : Nat) :
    (withDeadline p d).cancellers = p.cancellers := rfl

@[simp] theorem deadlines_background : background.deadlines = [] := rfl

@[simp] theorem deadlines_withCancel (p : Lineage) (s : Nat) :
    (withCancel p s).deadlines = p.deadlines := rfl

@[simp] theorem deadlines_withDeadline (p : Lineage) (d : Nat) :
    (withDeadline p d).deadlines = d :: p.deadlines := rfl

/-- A context holds the signals of the cancellers of its lineage, in the order they were
made. -/
theorem context_signals (l : Lineage) : l.context.signals = l.cancellers := by
  induction l with
  | background => rfl
  | withCancel p s ih => simp [Context.withSignal, ih]
  | withDeadline p d ih => simp [ih]

/-- The deadline a child keeps is the earlier of its own and its parent's. -/
theorem withDeadline_deadline (cx : Context) (d : Nat) :
    (cx.withDeadline d).deadline = some (cx.deadline.elim d (min d)) := by
  unfold Context.withDeadline
  cases h : cx.deadline with
  | none => simp
  | some c =>
    by_cases hc : c ≤ d
    · simp [hc, h]
    · simp [hc, Nat.min_eq_left (Nat.le_of_lt (Nat.lt_of_not_le hc))]

/-- A context's deadline is the earliest deadline of its lineage. -/
theorem context_deadline (l : Lineage) : l.context.deadline = l.deadlines.min? := by
  induction l with
  | background => rfl
  | withCancel p s ih => simpa [Context.withSignal] using ih
  | withDeadline p d ih => simp [withDeadline_deadline, ih, List.min?_cons]

/-- The earliest of some deadlines has come exactly when one of them has. -/
theorem min?_le_iff {ds : List Nat} {m now : Nat} (h : ds.min? = some m) :
    m ≤ now ↔ ∃ d ∈ ds, d ≤ now := by
  obtain ⟨mem, least⟩ := List.min?_eq_some_iff.mp h
  constructor
  · intro hm
    exact ⟨m, mem, hm⟩
  · rintro ⟨d, hd, hle⟩
    exact Nat.le_trans (least d hd) hle

/-- Why a context is done is read off its lineage. -/
theorem err_context (l : Lineage) (raised : Nat → Bool) (now : Nat) :
    l.context.err raised now = l.reason raised now := by
  unfold Context.err reason
  rw [context_signals, context_deadline]
  by_cases hc : l.cancellers.any raised = true
  · simp [hc]
  · simp only [hc, Bool.false_eq_true, if_false]
    cases hm : l.deadlines.min? with
    | none =>
      have empty : l.deadlines = [] := List.min?_eq_none_iff.mp hm
      simp [empty]
    | some m =>
      have come : m ≤ now ↔ ∃ d ∈ l.deadlines, d ≤ now := min?_le_iff hm
      by_cases hle : m ≤ now
      · have : l.deadlines.any (· ≤ now) = true := by
          simpa [List.any_eq_true] using come.mp hle
        simp [hle, this]
      · have : l.deadlines.any (· ≤ now) = false := by
          simpa [List.any_eq_false] using fun d hd hd' => hle (come.mpr ⟨d, hd, hd'⟩)
        simp [hle, this]

/-- A context is cancelled exactly when the signal of a canceller on its lineage is raised. -/
theorem reason_eq_cancelled_iff {l : Lineage} {raised : Nat → Bool} {now : Nat} :
    l.reason raised now = some .cancelled ↔ ∃ x ∈ l.cancellers, raised x = true := by
  rw [← List.any_eq_true]
  unfold reason
  by_cases hc : l.cancellers.any raised = true
  · simp [hc]
  · simp only [hc, Bool.false_eq_true, if_false, iff_false]
    split <;> simp

/-- `m` descends from `l`: it is `l`, or is derived from a descendant of `l`. -/
inductive Descends (l : Lineage) : Lineage → Prop where
  | refl : Descends l l
  | cancel {m : Lineage} (s : Nat) : Descends l m → Descends l (.withCancel m s)
  | deadline {m : Lineage} (d : Nat) : Descends l m → Descends l (.withDeadline m d)

theorem descends_withCancel_iff {l m : Lineage} {s : Nat} :
    Descends l (.withCancel m s) ↔ l = .withCancel m s ∨ Descends l m := by
  constructor
  · intro h
    cases h with
    | refl => exact .inl rfl
    | cancel _ h => exact .inr h
  · rintro (rfl | h)
    · exact .refl
    · exact .cancel s h

theorem descends_withDeadline_iff {l m : Lineage} {d : Nat} :
    Descends l (.withDeadline m d) ↔ l = .withDeadline m d ∨ Descends l m := by
  constructor
  · intro h
    cases h with
    | refl => exact .inl rfl
    | deadline _ h => exact .inr h
  · rintro (rfl | h)
    · exact .refl
    · exact .deadline d h

theorem descends_background_iff {l : Lineage} : Descends l .background ↔ l = .background := by
  constructor
  · intro h
    cases h
    rfl
  · rintro rfl
    exact .refl

/-- A descendant holds the signals of its ancestor's cancellers, and more after them. -/
theorem Descends.cancellers_prefix {l m : Lineage} (h : Descends l m) :
    l.cancellers <+: m.cancellers := by
  induction h with
  | refl => exact List.prefix_refl _
  | cancel s _ ih => exact ih.trans (List.prefix_append _ _)
  | deadline d _ ih => exact ih

theorem Descends.mem_cancellers {l m : Lineage} (h : Descends l m) {s : Nat}
    (hs : s ∈ l.cancellers) : s ∈ m.cancellers :=
  h.cancellers_prefix.subset hs

/-- Lineages of contexts made one after another, the newest last: each from the background or
from a context made before it, and each canceller with a signal that no context made before it
holds. -/
inductive Family : List Lineage → Prop where
  | nil : Family []
  | cancel {ls : List Lineage} {p : Lineage} {s : Nat} :
      Family ls → (p = .background ∨ p ∈ ls) → (∀ m ∈ ls, s ∉ m.cancellers) →
      Family (ls ++ [.withCancel p s])
  | deadline {ls : List Lineage} {p : Lineage} (d : Nat) :
      Family ls → (p = .background ∨ p ∈ ls) → Family (ls ++ [.withDeadline p d])

/-- In a family, a context holds the signal of a canceller exactly when it descends from the
context that canceller was made with: the signal reaches every descendant and nothing else,
neither the parent nor a sibling. By induction on the family, the newest context being the only
new case. -/
theorem Family.mem_cancellers_iff {ls : List Lineage} (fam : Family ls) {p : Lineage} {s : Nat}
    (hc : .withCancel p s ∈ ls) {m : Lineage} (hm : m ∈ ls) :
    s ∈ m.cancellers ↔ Descends (.withCancel p s) m := by
  induction fam generalizing m with
  | nil => simp at hm
  | @cancel ls q t fam hq fresh ih =>
    -- the statement for an older canceller and a context of the parent's lineage
    have old : ∀ {n}, n = .background ∨ n ∈ ls → .withCancel p s ∈ ls →
        (s ∈ n.cancellers ↔ Descends (.withCancel p s) n) := by
      rintro n (rfl | hn) hc'
      · simp [descends_background_iff]
      · exact ih hc' hn
    rcases List.mem_append.mp hc with hc' | hc'
    · have hst : s ≠ t := fun e => fresh _ hc' (by simp [e])
      rcases List.mem_append.mp hm with hm' | hm'
      · exact ih hc' hm'
      · obtain rfl := List.mem_singleton.mp hm'
        have hne : (Lineage.withCancel p s) ≠ .withCancel q t := fun e => hst (by cases e; rfl)
        simp [descends_withCancel_iff, hne, hst, old hq hc']
    · obtain ⟨rfl, rfl⟩ : p = q ∧ s = t := by
        have e := List.mem_singleton.mp hc'
        cases e
        exact ⟨rfl, rfl⟩
      rcases List.mem_append.mp hm with hm' | hm'
      · have hs : s ∉ m.cancellers := fresh m hm'
        refine ⟨fun h => absurd h hs, fun h => absurd (h.mem_cancellers (by simp)) hs⟩
      · obtain rfl := List.mem_singleton.mp hm'
        exact ⟨fun _ => .refl, fun _ => by simp⟩
  | @deadline ls q d fam hq ih =>
    rcases List.mem_append.mp hc with hc' | hc'
    · rcases List.mem_append.mp hm with hm' | hm'
      · exact ih hc' hm'
      · obtain rfl := List.mem_singleton.mp hm'
        have hne : (Lineage.withCancel p s) ≠ .withDeadline q d := by simp
        rcases hq with rfl | hq
        · simp [descends_withDeadline_iff, descends_background_iff]
        · simp [descends_withDeadline_iff, hne, ih hc' hq]
    · simp at hc'

end Lineage

namespace Context

/-- Once a context is done it stays done as signals are raised and the clock moves on, and a
cancelled one stays cancelled: the reason can only change from the deadline to a
cancellation. -/
theorem err_mono {cx : Context} {raised raised' : Nat → Bool} {now now' : Nat}
    (hr : ∀ s, raised s = true → raised' s = true) (hn : now ≤ now') {r : Cancelled}
    (h : cx.err raised now = some r) :
    ∃ r', cx.err raised' now' = some r' ∧ (r = .cancelled → r' = .cancelled) := by
  unfold err at h ⊢
  by_cases hc : cx.signals.any raised = true
  · have hc' : cx.signals.any raised' = true := by
      obtain ⟨s, hs, hrs⟩ := List.any_eq_true.mp hc
      exact List.any_eq_true.mpr ⟨s, hs, hr s hrs⟩
    simp [hc']
  · simp only [hc, Bool.false_eq_true, if_false] at h
    by_cases hc' : cx.signals.any raised' = true
    · simp [hc']
    · simp only [hc', Bool.false_eq_true, if_false]
      cases hd : cx.deadline with
      | none => simp [hd] at h
      | some d =>
        simp only [hd] at h ⊢
        split at h
        · cases h
          have : d ≤ now' := by omega
          simp [this]
        · cases h

/-- A child with deadline `d` is done when its parent is, for the parent's reason, and
otherwise once `d` has come. -/
theorem err_withDeadline (cx : Context) (d : Nat) (raised : Nat → Bool) (now : Nat) :
    (cx.withDeadline d).err raised now =
      (cx.err raised now).or (if d ≤ now then some .deadlineExceeded else none) := by
  unfold err
  rw [withDeadline_signals, Lineage.withDeadline_deadline]
  by_cases cancelled : cx.signals.any raised = true
  · simp [cancelled]
  · cases deadline : cx.deadline with
    | none => by_cases come : d ≤ now <;> simp [cancelled, come]
    | some c =>
      -- the earlier of the two deadlines has come once either has
      have earlier : min d c ≤ now ↔ c ≤ now ∨ d ≤ now := by omega
      by_cases passed : c ≤ now <;> simp [cancelled, earlier, passed]

end Context

end Async

end Campaign
