import Campaign.Error.Cause

/-! A context is the scope work runs in: the signals that cancel it and the deadline after which
it is over. A child inherits every signal of its parent and keeps the earlier deadline, so
cancelling a parent reaches every descendant; a raised signal is read before a passed deadline.
-/

namespace Campaign

namespace Async

/-- A cancellation scope: the signals that cancel it and its deadline. -/
structure Context where
  signals : List Nat := []
  deadline : Option Nat := none
  deriving DecidableEq, Repr, Inhabited

namespace Context

/-- The root context: never cancelled, without deadline. -/
def background : Context := {}

/-- A child that signal `s` also cancels. -/
def withSignal (cx : Context) (s : Nat) : Context :=
  { cx with signals := cx.signals ++ [s] }

/-- A child whose deadline is the earlier of `d` and the parent's. -/
def withDeadline (cx : Context) (d : Nat) : Context :=
  match cx.deadline with
  | some current => if current ≤ d then cx else { cx with deadline := some d }
  | none => { cx with deadline := some d }

/-- Why the context is done at time `now`, when signals are raised as `raised` says. -/
def err (cx : Context) (raised : Nat → Bool) (now : Nat) : Option Cancelled :=
  if cx.signals.any raised then some .cancelled
  else match cx.deadline with
    | some d => if d ≤ now then some .deadlineExceeded else none
    | none => none

/-- A child keeps the earlier deadline. -/
theorem withDeadline_deadline_le (cx : Context) (d : Nat) :
    ∀ e, (cx.withDeadline d).deadline = some e → e ≤ d := by
  intro e h
  unfold withDeadline at h
  cases hc : cx.deadline with
  | none => simp [hc] at h; omega
  | some c =>
    simp only [hc] at h
    split at h
    · simp [hc] at h; omega
    · simp at h; omega

end Context

end Async

end Campaign
