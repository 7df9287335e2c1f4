import Campaign.Proofs.Async.Cancellation
import Campaign.Mutation.Run

/-! Once its context is done, the automator's loop and its offers, whose waits put the context
first, end at their next turn (`step_rotationLoop_done`, `step_offerMutant_done`). Draining the
kill input ignores the context, and on an input with no sender left it ends within its turn
(`step_drainKills`).
-/

namespace Campaign

namespace Async

namespace Proc

variable {ω ν : Type}

theorem bind_eq {α β : Type} (p : Proc ω ν α) (f : α → Proc ω ν β) : p >>= f = p.bind f := rfl

theorem pure_eq {α : Type} (a : α) : (Pure.pure a : Proc ω ν α) = .pure a := rfl

end Proc

namespace Scheduler

variable {ω ν : Type}

/-- The items of channel `ch` and the number of its senders, if the channel exists. -/
def lineOf (s : Scheduler ω ν) (ch : Nat) : Option (List ν × Nat) :=
  s.channels[ch]?.map fun c => (c.items, c.senders)

theorem lineOf_eq_some {s : Scheduler ω ν} {ch : Nat} {items : List ν} {n : Nat} :
    s.lineOf ch = some (items, n)
      ↔ ∃ c, s.channels[ch]? = some c ∧ c.items = items ∧ c.senders = n := by
  simp [lineOf, Option.map_eq_some_iff]

/-- `s'` holds the items and has the senders of every channel of `s`. -/
def KeepsLines (s s' : Scheduler ω ν) : Prop :=
  ∀ ch, s'.lineOf ch = s.lineOf ch

theorem KeepsLines.refl (s : Scheduler ω ν) : KeepsLines s s := fun _ => rfl

theorem KeepsLines.trans {s₁ s₂ s₃ : Scheduler ω ν} (h₁ : KeepsLines s₁ s₂)
    (h₂ : KeepsLines s₂ s₃) : KeepsLines s₁ s₃ :=
  fun ch => (h₂ ch).trans (h₁ ch)

/-- A fold of steps that keep every channel's items and senders keeps them. -/
theorem keepsLines_foldl {α : Type} {f : Scheduler ω ν → α → Scheduler ω ν}
    (hf : ∀ s a, KeepsLines s (f s a)) :
    ∀ (xs : List α) (s : Scheduler ω ν), KeepsLines s (xs.foldl f s)
  | [], s => .refl s
  | a :: xs, s => (hf s a).trans (keepsLines_foldl hf xs (f s a))

section Keeps

variable (s : Scheduler ω ν)

theorem keepsLines_setFiber (t : Nat) (f : Fiber ω ν → Fiber ω ν) :
    KeepsLines s (s.setFiber t f) :=
  fun _ => rfl

/-- Changing a channel's bookkeeping keeps its items and its senders. -/
theorem keepsLines_setChannel {ch : Nat} {f : Channel ν → Channel ν}
    (keeps : ∀ c, (f c).items = c.items ∧ (f c).senders = c.senders) :
    KeepsLines s (s.setChannel ch f) := by
  intro ch'
  simp only [lineOf, setChannel, Array.getElem?_modify]
  split
  · cases s.channels[ch']? <;> simp [keeps]
  · rfl

theorem keepsLines_wake (t : Nat) : KeepsLines s (s.wake t) := by
  unfold wake
  repeat' split
  all_goals exact fun _ => rfl

/-- Handing a permit on, or back, changes no channel's items or senders. -/
theorem keepsLines_release (ch : Nat) : KeepsLines s (s.release ch) := by
  unfold release
  split
  · split
    · refine KeepsLines.trans ?_ (keepsLines_wake _ _)
      exact keepsLines_setChannel _ fun _ => ⟨rfl, rfl⟩
    · exact keepsLines_setChannel _ fun _ => ⟨rfl, rfl⟩
  · exact .refl s

theorem keepsLines_leaveLine (t ch : Nat) : KeepsLines s (s.leaveLine t ch) := by
  unfold leaveLine
  split
  · split
    · refine KeepsLines.trans ?_ (keepsLines_release _ _)
      exact keepsLines_setChannel _ fun _ => ⟨rfl, rfl⟩
    · exact keepsLines_setChannel _ fun _ => ⟨rfl, rfl⟩
  · exact .refl s

theorem keepsLines_disarm (t : Nat) (w : Wait ν) : KeepsLines s (s.disarm t w) := by
  cases w with
  | recv ch =>
    refine keepsLines_setChannel _ fun c => ?_
    split <;> exact ⟨rfl, rfl⟩
  | send ch v => exact keepsLines_leaveLine _ _ _
  | done cx =>
    apply keepsLines_foldl
    intro _ _ _
    rfl
  | join task => exact keepsLines_setFiber _ _ _
  | timer | sleepUntil | file | yield | never => exact .refl s

/-- Disarming a wait, and dropping the timers it owned, keeps every channel's items and
senders. -/
theorem keepsLines_disarmAll (t : Nat) (ws : List (Wait ν)) (owned : List (Nat × Nat)) :
    KeepsLines s (s.disarmAll t ws owned) := by
  refine (keepsLines_foldl (fun s w => keepsLines_disarm s t w) ws s).trans ?_
  -- dropping the timers the wait owned touches no channel
  apply keepsLines_foldl
  intros
  exact fun _ => rfl

end Keeps

/-- A context that a raised signal cancels is cancelled. -/
theorem errOf_withSignal {s : Scheduler ω ν} {sig : Nat} (raised : s.isRaised sig = true)
    (cx : Context) : s.errOf (cx.withSignal sig) = some .cancelled := by
  simp [errOf, Context.err, Context.withSignal, raised]

end Scheduler

end Async

namespace Mutation

open Async Scheduler

variable {ω ν : Type}

/-! ## The loop and the offers, once the context is done -/

section Done

variable {w : Wiring} {s : Scheduler ω ν} {r : Cancelled}

/-- Once the automator's context is done, an offer given a turn gives up at once. -/
theorem step_offerMutant_done (done : s.errOf w.cx = some r) (t fuel : Nat) (item : Mutant → ν)
    (m : Mutant) (f : Bool → Proc ω ν ν) (owned : List (Nat × Nat)) :
    s.step t (fuel + 1) ((offerMutant w item m).bind f) owned
      = (s.disarmAll t [.done w.cx, .send w.out (item m)] owned).step t fuel (f false) [] := by
  simp only [offerMutant, Proc.select, Proc.bind_eq, Proc.bind]
  exact step_await_done_first done

/-- Once the automator's context is done, its loop given a turn returns its kill input at
once, whatever it waits for besides: a kill, a tick, or nothing. -/
theorem step_rotationLoop_done (done : s.errOf w.cx = some r) (t fuel : Nat)
    (item : Mutant → ν) (period : Option Nat) (n : Nat) (a : Automator) (kills : Option Nat)
    (ticker : Option Ticker) (f : Option Nat → Proc ω ν ν) (owned : List (Nat × Nat)) :
    ∃ ws, s.step t (fuel + 1) ((rotationLoop w item period (n + 1) a kills ticker).bind f) owned
      = (s.disarmAll t (.done w.cx :: ws) owned).step t fuel (f kills) [] := by
  simp only [rotationLoop, Proc.select, Proc.bind_eq, Proc.bind]
  exact ⟨_, step_await_done_first done⟩

end Done

/-! ## Draining a kill input with no sender left -/

/-- A receive on a channel with no sender left takes its first item, and the channel keeps the
rest and still has no sender; a receive on one left empty finds its end. -/
theorem probe_recv_senderless {s : Scheduler ω ν} {k : Nat} {items : List ν} (t : Nat)
    (line : s.lineOf k = some (items, 0)) :
    match items with
    | [] => s.probe t (.recv k) = some (.received none, s)
    | v :: rest => ∃ s', s.probe t (.recv k) = some (.received (some v), s')
        ∧ s'.lineOf k = some (rest, 0) := by
  obtain ⟨c, found, held, none_left⟩ := lineOf_eq_some.mp line
  cases items with
  | nil => simp [probe, found, held, none_left]
  | cons v rest =>
    refine ⟨(s.setChannel k fun c => { c with items := rest }).release k,
      by simp [probe, found, held], ?_⟩
    -- taking the item leaves the rest; handing the permit on changes neither items nor senders
    rw [keepsLines_release _ k k]
    simp [lineOf, setChannel, Array.getElem?_modify, found, none_left]

/-- The drain given a turn on a kill input with no sender left takes the items left, one
receive each, and ends within the turn with the channel empty, by induction on the items. -/
theorem step_drainKills (t k : Nat) (f : Unit → Proc ω ν ν) :
    ∀ (items : List ν) (n fuel : Nat) (s : Scheduler ω ν) (owned : List (Nat × Nat)),
      s.lineOf k = some (items, 0) → items.length < n →
      ∃ s' : Scheduler ω ν, s'.lineOf k = some ([], 0)
        ∧ s.step t (fuel + items.length + 1) ((drainKills k n).bind f) owned
          = s'.step t fuel (f ()) []
  | _, 0, _, _, _, _, enough => absurd enough (Nat.not_lt_zero _)
  | [], n + 1, fuel, s, owned, line, _ => by
    have ended := probe_recv_senderless t line
    refine ⟨s.disarmAll t [.recv k] owned, (keepsLines_disarmAll s t _ owned k).trans line, ?_⟩
    simp [drainKills, Proc.recv, Proc.wait, Proc.bind_eq, Proc.pure_eq, Proc.bind, step,
      probeAll, ended]
  | v :: rest, n + 1, fuel, s, owned, line, enough => by
    obtain ⟨s₁, taken, line₁⟩ := probe_recv_senderless t line
    have line₂ : (s₁.disarmAll t [.recv k] owned).lineOf k = some (rest, 0) :=
      (keepsLines_disarmAll s₁ t _ owned k).trans line₁
    obtain ⟨s', drained, steps⟩ := step_drainKills t k f rest n fuel _ [] line₂
      (by simp only [List.length_cons] at enough; omega)
    refine ⟨s', drained, ?_⟩
    rw [← steps, show fuel + (v :: rest).length + 1 = fuel + rest.length + 1 + 1 by
      simp only [List.length_cons]; omega]
    simp [drainKills, Proc.recv, Proc.wait, Proc.bind_eq, Proc.pure_eq, Proc.bind, step,
      probeAll, taken]

/-! ## How the automator stops -/

/-- How the automator wired as `w`, with kill input `k`, stops on the scheduler. Once its
context is done, its loop given a turn returns its kill input at once, and an offer gives up at
once. Once `k` has no sender left, its drain given a turn takes the items left and ends within
the turn. -/
structure Wiring.Stops (ω ν : Type) (w : Wiring) (k : Nat) : Prop where
  loop : ∀ (s : Scheduler ω ν) (r : Cancelled), s.errOf w.cx = some r →
    ∀ (t fuel : Nat) (item : Mutant → ν) (period : Option Nat) (n : Nat) (a : Automator)
      (kills : Option Nat) (ticker : Option Ticker) (f : Option Nat → Proc ω ν ν)
      (owned : List (Nat × Nat)),
    ∃ ws, s.step t (fuel + 1) ((rotationLoop w item period (n + 1) a kills ticker).bind f) owned
      = (s.disarmAll t (.done w.cx :: ws) owned).step t fuel (f kills) []
  offer : ∀ (s : Scheduler ω ν) (r : Cancelled), s.errOf w.cx = some r →
    ∀ (t fuel : Nat) (item : Mutant → ν) (m : Mutant) (f : Bool → Proc ω ν ν)
      (owned : List (Nat × Nat)),
    s.step t (fuel + 1) ((offerMutant w item m).bind f) owned
      = (s.disarmAll t [.done w.cx, .send w.out (item m)] owned).step t fuel (f false) []
  drain : ∀ (t : Nat) (f : Unit → Proc ω ν ν) (items : List ν) (n fuel : Nat)
      (s : Scheduler ω ν) (owned : List (Nat × Nat)),
    s.lineOf k = some (items, 0) → items.length < n →
    ∃ s' : Scheduler ω ν, s'.lineOf k = some ([], 0)
      ∧ s.step t (fuel + items.length + 1) ((drainKills k n).bind f) owned
        = s'.step t fuel (f ()) []

/-- Every automator stops so, whatever its wiring. -/
theorem Wiring.stops (w : Wiring) (k : Nat) : w.Stops ω ν k where
  loop _ _ done := step_rotationLoop_done done
  offer _ _ done := step_offerMutant_done done
  drain t := step_drainKills t k

end Mutation

end Campaign
