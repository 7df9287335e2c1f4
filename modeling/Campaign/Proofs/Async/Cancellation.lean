import Campaign.Proofs.Async.Lineage
import Campaign.Async.Scheduler

/-! Nothing the scheduler does lowers a signal or turns the clock back (`Scheduler.Later`), so a
context that is done stays done. What answering an order and ending a wait can change is said
once (`answer_keepsTime`, `probe_cases`), for this and for the timers' invariant.
-/

namespace Campaign

namespace Async

namespace Scheduler

variable {ω ν : Type}

/-- `s'` has the signals and the clock of `s`. -/
structure Still (s s' : Scheduler ω ν) : Prop where
  signals : s'.signals = s.signals
  clock : s'.now = s.now

/-- `s'` comes no earlier than `s`: every signal raised in `s` is raised in `s'`, and the
clock has not gone back. -/
structure Later (s s' : Scheduler ω ν) : Prop where
  raised : ∀ sig, s.isRaised sig = true → s'.isRaised sig = true
  clock : s.now ≤ s'.now

theorem Still.refl (s : Scheduler ω ν) : Still s s := ⟨rfl, rfl⟩

theorem Still.trans {s₁ s₂ s₃ : Scheduler ω ν} (h₁ : Still s₁ s₂) (h₂ : Still s₂ s₃) :
    Still s₁ s₃ :=
  ⟨h₂.signals.trans h₁.signals, h₂.clock.trans h₁.clock⟩

theorem Still.isRaised {s s' : Scheduler ω ν} (h : Still s s') : s'.isRaised = s.isRaised := by
  funext sig
  simp [Scheduler.isRaised, h.signals]

theorem Later.refl (s : Scheduler ω ν) : Later s s := ⟨fun _ h => h, Nat.le_refl _⟩

theorem Later.trans {s₁ s₂ s₃ : Scheduler ω ν} (h₁ : Later s₁ s₂) (h₂ : Later s₂ s₃) :
    Later s₁ s₃ :=
  ⟨fun sig h => h₂.raised sig (h₁.raised sig h), Nat.le_trans h₁.clock h₂.clock⟩

theorem Still.later {s s' : Scheduler ω ν} (h : Still s s') : Later s s' :=
  ⟨fun sig hr => by rw [h.isRaised]; exact hr, Nat.le_of_eq h.clock.symm⟩

/-- A fold of steps that keep the signals and the clock keeps them. -/
theorem still_foldl {α : Type} {f : Scheduler ω ν → α → Scheduler ω ν}
    (hf : ∀ s a, Still s (f s a)) : ∀ (xs : List α) (s : Scheduler ω ν), Still s (xs.foldl f s)
  | [], s => .refl s
  | a :: xs, s => (hf s a).trans (still_foldl hf xs (f s a))

/-- A fold of steps that come no earlier comes no earlier. -/
theorem later_foldl {α : Type} {f : Scheduler ω ν → α → Scheduler ω ν}
    (hf : ∀ s a, Later s (f s a)) : ∀ (xs : List α) (s : Scheduler ω ν), Later s (xs.foldl f s)
  | [], s => .refl s
  | a :: xs, s => (hf s a).trans (later_foldl hf xs (f s a))

/-- `s'` has the signals, the timers and the clock of `s`: nothing a context's end or a timer
reads has changed. Moving tasks along and changing what channels hold keep all three. -/
structure KeepsTime (s s' : Scheduler ω ν) : Prop where
  signals : s'.signals = s.signals
  timers : s'.timers = s.timers
  clock : s'.now = s.now

theorem KeepsTime.refl (s : Scheduler ω ν) : KeepsTime s s := ⟨rfl, rfl, rfl⟩

theorem KeepsTime.trans {s₁ s₂ s₃ : Scheduler ω ν} (h₁ : KeepsTime s₁ s₂)
    (h₂ : KeepsTime s₂ s₃) : KeepsTime s₁ s₃ :=
  ⟨h₂.signals.trans h₁.signals, h₂.timers.trans h₁.timers, h₂.clock.trans h₁.clock⟩

theorem KeepsTime.still {s s' : Scheduler ω ν} (h : KeepsTime s s') : Still s s' :=
  ⟨h.signals, h.clock⟩

/-- A fold of steps that keep the signals, the timers and the clock keeps them. -/
theorem keepsTime_foldl {α : Type} {f : Scheduler ω ν → α → Scheduler ω ν}
    (hf : ∀ s a, KeepsTime s (f s a)) :
    ∀ (xs : List α) (s : Scheduler ω ν), KeepsTime s (xs.foldl f s)
  | [], s => .refl s
  | a :: xs, s => (hf s a).trans (keepsTime_foldl hf xs (f s a))

/-! ### Steps that keep the signals, the timers and the clock -/

section KeepsTime

variable (s : Scheduler ω ν)

theorem keepsTime_setFiber (t : Nat) (f : Fiber ω ν → Fiber ω ν) :
    KeepsTime s (s.setFiber t f) :=
  ⟨rfl, rfl, rfl⟩

theorem keepsTime_setChannel (ch : Nat) (f : Channel ν → Channel ν) :
    KeepsTime s (s.setChannel ch f) :=
  ⟨rfl, rfl, rfl⟩

theorem keepsTime_wake (t : Nat) : KeepsTime s (s.wake t) := by
  unfold wake
  repeat' split
  all_goals exact ⟨rfl, rfl, rfl⟩

theorem keepsTime_wakeAll (ts : List Nat) : KeepsTime s (s.wakeAll ts) :=
  keepsTime_foldl (fun s t => keepsTime_wake s t) ts s

theorem keepsTime_wakeReader (ch : Nat) : KeepsTime s (s.wakeReader ch) := by
  unfold wakeReader
  split
  · exact (keepsTime_setChannel _ _ _).trans (keepsTime_wake _ _)
  · exact .refl s

theorem keepsTime_release (ch : Nat) : KeepsTime s (s.release ch) := by
  unfold release
  split
  · split
    · exact (keepsTime_setChannel _ _ _).trans (keepsTime_wake _ _)
    · exact keepsTime_setChannel _ _ _
  · exact .refl s

theorem keepsTime_push (ch : Nat) (v : ν) : KeepsTime s (s.push ch v) :=
  (keepsTime_setChannel _ _ _).trans (keepsTime_wakeReader _ _)

theorem keepsTime_leaveLine (t ch : Nat) : KeepsTime s (s.leaveLine t ch) := by
  unfold leaveLine
  split
  · split
    · exact (keepsTime_setChannel _ _ _).trans (keepsTime_release _ _)
    · exact keepsTime_setChannel _ _ _
  · exact .refl s

/-- Listening to the signals of a context only changes who listens. -/
theorem keepsTime_listen (t : Nat) (sigs : List Nat) :
    KeepsTime s (sigs.foldl (fun s sig =>
      { s with listeners := s.listeners.modify sig (enlist · t) }) s) := by
  apply keepsTime_foldl
  intros
  exact ⟨rfl, rfl, rfl⟩

theorem keepsTime_disarm (t : Nat) (w : Wait ν) : KeepsTime s (s.disarm t w) := by
  cases w with
  | done cx =>
    apply keepsTime_foldl
    intros
    exact ⟨rfl, rfl, rfl⟩
  | send ch v => exact keepsTime_leaveLine _ _ _
  | recv | join => exact ⟨rfl, rfl, rfl⟩
  | timer | sleepUntil | file | yield | never => exact .refl s

theorem keepsTime_finish (t : Nat) (o : Joined ν) : KeepsTime s (s.finish t o) := by
  unfold finish
  split
  · exact (keepsTime_setFiber _ _ _).trans (keepsTime_wakeAll _ _)
  · exact .refl s

theorem keepsTime_wakeDeferred : KeepsTime s s.wakeDeferred := by
  unfold wakeDeferred
  refine KeepsTime.trans ?_ (keepsTime_wakeAll _ _)
  have start : KeepsTime s { s with deferred := [] } := ⟨rfl, rfl, rfl⟩
  refine start.trans ?_
  apply keepsTime_foldl
  intros
  exact ⟨rfl, rfl, rfl⟩

theorem keepsTime_completeFiles : KeepsTime s s.completeFiles := by
  unfold completeFiles
  refine KeepsTime.trans ?_ (keepsTime_wakeAll _ _)
  have start : KeepsTime s { s with inFlight := [] } := ⟨rfl, rfl, rfl⟩
  refine start.trans ?_
  apply keepsTime_foldl
  intros
  exact ⟨rfl, rfl, rfl⟩

end KeepsTime

/-! ### Steps on timers that keep the signals and the clock -/

section Still

variable (s : Scheduler ω ν)

theorem still_setTimer (i : Nat) (f : Timer → Timer) : Still s (s.setTimer i f) := ⟨rfl, rfl⟩

theorem still_newTimer (deadline : Nat) : Still s (s.newTimer deadline).1 := ⟨rfl, rfl⟩

theorem still_armTimer (t i : Nat) : Still s (s.armTimer t i) := by
  unfold armTimer
  repeat' split
  all_goals exact ⟨rfl, rfl⟩

theorem still_armOwned (t j deadline : Nat) (owned : List (Nat × Nat)) :
    Still s (s.armOwned t j deadline owned).1 := by
  unfold armOwned
  split
  · exact still_armTimer _ _ _
  · exact (still_newTimer _ _).trans (still_armTimer _ _ _)

theorem still_arm (t : Nat) (owned : List (Nat × Nat)) (j : Nat) (w : Wait ν) :
    Still s (s.arm t owned j w).1 := by
  cases w with
  | done cx =>
    have listen := (keepsTime_listen s t cx.signals).still
    dsimp only [arm]
    split
    · exact listen.trans (still_armOwned _ _ _ _ _)
    · exact listen
  | timer i => exact still_armTimer _ _ _
  | sleepUntil d => exact still_armOwned _ _ _ _ _
  | file | yield =>
    dsimp only [arm]
    repeat' split
    all_goals exact ⟨rfl, rfl⟩
  | recv | send | join | never => exact ⟨rfl, rfl⟩

theorem still_armAll (t : Nat) : ∀ (owned : List (Nat × Nat)) (j : Nat) (ws : List (Wait ν))
    (s : Scheduler ω ν), Still s (s.armAll t owned j ws).1
  | _, _, [], s => .refl s
  | owned, j, w :: ws, s => (still_arm s t owned j w).trans (still_armAll t _ _ ws _)

theorem still_disarmAll (t : Nat) (ws : List (Wait ν)) (owned : List (Nat × Nat)) :
    Still s (s.disarmAll t ws owned) := by
  refine (keepsTime_foldl (fun s w => keepsTime_disarm s t w) ws s).still.trans ?_
  apply still_foldl
  intros
  exact ⟨rfl, rfl⟩

theorem still_park1 (t : Nat) (p : Proc ω ν ν) (ws : List (Wait ν))
    (owned : List (Nat × Nat)) : Still s (s.park1 t p ws owned) := by
  have armed := still_armAll t owned 0 ws s
  unfold park1
  generalize s.armAll t owned 0 ws = r at armed ⊢
  obtain ⟨s₁, owned₁⟩ := r
  dsimp only
  repeat' split
  all_goals exact armed.trans ⟨rfl, rfl⟩

theorem still_drop (t : Nat) : Still s (s.drop t) := by
  unfold drop
  split
  · rename_i f _
    -- what follows the clearing of a parked task's timers keeps what is still
    have rest : ∀ s₁ : Scheduler ω ν, Still s s₁ →
        Still s ({ s₁ with inFlight := s₁.inFlight.erase t, deferred := s₁.deferred.erase t }.finish
          t .aborted) := by
      intro s₁ still₁
      refine (still₁.trans ?_).trans (keepsTime_finish _ _ _).still
      exact ⟨rfl, rfl⟩
    apply rest
    split
    · exact still_disarmAll _ _ _ _
    · exact .refl s
  · exact .refl s

theorem still_fireDue : Still s s.fireDue := by
  unfold fireDue
  refine still_foldl (fun s e => ?_) _ s
  obtain ⟨_, _, i⟩ := e
  have fired := still_setTimer s i fun tm => { tm with fired := true }
  dsimp only
  generalize s.setTimer i (fun tm => { tm with fired := true }) = s₁ at fired ⊢
  split
  · exact fired.trans (keepsTime_wake _ _).still
  · exact fired

theorem still_pause : Still s s.pause := (still_fireDue s).trans (keepsTime_wakeDeferred _).still

end Still

/-! ### Steps that move forward -/

/-- A raised signal stays raised when another is raised. -/
theorem isRaised_raiseSignal (s : Scheduler ω ν) (sig i : Nat) :
    (s.raiseSignal sig).isRaised i = (s.isRaised i || (i = sig && decide (sig < s.signals.size))) := by
  unfold raiseSignal
  rw [(keepsTime_wakeAll _ _).still.isRaised]
  simp only [Scheduler.isRaised, Array.getD_eq_getD_getElem?, Array.getElem?_modify]
  by_cases hi : i = sig
  · subst hi
    by_cases hs : i < s.signals.size
    · simp [hs]
    · simp [hs]
  · simp [Ne.symm hi, hi]

/-- A new signal is not raised, and the signals made before keep their state. -/
theorem isRaised_newSignal (s : Scheduler ω ν) (i : Nat) :
    ({ s with signals := s.signals.push false, listeners := s.listeners.push [] } :
      Scheduler ω ν).isRaised i = s.isRaised i := by
  simp only [Scheduler.isRaised, Array.getD_eq_getD_getElem?, Array.getElem?_push]
  split
  · rename_i h
    subst h
    simp
  · rfl

/-- Whether an order changes the signals, the timers or the clock; no other order does
(`answer_keepsTime`). -/
def changesTime : Order ν → Bool
  | .advanceClock _ | .signal | .raise _ | .timer _ | .resetTimer .. | .dropTimer _ => true
  | _ => false

/-- Every order that does not change the signals, the timers or the clock keeps all three:
channels, fibers and the queue are all it touches. -/
theorem answer_keepsTime (s : Scheduler ω ν) (t : Nat) (o : Order ν)
    (quiet : changesTime o = false) : KeepsTime s (s.answer t o).1 := by
  cases o with
  | advanceClock | signal | raise | timer | resetTimer | dropTimer => cases quiet
  | dropSender ch =>
    dsimp only [answer]
    split
    · split
      · exact (keepsTime_setChannel _ _ _).trans (keepsTime_wakeReader _ _)
      · exact keepsTime_setChannel _ _ _
    · exact .refl s
  | dropReceiver ch =>
    dsimp only [answer]
    split
    · exact (keepsTime_setChannel _ _ _).trans (keepsTime_wakeAll _ _)
    · exact .refl s
  | offer ch v =>
    dsimp only [answer]
    split
    · split
      · exact .refl s
      · split
        · exact (keepsTime_setChannel _ _ _).trans (keepsTime_push _ _ _)
        · exact .refl s
    · exact .refl s
  | take ch =>
    dsimp only [answer]
    split
    · split
      · exact (keepsTime_setChannel _ _ _).trans (keepsTime_release _ _)
      · exact .refl s
    · exact .refl s
  | abort task =>
    dsimp only [answer]
    repeat' split
    all_goals exact ⟨rfl, rfl, rfl⟩
  | panic => exact keepsTime_finish s t .panicked
  | now | channel | cloneSender | isRaised | err => exact ⟨rfl, rfl, rfl⟩

/-- What answering an order does to the signals and the clock: `raise` raises a signal,
`signal` makes one, `advanceClock` moves the clock, and every other order keeps both. -/
theorem answer_cases (s : Scheduler ω ν) (t : Nat) (o : Order ν) :
    (∃ sig, o = .raise sig ∧ (s.answer t o).1 = s.raiseSignal sig) ∨
    (o = .signal ∧ (s.answer t o).1 =
      { s with signals := s.signals.push false, listeners := s.listeners.push [] }) ∨
    (∃ ms, o = .advanceClock ms ∧ (s.answer t o).1 = { s with now := s.now + ms }) ∨
    ((∀ sig, o ≠ .raise sig) ∧ Still s (s.answer t o).1) := by
  cases o with
  | raise sig => exact .inl ⟨sig, rfl, rfl⟩
  | signal => exact .inr (.inl ⟨rfl, rfl⟩)
  | advanceClock ms => exact .inr (.inr (.inl ⟨ms, rfl, rfl⟩))
  | resetTimer i d arm =>
    refine .inr (.inr (.inr ⟨by rintro _ ⟨⟩, ?_⟩))
    dsimp only [answer]
    split
    · exact (still_setTimer _ _ _).trans (still_armTimer _ _ _)
    · exact still_setTimer _ _ _
  | timer | dropTimer => exact .inr (.inr (.inr ⟨by rintro _ ⟨⟩, rfl, rfl⟩))
  | now | channel | cloneSender | dropSender | dropReceiver | offer | take | isRaised | abort
    | err | panic =>
    exact .inr (.inr (.inr ⟨by rintro _ ⟨⟩, (answer_keepsTime s t _ rfl).still⟩))

/-- Raising a signal keeps the clock. -/
theorem now_raiseSignal (s : Scheduler ω ν) (sig : Nat) : (s.raiseSignal sig).now = s.now := by
  unfold raiseSignal
  exact (keepsTime_wakeAll _ _).clock

/-- Among the orders a task gives, only `raise` raises a signal, and only one that was
made. -/
theorem isRaised_answer (s : Scheduler ω ν) (t : Nat) (o : Order ν) (i : Nat) :
    (s.answer t o).1.isRaised i = true
      ↔ s.isRaised i = true ∨ (o = .raise i ∧ i < s.signals.size) := by
  rcases answer_cases s t o with ⟨sig, rfl, h⟩ | ⟨rfl, h⟩ | ⟨ms, rfl, h⟩ | still
  · rw [h, isRaised_raiseSignal]
    by_cases hi : i = sig
    · subst hi
      simp
    · have hi' : sig ≠ i := Ne.symm hi
      simp [hi, hi']
  · rw [h, isRaised_newSignal]
    simp
  · rw [h]
    simp [Scheduler.isRaised]
  · rw [still.2.isRaised]
    constructor
    · exact .inl
    · rintro (h | ⟨rfl, _⟩)
      · exact h
      · exact absurd rfl (still.1 i)

theorem later_answer (s : Scheduler ω ν) (t : Nat) (o : Order ν) : Later s (s.answer t o).1 := by
  refine ⟨fun i hi => (isRaised_answer s t o i).mpr (.inl hi), ?_⟩
  rcases answer_cases s t o with ⟨sig, rfl, h⟩ | ⟨rfl, h⟩ | ⟨ms, rfl, h⟩ | still
  · have same : (s.answer t (.raise sig)).1.now = s.now := by rw [h, now_raiseSignal]
    exact Nat.le_of_eq same.symm
  · have same : (s.answer t .signal).1.now = s.now := by rw [h]
    exact Nat.le_of_eq same.symm
  · have moved : (s.answer t (.advanceClock ms)).1.now = s.now + ms := by rw [h]
    rw [moved]
    exact Nat.le_add_right _ _
  · exact Nat.le_of_eq still.2.clock.symm

/-! ### Waits -/

/-- What a wait that ends does to the scheduler: a branch on a timer marks that timer fired,
and ends only if the timer was marked or due; every other branch keeps the signals, the timers
and the clock. -/
theorem probe_cases {s s' : Scheduler ω ν} {t : Nat} {w : Wait ν} {r : Woke ν}
    (h : s.probe t w = some (r, s')) :
    ((∀ i, w ≠ .timer i) ∧ KeepsTime s s') ∨
    ∃ i tm, w = .timer i ∧ s.timers[i]? = some tm ∧ (tm.fired = true ∨ tm.deadline ≤ s.now) ∧
      s' = s.setTimer i ({ · with fired := true }) := by
  cases w with
  | timer i =>
    dsimp only [probe] at h
    split at h
    · rename_i tm found
      split at h
      · rename_i ready
        cases h
        exact .inr ⟨i, tm, rfl, found, by simpa using ready, rfl⟩
      · cases h
    · cases h
  | recv ch =>
    refine .inl ⟨by rintro _ ⟨⟩, ?_⟩
    dsimp only [probe] at h
    split at h
    · split at h
      · cases h
        exact (keepsTime_setChannel _ _ _).trans (keepsTime_release _ _)
      · split at h
        · cases h
          exact .refl s
        · cases h
    · cases h
      exact .refl s
  | send ch v =>
    refine .inl ⟨by rintro _ ⟨⟩, ?_⟩
    dsimp only [probe] at h
    split at h
    · split at h
      · cases h
        exact keepsTime_leaveLine _ _ _
      · split at h
        · cases h
          exact (keepsTime_setChannel _ _ _).trans (keepsTime_push _ _ _)
        · split at h
          · cases h
            exact (keepsTime_setChannel _ _ _).trans (keepsTime_push _ _ _)
          · cases h
    · cases h
      exact .refl s
  | sleepUntil d =>
    refine .inl ⟨by rintro _ ⟨⟩, ?_⟩
    dsimp only [probe] at h
    split at h
    · cases h
      exact .refl s
    · cases h
  | done cx =>
    refine .inl ⟨by rintro _ ⟨⟩, ?_⟩
    obtain ⟨_, _, same⟩ := Option.map_eq_some_iff.mp h
    cases same
    exact .refl s
  | join task =>
    refine .inl ⟨by rintro _ ⟨⟩, ?_⟩
    dsimp only [probe] at h
    split at h
    · obtain ⟨_, _, same⟩ := Option.map_eq_some_iff.mp h
      cases same
      exact .refl s
    · cases h
      exact .refl s
  | file | yield =>
    refine .inl ⟨by rintro _ ⟨⟩, ?_⟩
    dsimp only [probe] at h
    split at h
    · split at h
      · cases h
        exact keepsTime_setFiber _ _ _
      · cases h
    · cases h
  | never => cases h

/-- A wait that ends takes nothing from the signals and the clock. -/
theorem still_probe {s s' : Scheduler ω ν} {t : Nat} {w : Wait ν} {r : Woke ν}
    (h : s.probe t w = some (r, s')) : Still s s' := by
  rcases probe_cases h with ⟨-, kept⟩ | ⟨i, -, -, -, -, rfl⟩
  · exact kept.still
  · exact still_setTimer _ _ _

/-- A wait on a context's end ends exactly when the context is done, with its reason, and
changes nothing. -/
theorem probe_done_iff {s s' : Scheduler ω ν} {t : Nat} {cx : Context} {w : Woke ν} :
    s.probe t (.done cx) = some (w, s') ↔ ∃ r, s.errOf cx = some r ∧ w = .done r ∧ s' = s := by
  simp only [probe, Option.map_eq_some_iff, Prod.mk.injEq]
  constructor
  · rintro ⟨r, hr, rfl, rfl⟩
    exact ⟨r, hr, rfl, rfl⟩
  · rintro ⟨r, hr, rfl, rfl⟩
    exact ⟨r, hr, rfl, rfl⟩

/-- A wait ends on the first branch that is ready, taken as that branch alone would take it. -/
theorem probeAll_eq_some {s s' : Scheduler ω ν} {t : Nat} :
    ∀ {j : Nat} {ws : List (Wait ν)} {i : Nat} {w : Woke ν},
      s.probeAll t j ws = some (i, w, s') →
      j ≤ i ∧ ∃ b, ws[i - j]? = some b ∧ s.probe t b = some (w, s')
  | _, [], _, _, h => by cases h
  | j, b :: ws, i, w, h => by
    dsimp only [probeAll] at h
    split at h
    · rename_i r s₁ hb
      cases h
      exact ⟨Nat.le_refl _, b, by simp, hb⟩
    · obtain ⟨hj, b', hb', hp⟩ := probeAll_eq_some h
      refine ⟨by omega, b', ?_, hp⟩
      have : i - j = (i - (j + 1)) + 1 := by omega
      rw [this]
      simpa using hb'

theorem still_probeAll {s s' : Scheduler ω ν} {t j : Nat} {ws : List (Wait ν)} {i : Nat}
    {w : Woke ν} (h : s.probeAll t j ws = some (i, w, s')) : Still s s' := by
  obtain ⟨_, _, _, hp⟩ := probeAll_eq_some h
  exact still_probe hp

/-- A wait whose first branch is the end of a context that is done ends on that branch at once,
whatever its other branches: the scheduler's waits are biased towards their first branch. -/
theorem step_await_done_first {s : Scheduler ω ν} {t fuel : Nat} {cx : Context}
    {ws : List (Wait ν)} {k : Nat → Woke ν → Proc ω ν ν} {owned : List (Nat × Nat)}
    {r : Cancelled} (done : s.errOf cx = some r) :
    s.step t (fuel + 1) (.await (.done cx :: ws) k) owned
      = (s.disarmAll t (.done cx :: ws) owned).step t fuel (k 0 (.done r)) [] := by
  simp [step, probeAll, probe, done]

/-! ### Turns and rounds -/

/-- A task's turn comes no earlier, by induction on the effects it may still perform. -/
theorem later_step (t : Nat) :
    ∀ (fuel : Nat) (s : Scheduler ω ν) (p : Proc ω ν ν) (owned : List (Nat × Nat)),
      Later s (s.step t fuel p owned)
  | 0, s, p, owned => (keepsTime_setFiber _ _ _).still.later
  | fuel + 1, s, p, owned => by
    cases p with
    | pure v => exact (keepsTime_finish _ _ _).still.later
    | touch f k =>
      have touched : Still s { s with world := (f s.world).1 } := ⟨rfl, rfl⟩
      exact touched.later.trans (later_step t fuel _ _ _)
    | order o k => exact (later_answer s t o).trans (later_step t fuel _ _ _)
    | spawn body k =>
      let fresh : Fiber ω ν := { prog := body, queued := true }
      have spawned : Still s
          { s with fibers := s.fibers.push fresh, queue := s.queue ++ [s.fibers.size] } :=
        ⟨rfl, rfl⟩
      exact spawned.later.trans (later_step t fuel _ _ _)
    | await ws k =>
      dsimp only [step]
      split
      · rename_i j r s₁ h
        exact ((still_probeAll h).trans (still_disarmAll _ _ _ _)).later.trans
          (later_step t fuel _ _ _)
      · exact (still_park1 _ _ _ _ _).later

theorem later_turn (s : Scheduler ω ν) (t : Nat) : Later s (s.turn t) := by
  unfold turn
  split
  · exact .refl s
  · rename_i f _
    dsimp only
    split
    · exact (keepsTime_setFiber _ _ _).still.later
    · split
      · exact ((keepsTime_setFiber _ _ _).still.trans (still_drop _ _)).later
      · have running : Still s { s.setFiber t ({ · with queued := false, notified := false }) with
            running := some t } := ⟨rfl, rfl⟩
        exact (running.later.trans (later_step t _ _ _ _)).trans (Still.later ⟨rfl, rfl⟩)

theorem later_drain : ∀ (n : Nat) (s : Scheduler ω ν), Later s (s.drain n).1
  | 0, s => .refl s
  | n + 1, s => by
    dsimp only [drain]
    split
    · exact .refl s
    · have popped : Still s { s with queue := ‹List Nat› } := ⟨rfl, rfl⟩
      exact (popped.later.trans (later_turn _ _)).trans (later_drain n _)

theorem later_park {s s' : Scheduler ω ν} (h : s.park = some s') : Later s s' := by
  unfold park at h
  split at h
  · cases h
    exact (still_pause s).later
  · split at h
    · cases h
      exact ((keepsTime_completeFiles s).still.trans (still_pause _)).later
    · split at h
      · cases h
        exact (still_pause s).later
      · split at h
        · cases h
          rename_i d _
          have jumped : Later s { s with now := max s.now d } :=
            ⟨fun _ hr => hr, Nat.le_max_left _ _⟩
          exact jumped.trans (still_pause _).later
        · cases h

/-- Nothing in a run of the scheduler lowers a signal or turns back the clock, by induction on
its rounds. -/
theorem later_run : ∀ (n : Nat) (s : Scheduler ω ν), Later s (run n s)
  | 0, s => .refl s
  | n + 1, s => by
    dsimp only [run]
    split
    · exact .refl s
    · have main : Later s (if s.mainWoken then { s with mainWoken := false }.turn 0 else s) := by
        split
        · have woken : Still s { s with mainWoken := false } := ⟨rfl, rfl⟩
          exact woken.later.trans (later_turn _ _)
        · exact .refl s
      generalize (if s.mainWoken then { s with mainWoken := false }.turn 0 else s) = s₁ at main ⊢
      split
      · exact main
      · have drained := later_drain 61 s₁
        generalize s₁.drain 61 = d at drained ⊢
        obtain ⟨s₂, empty⟩ := d
        cases empty with
        | true =>
          dsimp only
          split
          · rename_i s₃ h
            exact (main.trans drained).trans ((later_park h).trans (later_run n _))
          · exact main.trans drained
        | false =>
          exact (main.trans drained).trans ((still_pause _).later.trans (later_run n _))

/-! ### Contexts on the scheduler -/

/-- A context done at some moment stays done at every later one, and a cancelled context stays
cancelled. -/
theorem errOf_later {s s' : Scheduler ω ν} (h : Later s s') {cx : Context} {r : Cancelled}
    (hr : s.errOf cx = some r) :
    ∃ r', s'.errOf cx = some r' ∧ (r = .cancelled → r' = .cancelled) :=
  Context.err_mono h.raised h.clock hr

end Scheduler

namespace Lineage

variable {ω ν : Type}

/-- Why a context is done, on the scheduler, is read off its lineage. Its deadline is the
earliest on its lineage. It is cancelled exactly when the signal of a canceller on its lineage
is raised, and otherwise over exactly when a deadline on it has come. Raising the signal of a
canceller of the family cancels exactly the contexts that descend from the one that canceller
was made with, and no order but a raise cancels anything. Once done, a context stays done
through every run, and a cancelled one stays cancelled. A wait ends on the context's end only
when the context is done, and with that reason. -/
theorem done_follows_lineage {ls : List Lineage} (fam : Family ls) {l : Lineage} (hl : l ∈ ls) :
    l.context.deadline = l.deadlines.min? ∧
    (∀ s : Scheduler ω ν, s.errOf l.context = l.reason s.isRaised s.now) ∧
    (∀ p sig, .withCancel p sig ∈ ls → ∀ (s : Scheduler ω ν) t, sig < s.signals.size →
      ((s.answer t (.raise sig)).1.errOf l.context = some .cancelled ↔
        Descends (.withCancel p sig) l ∨ s.errOf l.context = some .cancelled)) ∧
    (∀ (s : Scheduler ω ν) t (o : Order ν), (∀ sig, o ≠ .raise sig) →
      ((s.answer t o).1.errOf l.context = some .cancelled ↔
        s.errOf l.context = some .cancelled)) ∧
    (∀ (s : Scheduler ω ν) n r, s.errOf l.context = some r →
      ∃ r', (Scheduler.run n s).errOf l.context = some r' ∧ (r = .cancelled → r' = .cancelled)) ∧
    (∀ (s s' : Scheduler ω ν) t ws i w, s.probeAll t 0 ws = some (i, w, s') →
      ws[i]? = some (.done l.context) → ∃ r, l.reason s.isRaised s.now = some r ∧ w = .done r) := by
  have read : ∀ s : Scheduler ω ν, s.errOf l.context = l.reason s.isRaised s.now :=
    fun s => err_context l s.isRaised s.now
  refine ⟨context_deadline l, read, ?raise, ?others, ?run, ?wait⟩
  case raise =>
    intro p sig hc s t hs
    rw [read, read, reason_eq_cancelled_iff, reason_eq_cancelled_iff,
      ← fam.mem_cancellers_iff hc hl]
    simp only [Scheduler.isRaised_answer, Order.raise.injEq]
    constructor
    · rintro ⟨x, hx, hr | ⟨rfl, _⟩⟩
      · exact .inr ⟨x, hx, hr⟩
      · exact .inl hx
    · rintro (hx | ⟨x, hx, hr⟩)
      · exact ⟨sig, hx, .inr ⟨rfl, hs⟩⟩
      · exact ⟨x, hx, .inl hr⟩
  case others =>
    intro s t o ho
    rw [read, read, reason_eq_cancelled_iff, reason_eq_cancelled_iff]
    have raised : ∀ x, (s.answer t o).1.isRaised x = s.isRaised x := by
      intro x
      apply Bool.eq_iff_iff.mpr
      rw [Scheduler.isRaised_answer]
      exact ⟨fun h => h.resolve_right fun ⟨e, _⟩ => ho x e, .inl⟩
    simp only [raised]
  case run =>
    intro s n r hr
    exact Scheduler.errOf_later (Scheduler.later_run n s) hr
  case wait =>
    intro s s' t ws i w h hb
    obtain ⟨_, b, hb', hp⟩ := Scheduler.probeAll_eq_some h
    rw [Nat.sub_zero, hb] at hb'
    cases hb'
    obtain ⟨r, hr, rfl, -⟩ := Scheduler.probe_done_iff.mp hp
    exact ⟨r, (read s).symm.trans hr, rfl⟩

/-- A context over at time 30, made from a context with a canceller whose signal is `0`. -/
def timedChild : Lineage := .withDeadline (.withCancel .background 0) 30

/-- The two contexts of `timedChild`'s lineage, made in order. -/
def timedFamily : List Lineage := [.withCancel .background 0, timedChild]

theorem done_follows_lineage_timedChild :
    Family timedFamily ∧ timedChild ∈ timedFamily ∧
    timedChild.context.deadline = timedChild.deadlines.min? ∧
    (∀ s : Scheduler Unit Unit, s.errOf timedChild.context
      = timedChild.reason s.isRaised s.now) ∧
    (∀ p sig, .withCancel p sig ∈ timedFamily → ∀ (s : Scheduler Unit Unit) t,
      sig < s.signals.size →
      ((s.answer t (.raise sig)).1.errOf timedChild.context = some .cancelled ↔
        Descends (.withCancel p sig) timedChild ∨ s.errOf timedChild.context = some .cancelled)) ∧
    (∀ (s : Scheduler Unit Unit) t (o : Order Unit), (∀ sig, o ≠ .raise sig) →
      ((s.answer t o).1.errOf timedChild.context = some .cancelled ↔
        s.errOf timedChild.context = some .cancelled)) ∧
    (∀ (s : Scheduler Unit Unit) n r, s.errOf timedChild.context = some r →
      ∃ r', (Scheduler.run n s).errOf timedChild.context = some r' ∧
        (r = .cancelled → r' = .cancelled)) ∧
    (∀ (s s' : Scheduler Unit Unit) t ws i w, s.probeAll t 0 ws = some (i, w, s') →
      ws[i]? = some (.done timedChild.context) →
      ∃ r, timedChild.reason s.isRaised s.now = some r ∧ w = .done r) := by
  have fam : Family timedFamily :=
    .deadline 30 (.cancel .nil (.inl rfl) (by simp)) (.inr (by simp))
  have mem : timedChild ∈ timedFamily := by simp [timedFamily]
  exact ⟨fam, mem, done_follows_lineage fam mem⟩

end Lineage

end Async

end Campaign
