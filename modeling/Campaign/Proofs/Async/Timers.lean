import Campaign.Proofs.Async.Cancellation

/-! A timer fires only once the clock has reached its deadline (`Scheduler.Timely`), and nothing
the scheduler does breaks this, so a wait on a timer ends no earlier (`probe_timer_due`). When
every task waits, the clock moves to the earliest armed deadline and never past it
(`park_within_deadline`).
-/

namespace Campaign

namespace Async

/-- Whether the scheduler counts a timer when it looks for the next deadline: armed, live, and
not yet fired. -/
def Timer.Pending (tm : Timer) : Prop :=
  tm.armedAs.isSome = true ∧ tm.live = true ∧ tm.fired = false

namespace Scheduler

variable {ω ν : Type}

/-- Every timer marked fired is due: the clock has reached its deadline. -/
def Timely (s : Scheduler ω ν) : Prop :=
  ∀ (i : Nat) (tm : Timer), s.timers[i]? = some tm → tm.fired = true → tm.deadline ≤ s.now

/-- `s'` has the timers and the clock of `s`. -/
structure KeepsTimers (s s' : Scheduler ω ν) : Prop where
  timers : s'.timers = s.timers
  clock : s'.now = s.now

theorem KeepsTime.keepsTimers {s s' : Scheduler ω ν} (h : KeepsTime s s') : KeepsTimers s s' :=
  ⟨h.timers, h.clock⟩

/-- A fold of steps that keep every fired timer due keeps them due. -/
theorem timely_foldl {α : Type} {f : Scheduler ω ν → α → Scheduler ω ν} (xs : List α)
    (hf : ∀ s a, a ∈ xs → s.Timely → (f s a).Timely) :
    ∀ s : Scheduler ω ν, s.Timely → (xs.foldl f s).Timely := by
  induction xs with
  | nil => exact fun _ timely => timely
  | cons a xs ih =>
    intro s timely
    exact ih (fun s' b mem => hf s' b (List.mem_cons_of_mem a mem)) _
      (hf s a List.mem_cons_self timely)

namespace Timely

variable {s s' : Scheduler ω ν}

theorem keep (timely : s.Timely) (h : KeepsTimers s s') : s'.Timely := by
  intro i tm found fired
  rw [h.timers] at found
  rw [h.clock]
  exact timely i tm found fired

/-- The clock moving forward keeps fired timers due. -/
theorem later (timely : s.Timely) (timers : s'.timers = s.timers) (clock : s.now ≤ s'.now) :
    s'.Timely := by
  intro i tm found fired
  rw [timers] at found
  exact Nat.le_trans (timely i tm found fired) clock

/-- Changing one timer keeps fired timers due when the changed timer, if marked fired, is
due. -/
theorem setTimer (timely : s.Timely) {i : Nat} {f : Timer → Timer}
    (due : ∀ tm, s.timers[i]? = some tm → (f tm).fired = true → (f tm).deadline ≤ s.now) :
    (s.setTimer i f).Timely := by
  intro j tm' found fired
  simp only [Scheduler.setTimer, Array.getElem?_modify] at found
  split at found
  · rename_i same
    subst same
    obtain ⟨tm, old, rfl⟩ := Option.map_eq_some_iff.mp found
    exact due tm old fired
  · exact timely j tm' found fired

/-- A change to a timer that keeps its deadline and its mark keeps fired timers due. -/
theorem setTimer_keeping (timely : s.Timely) {i : Nat} {f : Timer → Timer}
    (deadline : ∀ tm, (f tm).deadline = tm.deadline) (mark : ∀ tm, (f tm).fired = tm.fired) :
    (s.setTimer i f).Timely :=
  timely.setTimer fun tm found fired => by
    rw [deadline]
    exact timely i tm found (by rwa [← mark])

end Timely

/-- Raising a signal keeps the timers and the clock. -/
theorem keepsTimers_raiseSignal (s : Scheduler ω ν) (sig : Nat) :
    KeepsTimers s (s.raiseSignal sig) := by
  unfold raiseSignal
  exact ⟨(keepsTime_wakeAll _ _).timers, (keepsTime_wakeAll _ _).clock⟩

/-! ### Steps that change timers -/

namespace Timely

variable {s : Scheduler ω ν}

/-- A new timer has not fired. -/
theorem newTimer (timely : s.Timely) (deadline : Nat) : (s.newTimer deadline).1.Timely := by
  intro i tm found fired
  simp only [Scheduler.newTimer, Array.getElem?_push] at found
  split at found
  · cases found
    cases fired
  · exact timely i tm found fired

theorem armTimer (timely : s.Timely) (t i : Nat) : (s.armTimer t i).Timely := by
  unfold Scheduler.armTimer
  split
  · split
    · exact timely.setTimer_keeping (fun _ => rfl) (fun _ => rfl)
    · exact (timely.setTimer_keeping (i := i)
        (f := ({ · with armedAs := some s.armed, waker := some t })) (fun _ => rfl)
        (fun _ => rfl)).keep ⟨rfl, rfl⟩
  · exact timely

theorem armOwned (timely : s.Timely) (t j deadline : Nat) (owned : List (Nat × Nat)) :
    (s.armOwned t j deadline owned).1.Timely := by
  unfold Scheduler.armOwned
  split
  · exact timely.armTimer _ _
  · exact (timely.newTimer deadline).armTimer _ _

theorem arm (timely : s.Timely) (t : Nat) (owned : List (Nat × Nat)) (j : Nat) (w : Wait ν) :
    (s.arm t owned j w).1.Timely := by
  cases w with
  | done cx =>
    have listen := (keepsTime_listen s t cx.signals).keepsTimers
    dsimp only [Scheduler.arm]
    split
    · exact (timely.keep listen).armOwned _ _ _ _
    · exact timely.keep listen
  | timer i => exact timely.armTimer _ _
  | sleepUntil d => exact timely.armOwned _ _ _ _
  | file | yield =>
    dsimp only [Scheduler.arm]
    repeat' split
    all_goals exact timely.keep ⟨rfl, rfl⟩
  | recv | send | join | never => exact timely.keep ⟨rfl, rfl⟩

theorem armAll (t : Nat) : ∀ (owned : List (Nat × Nat)) (j : Nat) (ws : List (Wait ν))
    (s : Scheduler ω ν), s.Timely → (s.armAll t owned j ws).1.Timely
  | _, _, [], _, timely => timely
  | owned, j, w :: ws, _, timely => armAll t _ _ ws _ (timely.arm t owned j w)

theorem disarmAll (timely : s.Timely) (t : Nat) (ws : List (Wait ν))
    (owned : List (Nat × Nat)) : (s.disarmAll t ws owned).Timely := by
  have disarmed :=
    timely.keep (keepsTime_foldl (fun s w => keepsTime_disarm s t w) ws s).keepsTimers
  dsimp only [Scheduler.disarmAll]
  refine timely_foldl owned ?_ _ disarmed
  -- the timers the wait owned are dropped, keeping their deadlines and marks
  intro s₁ e _ timely₁
  exact timely₁.setTimer_keeping (fun _ => rfl) (fun _ => rfl)

theorem park1 (timely : s.Timely) (t : Nat) (p : Proc ω ν ν) (ws : List (Wait ν))
    (owned : List (Nat × Nat)) : (s.park1 t p ws owned).Timely := by
  have armed := armAll t owned 0 ws s timely
  unfold Scheduler.park1
  generalize s.armAll t owned 0 ws = r at armed ⊢
  obtain ⟨s₁, owned₁⟩ := r
  dsimp only
  repeat' split
  all_goals exact armed.keep ⟨rfl, rfl⟩

/-- Answering an order keeps fired timers due: a timer set to a new deadline loses its mark,
and the clock only moves forward. -/
theorem answer (timely : s.Timely) (t : Nat) (o : Order ν) : (s.answer t o).1.Timely := by
  cases o with
  | advanceClock ms => exact timely.later rfl (Nat.le_add_right _ _)
  | timer deadline => exact timely.newTimer deadline
  | resetTimer i d arm =>
    have reset : (s.setTimer i fun tm =>
        { tm with deadline := d, armedAs := none, fired := false, waker := none }).Timely :=
      timely.setTimer fun _ _ fired => (Bool.false_ne_true fired).elim
    dsimp only [Scheduler.answer]
    split
    · exact reset.armTimer _ _
    · exact reset
  | dropTimer i => exact timely.setTimer_keeping (fun _ => rfl) (fun _ => rfl)
  | raise sig => exact timely.keep (keepsTimers_raiseSignal _ _)
  | signal => exact timely.keep ⟨rfl, rfl⟩
  | now | channel | cloneSender | dropSender | dropReceiver | offer | take | isRaised | abort
    | err | panic =>
    exact timely.keep (answer_keepsTime s t _ rfl).keepsTimers

/-- A wait that ends keeps fired timers due: a timer is marked fired only when due. -/
theorem probe (timely : s.Timely) {s' : Scheduler ω ν} {t : Nat} {w : Wait ν} {r : Woke ν}
    (h : s.probe t w = some (r, s')) : s'.Timely := by
  rcases probe_cases h with ⟨-, kept⟩ | ⟨i, tm, -, found, ready, rfl⟩
  · exact timely.keep kept.keepsTimers
  · refine timely.setTimer fun tm' found' _ => ?_
    rw [found] at found'
    cases found'
    -- marked before, or due now
    rcases ready with fired | due
    · exact timely i tm found fired
    · exact due

theorem probeAll (timely : s.Timely) {s' : Scheduler ω ν} {t j : Nat} {ws : List (Wait ν)}
    {i : Nat} {w : Woke ν} (h : s.probeAll t j ws = some (i, w, s')) : s'.Timely := by
  obtain ⟨_, _, _, hp⟩ := probeAll_eq_some h
  exact timely.probe hp

/-- A task's turn keeps fired timers due, by induction on the effects it may still perform. -/
theorem step (t : Nat) :
    ∀ (fuel : Nat) (s : Scheduler ω ν) (p : Proc ω ν ν) (owned : List (Nat × Nat)),
      s.Timely → (s.step t fuel p owned).Timely
  | 0, s, p, owned, timely => timely.keep (keepsTime_setFiber _ _ _).keepsTimers
  | fuel + 1, s, p, owned, timely => by
    cases p with
    | pure v => exact timely.keep (keepsTime_finish _ _ _).keepsTimers
    | touch f k => exact step t fuel _ _ _ (timely.keep ⟨rfl, rfl⟩)
    | order o k => exact step t fuel _ _ _ (timely.answer t o)
    | spawn body k => exact step t fuel _ _ _ (timely.keep ⟨rfl, rfl⟩)
    | await ws k =>
      dsimp only [Scheduler.step]
      split
      · rename_i j r s₁ h
        exact step t fuel _ _ _ ((timely.probeAll h).disarmAll _ _ _)
      · exact timely.park1 _ _ _ _

theorem drop (timely : s.Timely) (t : Nat) : (s.drop t).Timely := by
  unfold Scheduler.drop
  split
  · rename_i f _
    -- what follows the clearing of a parked task's timers keeps the timers
    have rest : ∀ s₁ : Scheduler ω ν, s₁.Timely →
        ({ s₁ with inFlight := s₁.inFlight.erase t, deferred := s₁.deferred.erase t }.finish t
          .aborted).Timely := by
      intro s₁ timely₁
      refine (timely₁.keep ?_).keep (keepsTime_finish _ _ _).keepsTimers
      exact ⟨rfl, rfl⟩
    apply rest
    split
    · exact timely.disarmAll _ _ _
    · exact timely
  · exact timely

theorem turn (timely : s.Timely) (t : Nat) : (s.turn t).Timely := by
  unfold Scheduler.turn
  split
  · exact timely
  · rename_i f _
    dsimp only
    split
    · exact timely.keep (keepsTime_setFiber _ _ _).keepsTimers
    · split
      · exact (timely.keep (keepsTime_setFiber _ _ _).keepsTimers).drop _
      · have running : KeepsTimers s { s.setFiber t ({ · with queued := false, notified := false })
            with running := some t } := ⟨rfl, rfl⟩
        have stepped := step t turnFuel _ f.prog f.owned (timely.keep running)
        exact stepped.keep ⟨rfl, rfl⟩

theorem drain : ∀ (n : Nat) (s : Scheduler ω ν), s.Timely → (s.drain n).1.Timely
  | 0, _, timely => timely
  | n + 1, s, timely => by
    dsimp only [Scheduler.drain]
    split
    · exact timely
    · have popped : KeepsTimers s { s with queue := ‹List Nat› } := ⟨rfl, rfl⟩
      exact drain n _ ((timely.keep popped).turn _)

/-- Firing the due timers keeps fired timers due: each timer fired was due when the round
began, and firing changes no deadline and not the clock. -/
theorem fireDue (timely : s.Timely) : s.fireDue.Timely := by
  unfold Scheduler.fireDue
  -- along the fold, the deadlines and the clock stay those of `s`
  let Kept (s₁ : Scheduler ω ν) : Prop := s₁.Timely ∧ s₁.now = s.now ∧
    ∀ i : Nat, (s₁.timers[i]?).map Timer.deadline = (s.timers[i]?).map Timer.deadline
  refine (List.foldlRecOn (motive := Kept) _ _ ⟨timely, rfl, fun _ => rfl⟩ ?_).1
  intro s₁ kept e mem
  -- each timer the round fires was found due when it began
  obtain ⟨tm, stored, ready⟩ : ∃ tm, s.timers[e.2.2]? = some tm ∧ tm.deadline ≤ s.now := by
    obtain ⟨i, -, found⟩ := List.mem_filterMap.mp (List.mem_mergeSort.mp mem)
    split at found
    · rename_i tm stored
      split at found
      · split at found
        · rename_i due
          cases found
          exact ⟨tm, stored, by simp at due; omega⟩
        · cases found
      · cases found
    · cases found
  obtain ⟨d, a, i⟩ := e
  obtain ⟨timely₁, clock, deadlines⟩ := kept
  -- the timer fired has the deadline it had when the round began
  have fired : Kept (s₁.setTimer i ({ · with fired := true })) := by
    refine ⟨timely₁.setTimer fun tm₁ found₁ _ => ?_, clock, fun j => ?_⟩
    · have same : tm₁.deadline = tm.deadline :=
        Option.some.inj (by simpa [found₁, stored] using deadlines i)
      show tm₁.deadline ≤ s₁.now
      rw [same, clock]
      exact ready
    · simp only [Scheduler.setTimer, Array.getElem?_modify]
      split
      · rename_i same
        subst same
        rw [← deadlines]
        cases s₁.timers[i]? <;> rfl
      · exact deadlines j
  dsimp only
  split
  · exact ⟨fired.1.keep (keepsTime_wake _ _).keepsTimers,
      (keepsTime_wake _ _).clock.trans fired.2.1,
      by rw [(keepsTime_wake _ _).timers]; exact fired.2.2⟩
  · exact fired

theorem pause (timely : s.Timely) : s.pause.Timely :=
  timely.fireDue.keep (keepsTime_wakeDeferred _).keepsTimers

theorem park (timely : s.Timely) {s' : Scheduler ω ν} (h : s.park = some s') : s'.Timely := by
  unfold Scheduler.park at h
  split at h
  · cases h
    exact timely.pause
  · split at h
    · cases h
      exact (timely.keep (keepsTime_completeFiles s).keepsTimers).pause
    · split at h
      · cases h
        exact timely.pause
      · split at h
        · rename_i d _
          cases h
          have jumped : ({ s with now := max s.now d } : Scheduler ω ν).Timely :=
            timely.later rfl (Nat.le_max_left _ _)
          exact jumped.pause
        · cases h

/-- Every round of a run keeps fired timers due, by induction on the rounds. -/
theorem run : ∀ (n : Nat) (s : Scheduler ω ν), s.Timely → (Scheduler.run n s).Timely
  | 0, _, timely => timely
  | n + 1, s, timely => by
    dsimp only [Scheduler.run]
    split
    · exact timely
    · have main : (if s.mainWoken then { s with mainWoken := false }.turn 0 else s).Timely := by
        split
        · have woken : KeepsTimers s { s with mainWoken := false } := ⟨rfl, rfl⟩
          exact (timely.keep woken).turn 0
        · exact timely
      generalize (if s.mainWoken then { s with mainWoken := false }.turn 0 else s) = s₁ at main ⊢
      split
      · exact main
      · have drained := main.drain 61
        generalize s₁.drain 61 = d at drained ⊢
        obtain ⟨s₂, empty⟩ := d
        cases empty with
        | true =>
          dsimp only
          split
          · rename_i s₃ h
            exact run n _ (drained.park h)
          · exact drained
        | false => exact run n _ drained.pause

end Timely

/-- A scheduler just launched has no timers. -/
theorem timely_launch (world : ω) (main : Proc ω ν ν) : (launch world main).Timely :=
  fun _ _ found => absurd found (by simp [launch])

/-- In a scheduler whose fired timers are due, a wait on a timer ends only once the clock has
reached the timer's deadline. -/
theorem probe_timer_due {s s' : Scheduler ω ν} (timely : s.Timely) {t i : Nat} {r : Woke ν}
    (h : s.probe t (.timer i) = some (r, s')) :
    ∃ tm, s.timers[i]? = some tm ∧ tm.deadline ≤ s.now := by
  rcases probe_cases h with ⟨not_timer, -⟩ | ⟨j, tm, same, found, ready, -⟩
  · exact absurd rfl (not_timer i)
  · cases same
    rcases ready with fired | due
    · exact ⟨tm, found, timely i tm found fired⟩
    · exact ⟨tm, found, due⟩

/-! ### Moving the clock -/

/-- Taking the earliest deadline along a list of timers: once a deadline was taken the result is
no later, and the deadline of `tm` is always taken, so the result is no later than it once `tm`
was passed. -/
theorem foldl_earliest {g : Option Nat → Timer → Option Nat} {tm : Timer}
    (keeps : ∀ x a, ∃ d, g (some a) x = some d ∧ d ≤ a)
    (takes : ∀ acc, ∃ d, g acc tm = some d ∧ d ≤ tm.deadline) :
    ∀ (l : List Timer) (acc : Option Nat), tm ∈ l →
      ∀ d, l.foldl g acc = some d → d ≤ tm.deadline := by
  have after : ∀ (l : List Timer) (a : Nat), ∃ d, l.foldl g (some a) = some d ∧ d ≤ a := by
    intro l
    induction l with
    | nil => exact fun a => ⟨a, rfl, Nat.le_refl a⟩
    | cons x l ih =>
      intro a
      obtain ⟨b, taken, below⟩ := keeps x a
      obtain ⟨d, rest, le⟩ := ih b
      exact ⟨d, by rw [List.foldl_cons, taken, rest], Nat.le_trans le below⟩
  intro l
  induction l with
  | nil => exact fun _ mem => absurd mem List.not_mem_nil
  | cons x l ih =>
    intro acc mem d done
    rcases List.mem_cons.mp mem with rfl | mem
    · obtain ⟨a, taken, below⟩ := takes acc
      rw [List.foldl_cons, taken] at done
      obtain ⟨d', rest, le⟩ := after l a
      rw [rest] at done
      cases done
      exact Nat.le_trans le below
    · exact ih _ mem d done

/-- The next deadline is no later than that of any timer armed, live and not yet fired. -/
theorem nextDeadline_le {s : Scheduler ω ν} {d : Nat} (next : s.nextDeadline = some d)
    {i : Nat} {tm : Timer} (found : s.timers[i]? = some tm) (pending : tm.Pending) :
    d ≤ tm.deadline := by
  unfold nextDeadline at next
  rw [← Array.foldl_toList] at next
  have mem : tm ∈ s.timers.toList := Array.mem_toList_iff.mpr (Array.mem_of_getElem? found)
  refine foldl_earliest ?_ ?_ _ none mem d next
  · intro x a
    dsimp only
    split
    · split
      · exact ⟨_, rfl, Nat.min_le_left _ _⟩
      · exact ⟨a, rfl, Nat.le_refl a⟩
    · exact ⟨a, rfl, Nat.le_refl a⟩
  · intro acc
    obtain ⟨armed, live, fresh⟩ := pending
    obtain ⟨b, armedAs⟩ := Option.isSome_iff_exists.mp armed
    simp only [armedAs, live, fresh, Bool.not_false, Bool.and_self, if_true]
    cases acc with
    | none => exact ⟨_, rfl, Nat.le_refl _⟩
    | some a => exact ⟨_, rfl, Nat.min_le_right _ _⟩

/-- When every task waits, the scheduler moves the clock no further than the deadline of any
timer armed, live and not yet fired. -/
theorem park_within_deadline {s s' : Scheduler ω ν} (h : s.park = some s') {i : Nat}
    {tm : Timer} (found : s.timers[i]? = some tm) (pending : tm.Pending) :
    s'.now ≤ max s.now tm.deadline := by
  unfold park at h
  split at h
  · cases h
    rw [(still_pause s).clock]
    exact Nat.le_max_left _ _
  · split at h
    · cases h
      rw [(still_pause _).clock, (keepsTime_completeFiles s).clock]
      exact Nat.le_max_left _ _
    · split at h
      · cases h
        rw [(still_pause s).clock]
        exact Nat.le_max_left _ _
      · split at h
        · rename_i d next
          cases h
          rw [(still_pause _).clock]
          have earliest := nextDeadline_le next found pending
          show max s.now d ≤ max s.now tm.deadline
          omega
        · cases h

end Scheduler

end Async

end Campaign
