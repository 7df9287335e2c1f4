import Campaign.Proofs.Instance.Turns

/-! An instance keeps at most one cycle in flight: `Flight` follows the cycle tasks through a run,
allowing S, Closed and the closing of the stages only with nothing in flight and no back-off
armed. `one_cycle_in_flight` shows that it accepts every complete run and ends with nothing in
flight.
-/

namespace Campaign

namespace Instance

open Async

/-- What an instance's cycle tasks are doing, as its own steps show it. -/
inductive Flight where
  /-- No cycle task is in flight and no back-off is armed. -/
  | idle
  /-- A cycle was announced: its task is spawned next. -/
  | launching
  /-- Cycle task `t` is in flight. -/
  | running (t : Nat)
  /-- Cycle task `t` was aborted: it is joined next. -/
  | aborting (t : Nat)
  /-- No cycle task is in flight, and back-off timer `b` is armed. -/
  | backingOff (b : Nat)
  deriving DecidableEq, Repr

/-- The cycle's and the back-off's branches of a wait shaped as the loop's. -/
def loopSlots : List (Wait Item) → Option (Wait Item × Wait Item)
  | [.done _, _, r, b] => some (r, b)
  | _ => none

/-- Whether a wait that ended on branch `j` with `w` saw task `t` end. -/
def joins (t : Nat) (ws : List (Wait Item)) (j : Nat) (w : Woke Item) : Bool :=
  match ws[j]?, w with
  | some (.join t'), .joined _ => t' == t
  | _, _ => false

namespace Flight

variable {ω : Type}

/-- How an effect of the instance's own code moves the flight, if it may happen there. Only a
launch spawns a cycle task; a cycle leaves the flight when a wait sees it end; a wait of the
loop's shape is on the flight's own branch and on no other; a back-off is armed only with no
cycle in flight, and ends when it elapses or is let go. -/
def perform : Flight → Effect ω Item → Option Flight
  | .launching, .spawn _ t => some (.running t)
  | .launching, _ => none
  | .idle, .await ws _ _ => if (loopSlots ws).isSome then none else some .idle
  | .idle, .order (.timer _) r => some (.backingOff r.asId)
  | .idle, _ => some .idle
  | .running t, .await ws j w =>
    match loopSlots ws with
    | some (.join t', .never) =>
      if t' = t then some (if joins t ws j w then .idle else .running t) else none
    | some _ => none
    | none => some (if joins t ws j w then .idle else .running t)
  | .running t, .order (.abort t') _ => if t' = t then some (.aborting t) else none
  | .running _, .order (.timer _) _ => none
  | .running _, .spawn _ _ => none
  | .running t, _ => some (.running t)
  | .aborting t, .await ws j w =>
    if (loopSlots ws).isNone && joins t ws j w then some .idle else none
  | .aborting _, _ => none
  | .backingOff b, .await ws _ w =>
    match loopSlots ws with
    | some (.never, .timer b') =>
      if b' = b then some (match w with | .elapsed => .idle | _ => .backingOff b) else none
    | some _ => none
    | none => some (.backingOff b)
  | .backingOff b, .order (.dropTimer b') _ => if b' = b then some .idle else none
  | .backingOff _, .order (.timer _) _ => none
  | .backingOff _, .spawn _ _ => none
  | .backingOff b, _ => some (.backingOff b)

/-- Read one step of an instance's run: S only with nothing in flight, and then its task
next; Closed and the closing of the stages only with nothing in flight either. -/
def see : Flight → Step ω → Option Flight
  | .idle, .call (.emit _ ⟨_, .cycle .started⟩) _ => some .launching
  | _, .call (.emit _ ⟨_, .cycle .started⟩) _ => none
  | .idle, .call (.emit _ ⟨_, .inst .closed⟩) _ => some .idle
  | _, .call (.emit _ ⟨_, .inst .closed⟩) _ => none
  | .idle, .call (.closeStages _) _ => some .idle
  | _, .call (.closeStages _) _ => none
  | .launching, .call _ _ => none
  | f, .call _ _ => some f
  | f, .effect e => f.perform e

@[simp] theorem see_effect {f : Flight} {e : Effect ω Item}
    : see f (.effect e : Step ω) = f.perform e := by
  cases f <;> rfl

/-! How each flight reads a wait or an order, one lemma each, so that no proof unfolds
`perform`. -/

section Moves

variable {ws : List (Wait Item)} {j : Nat} {w : Woke Item}

@[simp] theorem perform_idle_await
    : idle.perform (.await ws j w : Effect ω Item)
      = if (loopSlots ws).isSome then none else some .idle := rfl

@[simp] theorem perform_launching_await
    : launching.perform (.await ws j w : Effect ω Item) = none := rfl

@[simp] theorem perform_running_await {t : Nat}
    : (running t).perform (.await ws j w : Effect ω Item)
      = match loopSlots ws with
        | some (.join t', .never) =>
          if t' = t then some (if joins t ws j w then .idle else .running t) else none
        | some _ => none
        | none => some (if joins t ws j w then .idle else .running t) := rfl

@[simp] theorem perform_aborting_await {t : Nat}
    : (aborting t).perform (.await ws j w : Effect ω Item)
      = if (loopSlots ws).isNone && joins t ws j w then some .idle else none := rfl

@[simp] theorem perform_backingOff_await {b : Nat}
    : (backingOff b).perform (.await ws j w : Effect ω Item)
      = match loopSlots ws with
        | some (.never, .timer b') =>
          if b' = b then some (match w with | .elapsed => .idle | _ => .backingOff b) else none
        | some _ => none
        | none => some (.backingOff b) := rfl

@[simp] theorem perform_running_abort {t t' : Nat} (r : Reply Item)
    : (running t).perform (.order (.abort t') r : Effect ω Item)
      = if t' = t then some (.aborting t) else none := rfl

@[simp] theorem perform_backingOff_dropTimer {b b' : Nat} (r : Reply Item)
    : (backingOff b).perform (.order (.dropTimer b') r : Effect ω Item)
      = if b' = b then some .idle else none := rfl

end Moves

/-- The flight with no cycle in flight, by the back-off. -/
def ofBackoff : Option Nat → Flight
  | some b => .backingOff b
  | none => .idle

/-- The flight at the top of the loop. -/
def atLoop (st : LoopState) : Flight :=
  match st.running with
  | some (_, t) => .running t
  | none => ofBackoff st.backoff

/-! ## The flight over each piece of the routine -/

variable {files : Files ω} {inst : Instance ω} {cx : Context} {obs : List (Observer ω)}

/-- With nothing in flight, modest work changes nothing. -/
theorem perform_idle {e : Effect ω Item} (he : e.Modest) : perform .idle e = some .idle := by
  cases e with
  | await ws j w =>
    -- a wait on at most one thing is not shaped as the loop's
    have short : (loopSlots ws).isSome = false := by
      match ws, he with
      | [], _ => rfl
      | [b], _ => cases b <;> rfl
    simp [short]
  | order o r =>
    cases o with
    | timer d => exact he.elim
    | _ => rfl
  | touch => rfl
  | spawn body t => rfl

theorem accepts_modest {es : List (Effect ω Item)} (he : ∀ e ∈ es, e.Modest)
    : Accepts see .idle (es.map .effect : List (Step ω)) .idle := by
  induction es with
  | nil => simp
  | cons e es ih =>
    simp only [List.forall_mem_cons] at he
    simpa [perform_idle he.1] using ih he.2

/-- A launch from an empty flight sets its cycle's task in flight. -/
theorem accepts_launch {m : Machine} {evs : List (Step ω)} {x : Cycle × Nat}
    (h : (launch files inst cx obs m).Runs evs x) : Accepts see .idle evs (.running x.2) := by
  obtain ⟨es, t, retained, rfl, rfl⟩ := runs_launch h
  exact (accepts_modest (retain_modest _ _ _ retained)).append rfl

/-- A reported result, from an empty flight: F and the next cycle at once, or E and the
back-off armed. -/
theorem accepts_report {st st' : LoopState} {c : Cycle} {res : Except CycleError Plan}
    {evs : List (Step ω)} (hr : st.running = none)
    (h : (report files inst cx obs st c res).Runs evs (.next st'))
    : Accepts see .idle evs (atLoop st') := by
  rcases runs_report h with ⟨p, es, t, -, retained, rfl, hout⟩ | ⟨e, clock, armed, -, rfl, hout⟩
    <;> cases hout
  · exact (Accepts.cons_iff.mpr ⟨_, rfl, accepts_modest (retain_modest _ _ _ retained)⟩).append rfl
  · simp only [atLoop, hr]
    rfl

/-- At the top of the loop no cycle is being launched or aborted. -/
theorem atLoop_cases (st : LoopState)
    : atLoop st = .idle ∨ (∃ t, atLoop st = .running t) ∨ ∃ b, atLoop st = .backingOff b := by
  unfold atLoop ofBackoff
  split
  · exact .inr (.inl ⟨_, rfl⟩)
  · split
    · exact .inr (.inr ⟨_, rfl⟩)
    · exact .inl rfl

/-- Between launches, a mutant change leaves the flight as it is. -/
theorem see_mutantChanged {st : LoopState} {o : List (Observer ω)} {c : Cycle}
    {mu : Mutation.Mutant}
    : see (atLoop st) (.call (.emit o ⟨c, .inst (.mutantChanged mu)⟩) () : Step ω)
      = some (atLoop st) := by
  rcases atLoop_cases st with h | ⟨t, h⟩ | ⟨b, h⟩ <;> rw [h] <;> rfl

/-- Between launches, letting go of the stream leaves the flight as it is. -/
theorem see_dropReceiver {st : LoopState} {ch : Nat} {r : Reply Item}
    : see (atLoop st) (.effect (.order (.dropReceiver ch) r) : Step ω) = some (atLoop st) := by
  rcases atLoop_cases st with h | ⟨t, h⟩ | ⟨b, h⟩ <;> rw [h] <;> rfl

/-- The context's end, waited for alone when the fuel is spent, leaves the flight as it is. -/
theorem see_done {st : LoopState} {r : Cancelled}
    : see (atLoop st) (.effect (.await [.done cx] 0 (.done r)) : Step ω) = some (atLoop st) := by
  rcases atLoop_cases st with h | ⟨t, h⟩ | ⟨b, h⟩ <;> rw [h] <;> rfl

/-- The loop's wait of a steady state is on the flight's own branch: it keeps the flight as it
is unless it sees the cycle end or the back-off elapse. -/
theorem see_loopWaits {st : LoopState} {j : Nat} {w : Woke Item} (steady : Steady inst st)
    (running : ∀ o, w ≠ .joined o) (elapsed : w ≠ .elapsed)
    : see (atLoop st) (.effect (.await (loopWaits cx st) j w) : Step ω) = some (atLoop st) := by
  have seen : ∀ t, joins t (loopWaits cx st) j w = false := by
    intro t
    unfold joins
    split
    · rename_i o _
      exact absurd rfl (running o)
    · rfl
  rcases steady with ⟨t, hr, hb⟩ | ⟨hr, b, hb⟩
  · simp only [atLoop, hr]
    simpa [loopWaits, loopSlots, hr, hb] using seen t
  · simp only [atLoop, ofBackoff, hr, hb]
    cases w <;> simp_all [loopWaits, loopSlots]

/-- The loop's wait sees the cycle in flight end. -/
theorem see_loopWaits_joined {st : LoopState} {c : Cycle} {t : Nat} {o : Joined Item}
    (steady : Steady inst st) (hr : st.running = some (c, t))
    : see (atLoop st) (.effect (.await (loopWaits cx st) 2 (.joined o)) : Step ω) = some .idle := by
  obtain ⟨-, hb⟩ := steady.of_running hr
  simp [atLoop, hr, loopWaits, loopSlots, joins, hb]

/-- The loop's wait sees the back-off elapse. -/
theorem see_loopWaits_elapsed {st : LoopState} {b : Nat} (steady : Steady inst st)
    (hb : st.backoff = some b)
    : see (atLoop st) (.effect (.await (loopWaits cx st) 3 .elapsed) : Step ω) = some .idle := by
  have hr := steady.of_backoff hb
  simp [atLoop, ofBackoff, hr, hb, loopWaits, loopSlots]

/-- A mutant change, or the stream let go, leaves the flight as it is. -/
theorem accepts_onMutant {st st' : LoopState} {w : Woke Item} {evs : List (Step ω)}
    (h : (onMutant inst obs st w).Runs evs (.next st'))
    : Accepts see (atLoop st) evs (atLoop st') := by
  rcases runs_onMutant h with ⟨mu, -, rfl, hout⟩ | ⟨es, drop, rfl, hout⟩ <;> cases hout
  · exact Accepts.cons_iff.mpr ⟨_, see_mutantChanged, by simp [atLoop]⟩
  · rcases runs_dropStream drop with ⟨-, rfl⟩ | ⟨ch, r, -, rfl⟩
    · simp [atLoop]
    · exact Accepts.cons_iff.mpr ⟨_, see_dropReceiver, by simp [atLoop]⟩

/-- A result that goes on, from the moment its cycle ended: the context read, the scratch
settled, the result reported. -/
theorem accepts_onResult {st st' : LoopState} {w : Woke Item} {evs : List (Step ω)}
    (h : (onResult files inst cx obs st w).Runs evs (.next st'))
    : Accepts see .idle evs (atLoop st') := by
  obtain ⟨es', r, rest, released, rfl, branch⟩ := runs_onResult h
  rcases branch with ⟨c', -, -, hout⟩ | ⟨-, first, more, res, rfl, settled, reported⟩
  · cases hout
  · obtain ⟨es, rfl, modest, -⟩ := runs_settle settled
    have read : see .idle (.effect (.order (.err cx) r) : Step ω) = some .idle := rfl
    have told := accepts_report (by rfl) reported
    exact (accepts_modest (release_modest _ _ _ released)).append
      (Accepts.cons_iff.mpr ⟨_, read, (accepts_modest modest).append told⟩)

/-- A discarded result stops the loop with nothing in flight. -/
theorem accepts_onResult_stop {st st' : LoopState} {w : Woke Item}
    {r : Except InstanceError Unit} {evs : List (Step ω)} (hb : st.backoff = none)
    (h : (onResult files inst cx obs st w).Runs evs (.stop r st'))
    : Accepts see .idle evs (ofBackoff st'.backoff) := by
  obtain ⟨es, r, rest, released, rfl, branch⟩ := runs_onResult h
  rcases branch with ⟨c', -, rfl, hout⟩ | ⟨-, first, more, res, -, -, reported⟩
  · cases hout
    simp only [ofBackoff, hb]
    exact (accepts_modest (release_modest _ _ _ released)).append rfl
  · rcases runs_report reported with ⟨p, es', t, -, -, -, hout⟩ | ⟨e, clock, armed, -, -, hout⟩
      <;> cases hout

/-- Once the back-off has elapsed, its timer is let go and a cycle launched. -/
theorem accepts_onBackoff {st st' : LoopState} {evs : List (Step ω)}
    (h : (onBackoff files inst cx obs st).Runs evs (.next st'))
    : Accepts see .idle evs (atLoop st') := by
  obtain ⟨es, es', t, dropped, retained, rfl, hout⟩ := runs_onBackoff h
  cases hout
  exact ((accepts_modest (dropBackoff_modest _ _ _ dropped)).append
    (accepts_modest (retain_modest _ _ _ retained))).append rfl

/-- Halting aborts and joins the cycle in flight; an armed back-off stays armed. -/
theorem accepts_halt {st : LoopState} {reason : Cancelled} {evs : List (Step ω)}
    {x : Except InstanceError Unit × LoopState} (steady : Steady inst st)
    (h : (halt obs st reason : Routine (Outcall ω) ω Item _).Runs evs x)
    : Accepts see (atLoop st) evs (ofBackoff x.2.backoff) := by
  obtain ⟨es, aborted, rfl, rfl⟩ := runs_halt h
  rcases runs_abandon aborted with ⟨hr, rfl⟩ | ⟨c, t, r, o, rest, hr, released, rfl⟩
  · simp [atLoop, hr]
  · obtain ⟨-, hb⟩ := steady.of_running hr
    have stopped : Accepts see (atLoop st)
        ([.effect (.order (.abort t) r), .effect (.await [.join t] 0 (.joined o))] : List (Step ω))
        .idle := by
      simp [atLoop, hr, loopSlots, joins]
    simpa [ofBackoff, hb] using stopped.append (accepts_modest (release_modest _ _ _ released))

/-- A turn that goes on moves the flight from where the loop stood to where it stands next. -/
theorem accepts_turn {st st' : LoopState} {evs : List (Step ω)} (steady : Steady inst st)
    (h : (turn files inst cx obs st).Runs evs (.next st'))
    : Accepts see (atLoop st) evs (atLoop st') := by
  obtain ⟨j, w, rest, rfl, branch⟩ := runs_turn h
  rcases branch with ⟨r, x, -, -, -, stop⟩ | ⟨ch, v, -, -, rfl, hm⟩
    | ⟨c, t, o, rfl, hr, rfl, hres⟩ | ⟨b, rfl, hb, rfl, hback⟩
  · cases stop
  · have heard : see (atLoop st) (.effect (.await (loopWaits cx st) j (.received v)) : Step ω)
        = some (atLoop st) := see_loopWaits steady (by simp) (by simp)
    exact Accepts.cons_iff.mpr ⟨_, heard, accepts_onMutant hm⟩
  · exact Accepts.cons_iff.mpr ⟨_, see_loopWaits_joined steady hr, accepts_onResult hres⟩
  · exact Accepts.cons_iff.mpr ⟨_, see_loopWaits_elapsed steady hb, accepts_onBackoff hback⟩

/-- A turn that stops leaves nothing in flight but, maybe, the armed back-off. -/
theorem accepts_turn_stop {st st' : LoopState} {r : Except InstanceError Unit}
    {evs : List (Step ω)} (steady : Steady inst st)
    (h : (turn files inst cx obs st).Runs evs (.stop r st'))
    : Accepts see (atLoop st) evs (ofBackoff st'.backoff) := by
  obtain ⟨j, w, rest, rfl, branch⟩ := runs_turn h
  rcases branch with ⟨reason, x, rfl, rfl, halted, stop⟩ | ⟨ch, v, -, -, -, hm⟩
    | ⟨c, t, o, rfl, hr, rfl, hres⟩ | ⟨b, -, -, -, hback⟩
  · cases stop
    have ended : see (atLoop st) (.effect (.await (loopWaits cx st) 0 (.done reason)) : Step ω)
        = some (atLoop st) := see_loopWaits steady (by simp) (by simp)
    exact Accepts.cons_iff.mpr ⟨_, ended, accepts_halt steady halted⟩
  · rcases runs_onMutant hm with ⟨mu, -, -, hout⟩ | ⟨es, -, -, hout⟩ <;> cases hout
  · have idle := (steady.of_running hr).2
    exact Accepts.cons_iff.mpr ⟨_, see_loopWaits_joined steady hr, accepts_onResult_stop idle hres⟩
  · obtain ⟨es, es', t, -, -, -, hout⟩ := runs_onBackoff hback
    cases hout

/-- Where a run of the loop leaves the flight: no cycle in flight, and the back-off armed if
the loop hands one back. -/
def Landed (f : Flight) (x : Except InstanceError Unit × LoopState) : Prop :=
  f = ofBackoff x.2.backoff

/-- The whole loop, from a steady state: by `loop_moves`, with `Steady` as the invariant and
the flight at the top of the loop as the abstraction. It ends with no cycle in flight. -/
theorem accepts_loop {fuel : Nat} {st : LoopState} {evs : List (Step ω)}
    {x : Except InstanceError Unit × LoopState} (steady : Steady inst st)
    (h : (loop files inst cx obs fuel st).Runs evs x)
    : Accepts see (atLoop st) evs (ofBackoff x.2.backoff) := by
  have moved : ∃ f, Accepts see (atLoop st) evs f ∧ Landed f x :=
    loop_moves Accepts.append (fun steady h => steady.turn h)
      (fun steady h => accepts_turn steady h) (fun steady h => ⟨_, accepts_turn_stop steady h, rfl⟩)
      (fun steady h => ⟨_, Accepts.cons_iff.mpr ⟨_, see_done, accepts_halt steady h⟩, rfl⟩)
      steady h
  obtain ⟨f, accepted, rfl⟩ := moved
  exact accepted

/-- Waiting for the first mutant happens before any cycle, and changes nothing in flight. -/
theorem accepts_firstMutant {m : Machine} {mutants : Option Nat} {evs : List (Step ω)}
    {y : Except Cancelled (Machine × Option Nat)}
    (h : (firstMutant inst cx obs m mutants).Runs evs y) : Accepts see .idle evs .idle := by
  rcases runs_firstMutant h with ⟨-, rfl, -⟩ | ⟨ch, j, w, -, -, taken⟩
  · rfl
  · rcases taken with ⟨r, -, -, rfl, -⟩ | ⟨mu, -, rfl, -⟩ | ⟨got, -, -, r, rfl, -⟩ <;> rfl

/-- The frame around the loop: work before the first launch and after the loop's end, with
nothing in flight, and the loop itself from the first launch. -/
theorem accepts_runLoop {m : Machine} {mutants : Option Nat} {evs : List (Step ω)}
    {x : Except InstanceError Unit × Machine}
    (h : (runLoop files inst cx obs m mutants).Runs evs x) : Accepts see .idle evs .idle := by
  obtain ⟨es, prepared, rest, rfl, prep, branch⟩ := runs_runLoop h
  have prepare : Accepts see .idle (es.map .effect : List (Step ω)) .idle :=
    accepts_modest (createDirs_modest _ _ _ prep)
  rcases branch with ⟨e, dropped, -, drop, rfl, -⟩ | ⟨-, first, y, more, rfl, taken, launched⟩
  · exact prepare.append (accepts_modest (dropStream_modest _ _ _ drop))
  have waited := accepts_firstMutant taken
  rcases launched with ⟨r, dropped, -, drop, rfl, -⟩
    | ⟨m', mutants', t, looped, r, st, es₀, es₁, es₂, -, retained, hloop, drop₁, drop₂, rfl, -⟩
  · exact prepare.append (waited.append (accepts_modest (dropStream_modest _ _ _ drop)))
  -- the first cycle goes in flight, and the loop runs from there
  have started : Accepts see .idle
      (es₀.map .effect ++ [.call (.emit obs ⟨inst.stamp m', .cycle .started⟩) (),
        .effect (.spawn (cycleTask files inst cx (inst.cycleEnv obs m') m'.initialPlan) t)])
      (atLoop ⟨m', mutants', some (inst.stamp m', t), none⟩) :=
    (accepts_modest (retain_modest _ _ _ retained)).append rfl
  have ran := accepts_loop (.inl ⟨t, rfl, rfl⟩) hloop
  -- an armed back-off is let go, and so is the stream
  have released : Accepts see (ofBackoff st.backoff) (es₁.map .effect) .idle := by
    rcases runs_dropBackoff drop₁ with ⟨hb, rfl⟩ | ⟨b, r, hb, rfl⟩
    · simp [hb, ofBackoff]
    · simp [hb, ofBackoff]
  have dropped := accepts_modest (dropStream_modest _ _ _ drop₂)
  simpa only [List.append_assoc] using
    prepare.append (waited.append (started.append (ran.append (released.append dropped))))

/-- Closing happens with nothing in flight and leaves nothing in flight. -/
theorem accepts_close {m : Machine} {automation : Option Automation} {evs : List (Step ω)}
    {z : Except InstanceError Unit} (h : (close inst obs m automation).Runs evs z)
    : Accepts see .idle evs .idle := by
  obtain ⟨closed, es, rfl, modest⟩ := runs_close h
  have shown : Accepts see .idle
      [.call (.emit obs ⟨inst.stamp m, .inst .closed⟩) (),
        .call (.closeStages inst.stages) closed] .idle := rfl
  exact shown.append (accepts_modest modest)

/-- A wait of the loop that the flight allows is on exactly one of the cycle in flight and the
armed back-off. -/
theorem exactly_one_of_see {f f' : Flight} {st : LoopState} {j : Nat} {w : Woke Item}
    (h : see f (.effect (.await (loopWaits cx st) j w) : Step ω) = some f')
    : (st.running.isSome ↔ st.backoff.isNone) := by
  -- the flight reads the loop's wait by its cycle and back-off branches alone
  rcases hr : st.running with _ | ⟨c, t⟩ <;> rcases hb : st.backoff with _ | b <;>
    cases f <;> simp_all [loopWaits, loopSlots]

end Flight

variable {ω : Type} {files : Files ω} {inst : Instance ω} {cx : Context}

open Flight in
/-- Every complete run of an instance keeps at most one cycle in flight: the flight accepts each
of its steps and ends with nothing in flight, so S comes only once the cycle before it has been
joined or its back-off has elapsed, and Closed and the closing of the stages only once the
cycle in flight has been aborted and joined. Every wait of the loop is on exactly one of the
cycle in flight and the armed back-off. -/
theorem one_cycle_in_flight {evs : List (Step ω)} {x : Except InstanceError Unit × Machine}
    (h : (script files inst cx).Runs evs x)
    : Accepts see .idle evs .idle
      ∧ ∀ ws j w, .effect (.await ws j w) ∈ evs → ∀ st, ws = loopWaits cx st
        → (st.running.isSome ↔ st.backoff.isNone) := by
  obtain ⟨es, started, rest, rfl, hs, branch⟩ := runs_script h
  have start : Accepts see .idle (es.map .effect : List (Step ω)) .idle :=
    accepts_modest (startMutation_modest _ _ hs)
  have flown : Accepts see .idle (es.map .effect ++ rest) .idle := by
    rcases branch with ⟨e, y, -, closing, -⟩ | ⟨s, looped, y, closing, z, -, rfl, ran, closed, -⟩
    · exact start.append (accepts_close closing)
    · exact start.append ((accepts_runLoop ran).append (accepts_close closed))
  refine ⟨flown, fun ws j w mem st hws => ?_⟩
  -- each wait of the run is one the flight allows from some state
  obtain ⟨f, f', seen⟩ := flown.step_of_mem mem
  subst hws
  exact exactly_one_of_see seen

/-- The kill-only run launches cycle 1 only once cycle 0 is joined, launches it again only
once its back-off elapsed, and gives it up before it closes. -/
theorem one_cycle_in_flight_killingPair
    : (script Files.alone killingPair .background).Runs killingPairRun
        (.error (.cancelled .cancelled), killingPairLast)
      ∧ Accepts Flight.see .idle killingPairRun .idle
      ∧ ∀ ws j w, .effect (.await ws j w) ∈ killingPairRun
        → ∀ st, ws = loopWaits .background st → (st.running.isSome ↔ st.backoff.isNone) :=
  ⟨runs_script_killingPair, one_cycle_in_flight runs_script_killingPair⟩

end Instance

end Campaign
