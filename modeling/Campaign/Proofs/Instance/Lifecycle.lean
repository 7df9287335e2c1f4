import Campaign.Proofs.Instance.Turns

/-! The lifecycle events an instance shows form a word of `M* (S M* (F | E M*))* (S M*)? C`, with
stamps that count the finished cycles. `Watch` reads a run step by step and refuses every step
the lifecycle does not allow there; `lifecycle_watched` shows it accepts every complete run.
-/

namespace Campaign

namespace Instance

open Async

/-- Where an instance stands in the lifecycle its observers see. -/
inductive Phase where
  /-- No cycle has started yet. -/
  | idle
  /-- The cycle stamped `c` is in flight. -/
  | running (c : Cycle)
  /-- The cycle stamped `c` has ended; whether the context has ended is read next. -/
  | arrived (c : Cycle)
  /-- The result of `c` was taken while the context still ran: it may be reported. -/
  | examined (c : Cycle)
  /-- A cycle finished: the next one starts at once. -/
  | relaunching
  /-- A cycle failed: the clock is read next. -/
  | failed
  /-- The failure was reported at time `t`: a timer for `t + backoffMs` is armed next. -/
  | clocked (t : Nat)
  /-- Backing off until timer `b` fires. -/
  | backingOff (b : Nat)
  /-- The back-off is over: the next cycle starts. -/
  | backedOff
  /-- No cycle starts again: only Closed is still to be shown. -/
  | winding
  /-- Closed has been shown. -/
  | closed
  deriving DecidableEq, Repr

namespace Phase

/-- Where the mutant under test may change: before the first cycle and between results. -/
def mutable : Phase → Bool
  | .idle | .running _ | .backingOff _ => true
  | _ => false

/-- Where a cycle may start. -/
def launches : Phase → Bool
  | .idle | .relaunching | .backedOff => true
  | _ => false

/-- Where the instance may close. -/
def closable : Phase → Bool
  | .idle | .examined _ | .winding => true
  | _ => false

/-- Where the instance's own effects leave the phase as it is, whatever they are. -/
def absorbs : Phase → Bool
  | .idle | .examined _ | .backedOff | .winding | .closed => true
  | _ => false

variable {ω : Type}

/-- How an effect of the instance's own code moves the phase, if it may happen there. A cycle
in flight or a back-off ends on the wait that answers for it, and either gives way to the
context's end; a result is examined by reading the context, once the senders the cycle held
are let go of; after an error the clock is read and the back-off armed from it; between F and
the next S only senders are taken for the next cycle. -/
def perform (cx : Context) : Phase → Effect ω Item → Option Phase
  | .running c, .await _ _ (.joined _) => some (.arrived c)
  | .running _, .await _ _ (.done _) => some .winding
  | .running _, .await _ _ .elapsed => none
  | .running c, _ => some (.running c)
  | .arrived c, .order (.dropSender _) _ => some (.arrived c)
  | .arrived c, .order (.err cx') r =>
    if cx' = cx then some (if r.asEnded = none then .examined c else .winding) else none
  | .arrived _, _ => none
  | .relaunching, .order (.cloneSender _) _ => some .relaunching
  | .relaunching, _ => none
  | .failed, .order .now r => some (.clocked r.asId)
  | .failed, _ => none
  | .clocked t, .order (.timer d) r =>
    if d = t + backoffMs then some (.backingOff r.asId) else none
  | .clocked _, _ => none
  | .backingOff b, .await ws j .elapsed =>
    match ws[j]? with
    | some (.timer b') => if b' = b then some .backedOff else none
    | _ => none
  | .backingOff _, .await _ _ (.done _) => some .winding
  | .backingOff _, .await _ _ (.joined _) => none
  | p, _ => some p

theorem perform_of_absorbs {cx : Context} {p : Phase} (hp : p.absorbs) (e : Effect ω Item)
    : p.perform cx e = some p := by
  cases p <;> simp only [absorbs, Bool.false_eq_true] at hp <;> cases e <;> rfl

/-! The moves of the phases that wait, one lemma each, so that no proof unfolds `perform`. -/

section Moves

variable {cx : Context} {c : Cycle} {ws : List (Wait Item)} {j : Nat}

@[simp] theorem perform_idle (e : Effect ω Item) : idle.perform cx e = some idle :=
  perform_of_absorbs rfl e

@[simp] theorem perform_running_joined (o : Joined Item)
    : (running c).perform cx (.await ws j (.joined o) : Effect ω Item) = some (.arrived c) := rfl

@[simp] theorem perform_running_done (r : Cancelled)
    : (running c).perform cx (.await ws j (.done r) : Effect ω Item) = some .winding := rfl

@[simp] theorem perform_running_received (v : Option Item)
    : (running c).perform cx (.await ws j (.received v) : Effect ω Item) = some (.running c) :=
  rfl

@[simp] theorem perform_running_order (o : Order Item) (r : Reply Item)
    : (running c).perform cx (.order o r : Effect ω Item) = some (.running c) := rfl

@[simp] theorem perform_running_spawn (body : Proc ω Item Item) (t : Nat)
    : (running c).perform cx (.spawn body t) = some (.running c) := rfl

@[simp] theorem perform_arrived_err (cx' : Context) (r : Reply Item)
    : (arrived c).perform cx (.order (.err cx') r : Effect ω Item)
      = if cx' = cx then some (if r.asEnded = none then .examined c else .winding) else none :=
  rfl

@[simp] theorem perform_arrived_dropSender (ch : Nat) (r : Reply Item)
    : (arrived c).perform cx (.order (.dropSender ch) r : Effect ω Item) = some (arrived c) :=
  rfl

@[simp] theorem perform_relaunching_cloneSender (ch : Nat) (r : Reply Item)
    : relaunching.perform cx (.order (.cloneSender ch) r : Effect ω Item) = some relaunching :=
  rfl

@[simp] theorem perform_failed_now (r : Reply Item)
    : failed.perform cx (.order .now r : Effect ω Item) = some (.clocked r.asId) := rfl

@[simp] theorem perform_clocked_timer {t : Nat} (d : Nat) (r : Reply Item)
    : (clocked t).perform cx (.order (.timer d) r : Effect ω Item)
      = if d = t + backoffMs then some (.backingOff r.asId) else none := rfl

/-- The back-off ends on the elapsing of its own timer. -/
theorem perform_backingOff_elapsed {b : Nat} (h : ws[j]? = some (.timer b))
    : (backingOff b).perform cx (.await ws j .elapsed : Effect ω Item) = some .backedOff := by
  unfold perform
  simp only [h]
  rfl

@[simp] theorem perform_backingOff_done {b : Nat} (r : Cancelled)
    : (backingOff b).perform cx (.await ws j (.done r) : Effect ω Item) = some .winding := rfl

@[simp] theorem perform_backingOff_received {b : Nat} (v : Option Item)
    : (backingOff b).perform cx (.await ws j (.received v) : Effect ω Item)
      = some (.backingOff b) := rfl

@[simp] theorem perform_backingOff_order {b : Nat} (o : Order Item) (r : Reply Item)
    : (backingOff b).perform cx (.order o r : Effect ω Item) = some (.backingOff b) := rfl

end Moves

end Phase

/-- The watch: where the instance stands, and the stamp its next S or M must carry. -/
structure Watch where
  phase : Phase
  next : Cycle
  deriving DecidableEq, Repr

namespace Watch

variable {ω : Type}

/-- Read one step of an instance's run: a lifecycle event allowed in the phase, with the stamp
it must carry, or an effect of the instance's own code allowed there. F moves the stamp one
iteration on; E may not report a cancellation; C comes once and closes everything but the
stages' own closing. -/
def see (cx : Context) (w : Watch) : Step ω → Option Watch
  | .call (.emit _ ⟨c, .inst (.mutantChanged _)⟩) _ =>
    if c = w.next ∧ w.phase.mutable then some w else none
  | .call (.emit _ ⟨c, .cycle .started⟩) _ =>
    if c = w.next ∧ w.phase.launches then some ⟨.running c, w.next⟩ else none
  | .call (.emit _ ⟨c, .cycle .finished⟩) _ =>
    if w.phase = .examined c then some ⟨.relaunching, { w.next with iter := w.next.iter + 1 }⟩
    else none
  | .call (.emit _ ⟨_, .cycle (.errored (.cancelled _))⟩) _ => none
  | .call (.emit _ ⟨c, .cycle (.errored _)⟩) _ =>
    if w.phase = .examined c then some ⟨.failed, w.next⟩ else none
  | .call (.emit _ ⟨c, .inst .closed⟩) _ =>
    if c = w.next ∧ w.phase.closable then some ⟨.closed, w.next⟩ else none
  | .call (.emit _ _) _ => none
  | .call (.closeStages _) _ => if w.phase = .closed then some w else none
  | .effect e => (w.phase.perform cx e).map (⟨·, w.next⟩)

variable {files : Files ω} {inst : Instance ω} {cx : Context} {obs : List (Observer ω)}

/-! The reading of each kind of step, one lemma each, so that no proof unfolds `see`. -/

section Reads

variable {w : Watch} {c : Cycle}

@[simp] theorem see_effect (e : Effect ω Item)
    : see cx w (.effect e) = (w.phase.perform cx e).map (⟨·, w.next⟩) := rfl

@[simp] theorem see_mutantChanged (mu : Mutation.Mutant)
    : see cx w (.call (.emit obs ⟨c, .inst (.mutantChanged mu)⟩) ())
      = if c = w.next ∧ w.phase.mutable then some w else none := rfl

@[simp] theorem see_started
    : see cx w (.call (.emit obs ⟨c, .cycle .started⟩) ())
      = if c = w.next ∧ w.phase.launches then some ⟨.running c, w.next⟩ else none := rfl

@[simp] theorem see_finished
    : see cx w (.call (.emit obs ⟨c, .cycle .finished⟩) ())
      = if w.phase = .examined c then some ⟨.relaunching, { w.next with iter := w.next.iter + 1 }⟩
        else none := rfl

/-- E is read like F, except that a cancellation is never reported. -/
theorem see_errored {e : CycleError} (he : ∀ r, e ≠ .cancelled r)
    : see cx w (.call (.emit obs ⟨c, .cycle (.errored e)⟩) ())
      = if w.phase = .examined c then some ⟨.failed, w.next⟩ else none := by
  cases e with
  | cancelled r => exact absurd rfl (he r)
  | _ => rfl

@[simp] theorem see_closed
    : see cx w (.call (.emit obs ⟨c, .inst .closed⟩) ())
      = if c = w.next ∧ w.phase.closable then some ⟨.closed, w.next⟩ else none := rfl

@[simp] theorem see_closeStages (stages : StageSet ω) (answer : Except Cause Unit)
    : see cx w (.call (.closeStages stages) answer) = if w.phase = .closed then some w else none :=
  rfl

end Reads

/-! ## The watch over each piece of the routine -/

/-- Where the phase stays whatever the instance's own code does, the watch accepts it all. -/
theorem accepts_effects {p : Phase} (hp : p.absorbs) (n : Cycle) (es : List (Effect ω Item))
    : Accepts (see cx) ⟨p, n⟩ (es.map .effect) ⟨p, n⟩ := by
  induction es with
  | nil => simp
  | cons e es ih => simpa [Phase.perform_of_absorbs hp] using ih

/-- The senders taken for a cycle's environment are allowed wherever a cycle may start. -/
theorem accepts_retain {p : Phase} (hp : p.launches) (n : Cycle) {es : List (Effect ω Item)}
    (h : (retain obs : Proc ω Item Unit).Runs es ())
    : Accepts (see cx) ⟨p, n⟩ (es.map .effect) ⟨p, n⟩ := by
  refine Accepts.of_stays fun s mem => ?_
  obtain ⟨e, he, rfl⟩ := List.mem_map.mp mem
  obtain ⟨ch, r, rfl⟩ := retain_clones h e he
  cases p <;> simp_all [Phase.launches]
  -- the back-off is over: only its own phase reads the order, and keeps it
  rfl

/-- The senders a cycle's environment kept are let go of while its result waits to be
examined. -/
theorem accepts_release (c n : Cycle) {es : List (Effect ω Item)}
    (h : (release obs : Proc ω Item Unit).Runs es ())
    : Accepts (see cx) ⟨.arrived c, n⟩ (es.map .effect) ⟨.arrived c, n⟩ := by
  refine Accepts.of_stays fun s mem => ?_
  obtain ⟨e, he, rfl⟩ := List.mem_map.mp mem
  obtain ⟨ch, r, rfl⟩ := release_drops h e he
  simp

/-- A launch is allowed wherever a cycle may start, and sets the new cycle in flight. -/
theorem accepts_launch {p : Phase} {m : Machine} {evs : List (Step ω)} {x : Cycle × Nat}
    (hp : p.launches) (h : (launch files inst cx obs m).Runs evs x)
    : Accepts (see cx) ⟨p, inst.stamp m⟩ evs ⟨.running (inst.stamp m), inst.stamp m⟩ := by
  obtain ⟨es, t, retained, rfl, rfl⟩ := runs_launch h
  exact (accepts_retain hp _ retained).append (by simp [hp])

/-- Where the watch stands at the top of the loop: with the cycle in flight, or backing off. -/
def atLoop (inst : Instance ω) (st : LoopState) : Watch :=
  ⟨match st.running, st.backoff with
    | some (c, _), _ => .running c
    | none, some b => .backingOff b
    | none, none => .winding, inst.stamp st.machine⟩

/-- Changing the mutant, or losing the stream, leaves the watch where it was. -/
theorem accepts_onMutant {st st' : LoopState} {w : Woke Item} {evs : List (Step ω)}
    (steady : Steady inst st) (h : (onMutant inst obs st w).Runs evs (.next st'))
    : Accepts (see cx) (atLoop inst st) evs (atLoop inst st') := by
  rcases runs_onMutant h with ⟨mu, -, rfl, hout⟩ | ⟨es, drop, rfl, hout⟩ <;> cases hout
  · rcases steady with ⟨t, hr, -⟩ | ⟨hr, b, hb⟩ <;> simp [atLoop, Phase.mutable, *]
  · rcases runs_dropStream drop with ⟨-, rfl⟩ | ⟨ch, r, -, rfl⟩
    · simp [atLoop]
    · rcases steady with ⟨t, hr, -⟩ | ⟨hr, b, hb⟩ <;> simp [atLoop, *]

/-- A reported result: F with the cycle's stamp and the next cycle at once, or E, which is
never a cancellation, then the clock and the back-off armed `backoffMs` after it. -/
theorem accepts_report {st st' : LoopState} {c : Cycle} {res : Except CycleError Plan}
    {evs : List (Step ω)} (hr : st.running = none) (reportable : ∀ r, res ≠ .error (.cancelled r))
    (h : (report files inst cx obs st c res).Runs evs (.next st'))
    : Accepts (see cx) ⟨.examined c, inst.stamp st.machine⟩ evs (atLoop inst st') := by
  rcases runs_report h with ⟨p, es, t, -, retained, rfl, hout⟩ | ⟨e, clock, armed, rfl, rfl, hout⟩
    <;> cases hout
  · have finished : see cx ⟨.examined c, inst.stamp st.machine⟩
        (.call (.emit obs ⟨c, .cycle .finished⟩) () : Step ω)
        = some ⟨.relaunching, inst.stamp st.machine.advanceCycle⟩ := by
      simp [stamp_advanceCycle]
    exact (Accepts.cons_iff.mpr ⟨_, finished, accepts_retain rfl _ retained⟩).append
      (by simp [atLoop, Phase.launches])
  · have he : ∀ r, e ≠ .cancelled r := fun r he => reportable r (by rw [he])
    simp [see_errored he, atLoop, hr]

/-- A result that goes on: the context is read and found running, the scratch settled, and the
result reported under the stamp of the cycle it belongs to. -/
theorem accepts_onResult {st st' : LoopState} {c : Cycle} {t : Nat} {w : Woke Item}
    {evs : List (Step ω)} (hr : st.running = some (c, t))
    (h : (onResult files inst cx obs st w).Runs evs (.next st'))
    : Accepts (see cx) ⟨.arrived c, inst.stamp st.machine⟩ evs (atLoop inst st') := by
  obtain ⟨es', r, rest, released, rfl, branch⟩ := runs_onResult h
  rcases branch with ⟨c', -, -, hout⟩ | ⟨kept, first, more, res, rfl, settled, reported⟩
  · cases hout
  · obtain ⟨ended, uncancelled⟩ := discardReason_eq_none.mp kept
    obtain ⟨es, rfl, -, outcome⟩ := runs_settle settled
    -- a failed clean-up is reported as such; any other error is the cycle's own
    have reportable : ∀ r, res ≠ .error (.cancelled r) := by
      intro r hres
      rcases outcome with ⟨p, -, rfl | ⟨e, rfl⟩⟩ | ⟨e, he, rfl⟩
      · cases hres
      · cases hres
      · exact uncancelled r (by rw [he, hres])
    have read : see cx ⟨.arrived c, inst.stamp st.machine⟩ (.effect (.order (.err cx) r) : Step ω)
        = some ⟨.examined c, inst.stamp st.machine⟩ := by
      simp [ended]
    have inFlight : inst.inFlight st = c := by simp [inFlight, hr]
    rw [inFlight] at reported
    have told := accepts_report (by rfl) reportable reported
    exact (accepts_release _ _ released).append
      (Accepts.cons_iff.mpr ⟨_, read, (accepts_effects rfl _ es).append told⟩)

/-- A result that stops the loop is discarded: the context had ended, or the cycle was
cancelled. Either way the instance may close next. -/
theorem accepts_onResult_stop {st st' : LoopState} {c : Cycle} {w : Woke Item}
    {r : Except InstanceError Unit} {evs : List (Step ω)}
    (h : (onResult files inst cx obs st w).Runs evs (.stop r st'))
    : ∃ w', Accepts (see cx) ⟨.arrived c, inst.stamp st.machine⟩ evs w'
      ∧ w'.phase.closable ∧ w'.next = inst.stamp st'.machine := by
  obtain ⟨es, r, rest, released, rfl, branch⟩ := runs_onResult h
  rcases branch with ⟨c', -, rfl, hout⟩ | ⟨-, first, more, res, -, -, reported⟩
  · cases hout
    have letGo : Accepts (see cx) ⟨.arrived c, inst.stamp st.machine⟩ (es.map .effect)
        ⟨.arrived c, inst.stamp st.machine⟩ := accepts_release c (inst.stamp st.machine) released
    by_cases ended : r.asEnded = none
    · exact ⟨⟨.examined c, inst.stamp st.machine⟩, letGo.append (by simp [ended]), rfl, rfl⟩
    · exact ⟨⟨.winding, inst.stamp st.machine⟩, letGo.append (by simp [ended]), rfl, rfl⟩
  · rcases runs_report reported with ⟨p, es', t, -, -, -, hout⟩ | ⟨e, clock, armed, -, -, hout⟩
      <;> cases hout

/-- Once the back-off has elapsed, its timer is let go and the same iteration starts again. -/
theorem accepts_onBackoff {st st' : LoopState} {evs : List (Step ω)}
    (h : (onBackoff files inst cx obs st).Runs evs (.next st'))
    : Accepts (see cx) ⟨.backedOff, inst.stamp st.machine⟩ evs (atLoop inst st') := by
  obtain ⟨es, es', t, -, -, rfl, hout⟩ := runs_onBackoff h
  cases hout
  exact ((accepts_effects rfl _ es).append (accepts_effects rfl _ es')).append
    (by simp [atLoop, Phase.launches])

/-- The context's end, wherever the loop waits, leaves only closing to do. -/
theorem see_done {st : LoopState} {ws : List (Wait Item)} {j : Nat} {r : Cancelled}
    (steady : Steady inst st)
    : see cx (atLoop inst st) (.effect (.await ws j (.done r)) : Step ω)
      = some ⟨.winding, inst.stamp st.machine⟩ := by
  rcases steady with ⟨t, hr, -⟩ | ⟨hr, b, hb⟩ <;> simp [atLoop, *]

/-- Halting after the context's end aborts and joins the cycle in flight, in the wind-down. -/
theorem accepts_halt {st : LoopState} {reason r : Cancelled} {ws : List (Wait Item)} {j : Nat}
    {evs : List (Step ω)} {x : Except InstanceError Unit × LoopState} (steady : Steady inst st)
    (h : (halt obs st reason : Routine (Outcall ω) ω Item _).Runs evs x)
    : Accepts (see cx) (atLoop inst st) (.effect (.await ws j (.done r)) :: evs)
        ⟨.winding, inst.stamp x.2.machine⟩ := by
  obtain ⟨es, -, rfl, rfl⟩ := runs_halt h
  exact Accepts.cons_iff.mpr ⟨_, see_done steady, accepts_effects rfl _ es⟩

/-- A turn that goes on moves the watch from where the loop stood to where it stands next: the
wait ends on the stream, on the cycle in flight or on the back-off, and that branch runs. -/
theorem accepts_turn {st st' : LoopState} {evs : List (Step ω)} (steady : Steady inst st)
    (h : (turn files inst cx obs st).Runs evs (.next st'))
    : Accepts (see cx) (atLoop inst st) evs (atLoop inst st') := by
  obtain ⟨j, w, rest, rfl, branch⟩ := runs_turn h
  rcases branch with ⟨r, x, -, -, -, stop⟩ | ⟨ch, v, rfl, -, rfl, hm⟩
    | ⟨c, t, o, rfl, hr, rfl, hres⟩ | ⟨b, rfl, hb, rfl, hback⟩
  · cases stop
  · have heard : see cx (atLoop inst st) (.effect (.await (loopWaits cx st) 1 (.received v)) : Step ω)
        = some (atLoop inst st) := by
      rcases steady with ⟨t, hr, -⟩ | ⟨hr, b, hb⟩ <;> simp [atLoop, *]
    exact Accepts.cons_iff.mpr ⟨_, heard, accepts_onMutant steady hm⟩
  · obtain ⟨rfl, -⟩ := steady.of_running hr
    have joined : see cx (atLoop inst st) (.effect (.await (loopWaits cx st) 2 (.joined o)) : Step ω)
        = some ⟨.arrived (inst.stamp st.machine), inst.stamp st.machine⟩ := by
      simp [atLoop, hr]
    exact Accepts.cons_iff.mpr ⟨_, joined, accepts_onResult hr hres⟩
  · have hr := steady.of_backoff hb
    have elapsed : see cx (atLoop inst st) (.effect (.await (loopWaits cx st) 3 .elapsed) : Step ω)
        = some ⟨.backedOff, inst.stamp st.machine⟩ := by
      have timer : (loopWaits cx st)[3]? = some (.timer b) := by simp [loopWaits, hr, hb]
      simp [atLoop, hr, hb, Phase.perform_backingOff_elapsed timer]
    exact Accepts.cons_iff.mpr ⟨_, elapsed, accepts_onBackoff hback⟩

/-- A turn that stops leaves the watch where the instance may close, with the stamp of the
machine the loop hands back. -/
theorem accepts_turn_stop {st st' : LoopState} {r : Except InstanceError Unit}
    {evs : List (Step ω)} (steady : Steady inst st)
    (h : (turn files inst cx obs st).Runs evs (.stop r st'))
    : ∃ w, Accepts (see cx) (atLoop inst st) evs w
      ∧ w.phase.closable ∧ w.next = inst.stamp st'.machine := by
  obtain ⟨j, w, rest, rfl, branch⟩ := runs_turn h
  rcases branch with ⟨r, x, -, rfl, halted, stop⟩ | ⟨ch, v, -, -, -, hm⟩
    | ⟨c, t, o, rfl, hr, rfl, hres⟩ | ⟨b, -, -, -, hback⟩
  · cases stop
    exact ⟨_, accepts_halt steady halted, rfl, rfl⟩
  · rcases runs_onMutant hm with ⟨mu, -, -, hout⟩ | ⟨es, -, -, hout⟩ <;> cases hout
  · obtain ⟨rfl, -⟩ := steady.of_running hr
    obtain ⟨w, moved, closable, stamped⟩ := accepts_onResult_stop hres
    have joined : see cx (atLoop inst st) (.effect (.await (loopWaits cx st) 2 (.joined o)) : Step ω)
        = some ⟨.arrived (inst.stamp st.machine), inst.stamp st.machine⟩ := by
      simp [atLoop, hr]
    exact ⟨w, Accepts.cons_iff.mpr ⟨_, joined, moved⟩, closable, stamped⟩
  · obtain ⟨es, es', t, -, -, -, hout⟩ := runs_onBackoff hback
    cases hout

/-- Where the instance may close, its own effects change nothing. -/
theorem Phase.absorbs_of_closable {p : Phase} (hp : p.closable) : p.absorbs := by
  cases p <;> simp_all [Phase.closable, Phase.absorbs]

/-- Where a run of the loop leaves the watch: the instance may close, and the next stamp is
that of the machine the loop hands back. -/
def Closing (inst : Instance ω) (w : Watch) (x : Except InstanceError Unit × LoopState) : Prop :=
  w.phase.closable ∧ w.next = inst.stamp x.2.machine

/-- The whole loop, from a steady state: by `loop_moves`, with `Steady` as the invariant and
the watch at the top of the loop as the abstraction. -/
theorem accepts_loop {fuel : Nat} {st : LoopState} {evs : List (Step ω)}
    {x : Except InstanceError Unit × LoopState} (steady : Steady inst st)
    (h : (loop files inst cx obs fuel st).Runs evs x)
    : ∃ w, Accepts (see cx) (atLoop inst st) evs w ∧ Closing inst w x :=
  loop_moves Accepts.append (fun steady h => steady.turn h) (fun steady h => accepts_turn steady h)
    (fun steady h => accepts_turn_stop steady h)
    (fun steady h => ⟨_, accepts_halt steady h, rfl, rfl⟩) steady h

/-- Waiting for the first mutant shows at most an M, stamped for the machine, before any cycle;
the machine it hands on keeps the stamp. -/
theorem accepts_firstMutant {m : Machine} {mutants : Option Nat} {evs : List (Step ω)}
    {y : Except Cancelled (Machine × Option Nat)}
    (h : (firstMutant inst cx obs m mutants).Runs evs y)
    : Accepts (see cx) ⟨.idle, inst.stamp m⟩ evs ⟨.idle, inst.stamp m⟩
      ∧ ∀ m' mutants', y = .ok (m', mutants') → inst.stamp m' = inst.stamp m := by
  rcases runs_firstMutant h with ⟨-, rfl, rfl⟩ | ⟨ch, j, w, -, -, taken⟩
  · simp
  · rcases taken with ⟨r, -, -, rfl, rfl⟩ | ⟨mu, -, rfl, rfl⟩ | ⟨got, -, -, r, rfl, rfl⟩
    · simp
    · simp [Phase.mutable]
    · simp

/-- The frame around the loop: nothing but M before the first S, and the loop's own end
followed only by letting go of the timer and the stream. -/
theorem accepts_runLoop {m : Machine} {mutants : Option Nat} {evs : List (Step ω)}
    {x : Except InstanceError Unit × Machine}
    (h : (runLoop files inst cx obs m mutants).Runs evs x)
    : ∃ w, Accepts (see cx) ⟨.idle, inst.stamp m⟩ evs w
      ∧ w.phase.closable ∧ w.next = inst.stamp x.2 := by
  obtain ⟨es, prepared, rest, rfl, -, branch⟩ := runs_runLoop h
  have prepare : Accepts (see cx) ⟨.idle, inst.stamp m⟩ (es.map .effect) ⟨.idle, inst.stamp m⟩ :=
    accepts_effects rfl _ es
  rcases branch with ⟨e, dropped, -, -, rfl, rfl⟩ | ⟨-, first, y, more, rfl, taken, launched⟩
  · exact ⟨_, prepare.append (accepts_effects rfl _ dropped), rfl, rfl⟩
  obtain ⟨waited, keeps⟩ := accepts_firstMutant taken
  rcases launched with ⟨r, dropped, -, -, rfl, rfl⟩
    | ⟨m', mutants', t, looped, r, st, es₀, es₁, es₂, rfl, -, hloop, -, -, rfl, rfl⟩
  · exact ⟨_, prepare.append (waited.append (accepts_effects rfl _ dropped)), rfl, rfl⟩
  -- cycle 0 starts under the stamp the first mutant kept, and the loop runs from there
  have stamp := keeps m' mutants' rfl
  have started : Accepts (see cx) ⟨.idle, inst.stamp m⟩
      (es₀.map .effect ++ [.call (.emit obs ⟨inst.stamp m', .cycle .started⟩) (),
        .effect (.spawn (cycleTask files inst cx (inst.cycleEnv obs m') m'.initialPlan) t)])
      (atLoop inst ⟨m', mutants', some (inst.stamp m', t), none⟩) :=
    (accepts_effects rfl _ es₀).append (by simp [atLoop, Phase.launches, stamp])
  obtain ⟨w, ran, closable, stamped⟩ := accepts_loop (.inl ⟨t, rfl, rfl⟩) hloop
  have absorbs := Phase.absorbs_of_closable closable
  have dropped : Accepts (see cx) w (es₁.map .effect ++ es₂.map .effect) w := by
    simpa using (accepts_effects absorbs w.next es₁).append (accepts_effects absorbs w.next es₂)
  refine ⟨w, ?_, closable, stamped⟩
  simpa only [List.append_assoc] using
    prepare.append (waited.append (started.append (ran.append dropped)))

/-- Closing shows C with the machine's stamp wherever the instance may close, and nothing of
the lifecycle after it. -/
theorem accepts_close {p : Phase} {m : Machine} {automation : Option Automation}
    {evs : List (Step ω)} {z : Except InstanceError Unit} (hp : p.closable)
    (h : (close inst obs m automation).Runs evs z)
    : Accepts (see cx) ⟨p, inst.stamp m⟩ evs ⟨.closed, inst.stamp m⟩ := by
  obtain ⟨closed, es, rfl, -⟩ := runs_close h
  have shown : Accepts (see cx) ⟨p, inst.stamp m⟩
      [.call (.emit obs ⟨inst.stamp m, .inst .closed⟩) (),
        .call (.closeStages inst.stages) closed] ⟨.closed, inst.stamp m⟩ := by
    simp [hp]
  exact shown.append (accepts_effects rfl _ es)

end Watch

variable {ω : Type} {files : Files ω} {inst : Instance ω} {cx : Context}

open Watch in
/-- Every complete run of an instance shows its observers a well-formed lifecycle: the watch
accepts each of its steps, from before the first cycle, where S and M carry the machine's own
stamp, to C, stamped with the machine the run hands back. -/
theorem lifecycle_watched {evs : List (Step ω)} {x : Except InstanceError Unit × Machine}
    (h : (script files inst cx).Runs evs x)
    : Accepts (see cx) ⟨.idle, inst.stamp inst.machine⟩ evs ⟨.closed, inst.stamp x.2⟩ := by
  obtain ⟨es, started, rest, rfl, -, branch⟩ := runs_script h
  have start : Accepts (see cx) ⟨.idle, inst.stamp inst.machine⟩ (es.map .effect)
      ⟨.idle, inst.stamp inst.machine⟩ := accepts_effects rfl _ es
  rcases branch with ⟨e, y, -, closing, rfl⟩ | ⟨s, looped, y, closing, z, -, rfl, ran, closed, rfl⟩
  · exact start.append (accepts_close rfl closing)
  · -- the loop hands over where the instance may close, under the stamp of its machine
    obtain ⟨⟨phase, next⟩, moved, closable, stamped⟩ := accepts_runLoop ran
    subst stamped
    simpa only [List.append_assoc] using (start.append moved).append (accepts_close closable closed)

/-- The kill-only run shows M S M F S E S C: mutant 7, cycle 0 started, mutant 8 while it
runs, cycle 0 finished and cycle 1 started at once, cycle 1 errored, started again after the
back-off, and closed under cycle 1's stamp. -/
theorem lifecycle_watched_killingPair
    : (script Files.alone killingPair .background).Runs killingPairRun
        (.error (.cancelled .cancelled), killingPairLast)
      ∧ Accepts (Watch.see .background) ⟨.idle, killingPair.stamp killingPair.machine⟩
        killingPairRun ⟨.closed, killingPair.stamp killingPairLast⟩ :=
  ⟨runs_script_killingPair, lifecycle_watched runs_script_killingPair⟩

end Instance

end Campaign
