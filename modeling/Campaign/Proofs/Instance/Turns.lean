import Campaign.Instance.Run
import Campaign.Proofs.Async.Lives

/-! Every piece of the instance routine is taken apart once here: for each, the steps of its every
run and what it returns, so later proofs never unfold the routine again. A turn of the loop
waits on the loop's waits and takes exactly one branch, and the lemmas say which events that
branch shows, which cycle task it starts and where the loop stands afterwards.
-/

namespace Campaign

namespace Instance

open Async

/-- A step of an instance's run. -/
abbrev Step (ω : Type) := Routine.Event (Outcall ω) ω Item

variable {ω : Type} {files : Files ω} {inst : Instance ω} {cx : Context}
  {obs : List (Observer ω)}

/-- Changing the mutant keeps the machine's stamp. -/
@[simp] theorem stamp_setMutant (m : Machine) (mu : Mutation.Mutant)
    : inst.stamp (m.setMutant mu) = inst.stamp m := rfl

/-- Advancing the machine moves its stamp one iteration on. -/
theorem stamp_advanceCycle (m : Machine)
    : inst.stamp m.advanceCycle = { inst.stamp m with iter := (inst.stamp m).iter + 1 } := rfl

/-! ## Work besides the loop's waits on one thing at a time and arms no timer -/

section Files

variable {P : Effect ω Item → Prop} (waiting : ∀ r, P (.await [.file] 0 r)) (updating : P .touch)
include waiting updating

/-- File work waits for file operations and updates the state, and does nothing else. -/
theorem createDirs_only (l : List Path) : (files.createDirs l).Only P := by
  induction l with
  | nil => exact .pure _
  | cons p rest ih =>
    refine .bind (.file waiting updating) fun r => ?_
    rcases r with e | ⟨⟩
    · exact .pure _
    · exact ih

theorem cleanupScratch_only (p : Pathset) : (files.cleanupScratch p).Only P := by
  refine .bind (.file waiting updating) fun r => ?_
  rcases r with e | ⟨⟩ <;> exact .pure _

end Files

theorem createDirs_modest (l : List Path) : (files.createDirs l).Only Effect.Modest :=
  createDirs_only (fun _ => Nat.le_refl _) trivial l

theorem cleanupScratch_modest (p : Pathset) : (files.cleanupScratch p).Only Effect.Modest :=
  cleanupScratch_only (fun _ => Nat.le_refl _) trivial p

section Automation

variable {P : Effect ω Item → Prop}

/-- Starting the automator makes its channels and signal and spawns its task, and does nothing
else. -/
theorem startMutation_only (made : ∀ n r, P (.order (.channel n) r))
    (signalled : ∀ r, P (.order .signal r)) (spawned : ∀ body t, P (.spawn body t))
    : (startMutation inst cx).Only P := by
  have channel : ∀ n, (Proc.channel n : Proc ω Item Nat).Only P :=
    fun n => .bind (.ask (made n)) fun _ => .pure _
  have started : ∀ {α : Type} (body : Nat → Proc ω Item Item) (g : Nat → Nat → α),
      (Proc.signal >>= fun sig => Proc.start (body sig) >>= fun task => pure (g sig task)).Only P :=
    fun _ _ => .bind (.bind (.ask signalled) fun _ => .pure _) fun _ =>
      .bind (.spawn (spawned _) fun _ => .pure _) fun _ => .pure _
  unfold startMutation
  dsimp only
  split
  · split
    · split
      · exact .pure _
      · refine .bind (channel 1) fun out => ?_
        split
        · exact .bind (.bind (channel 1) fun _ => .pure _) fun _ => started _ _
        · exact .bind (.pure _) fun _ => started _ _
    · exact .pure _
  · exact .pure _

/-- Stopping the automator raises its signal and joins its task, and does nothing else. -/
theorem stopAutomation_only (raised : ∀ s r, P (.order (.raise s) r))
    (joined : ∀ t w, P (.await [.join t] 0 w)) (automation : Option Automation)
    : (stopAutomation automation : Proc ω Item _).Only P := by
  cases automation with
  | none => exact .pure _
  | some a =>
    refine .bind (.bind (.ask (raised _)) fun _ => .pure _) fun _ => ?_
    refine .bind (.bind (.wait (joined _)) fun w => ?_) fun o => ?_
    · cases w <;> exact .pure _
    · cases o <;> exact .pure _

end Automation

/-- Starting the automator makes its channels and signal and spawns its task. -/
theorem startMutation_modest : (startMutation inst cx).Only Effect.Modest :=
  startMutation_only (fun _ _ => trivial) (fun _ => trivial) (fun _ _ => trivial)

section Holds

variable {P : Effect ω Item → Prop}

/-- One order per channel, in turn, does nothing else. -/
theorem forM_orders_only {f : Nat → Proc ω Item Unit} (each : ∀ ch, (f ch).Only P)
    : ∀ l : List Nat, (l.forM f).Only P
  | [] => .pure _
  | ch :: rest => .bind (each ch) fun _ => forM_orders_only each rest

/-- Taking a hold of the observers takes senders, and does nothing else. -/
theorem retain_only (cloned : ∀ ch r, P (.order (.cloneSender ch) r)) (obs : List (Observer ω))
    : (retain obs : Proc ω Item Unit).Only P :=
  forM_orders_only (fun ch => .bind (.ask (cloned ch)) fun _ => .pure _) _

/-- Letting go of a hold of the observers lets go of senders, and does nothing else. -/
theorem release_only (dropped : ∀ ch r, P (.order (.dropSender ch) r)) (obs : List (Observer ω))
    : (release obs : Proc ω Item Unit).Only P :=
  forM_orders_only (fun ch => .bind (.ask (dropped ch)) fun _ => .pure _) _

end Holds

/-- Every effect of taking a hold of the observers takes a sender. -/
theorem retain_clones {es : List (Effect ω Item)} (h : (retain obs : Proc ω Item Unit).Runs es ())
    : ∀ e ∈ es, ∃ ch r, e = .order (.cloneSender ch) r :=
  retain_only (fun ch r => ⟨ch, r, rfl⟩) obs _ _ h

/-- Every effect of letting go of a hold of the observers lets go of a sender. -/
theorem release_drops {es : List (Effect ω Item)} (h : (release obs : Proc ω Item Unit).Runs es ())
    : ∀ e ∈ es, ∃ ch r, e = .order (.dropSender ch) r :=
  release_only (fun ch r => ⟨ch, r, rfl⟩) obs _ _ h

theorem retain_modest (obs : List (Observer ω)) : (retain obs : Proc ω Item Unit).Only Effect.Modest :=
  retain_only (fun _ _ => trivial) obs

theorem release_modest (obs : List (Observer ω)) : (release obs : Proc ω Item Unit).Only Effect.Modest :=
  release_only (fun _ _ => trivial) obs

theorem dropStream_modest (mutants : Option Nat)
    : (dropStream mutants : Proc ω Item Unit).Only Effect.Modest := by
  cases mutants with
  | none => exact .pure _
  | some ch => exact .bind (.ask fun _ => trivial) fun _ => .pure _

theorem dropBackoff_modest (backoff : Option Nat)
    : (dropBackoff backoff : Proc ω Item Unit).Only Effect.Modest := by
  cases backoff with
  | none => exact .pure _
  | some b => exact .bind (.ask fun _ => trivial) fun _ => .pure _


/-- Launching takes a hold of the observers for the cycle's environment, shows `started`
stamped with the machine's iteration and then starts the cycle's task over the machine's
plan. -/
theorem runs_launch {m : Machine} {evs : List (Step ω)} {x : Cycle × Nat}
    (h : (launch files inst cx obs m).Runs evs x)
    : ∃ es t, (retain obs : Proc ω Item Unit).Runs es ()
      ∧ evs = es.map .effect ++ [.call (.emit obs ⟨inst.stamp m, .cycle .started⟩) (),
        .effect (.spawn (cycleTask files inst cx (inst.cycleEnv obs m) m.initialPlan) t)]
      ∧ x = (inst.stamp m, t) := by
  simp only [launch, announce, Routine.bind_eq, Routine.pure_eq, Routine.invoke_bind,
    Routine.lift_bind, Routine.runs_call_iff, Routine.runs_run_iff, Proc.runs_start_iff,
    Routine.runs_pure_iff] at h
  obtain ⟨es, _, _, rfl, retained, _, _, rfl, _, _, t, rfl, rfl, rfl, rfl⟩ := h
  exact ⟨es, t, retained, by simp, rfl⟩

/-- Changing the mutant shows `mutantChanged`, stamped as before, and sets the plan's
mutant. -/
theorem runs_changeMutant {m : Machine} {mu : Mutation.Mutant} {evs : List (Step ω)}
    {m' : Machine} (h : (changeMutant inst obs m mu).Runs evs m')
    : evs = [.call (.emit obs ⟨inst.stamp (m.setMutant mu), .inst (.mutantChanged mu)⟩) ()]
      ∧ m' = m.setMutant mu := by
  simp only [changeMutant, announce, Routine.bind_eq, Routine.pure_eq, Routine.invoke_bind,
    Routine.runs_call_iff, Routine.runs_pure_iff] at h
  obtain ⟨_, _, rfl, rfl, rfl⟩ := h
  exact ⟨rfl, rfl⟩

/-- Giving up the cycle in flight stops its task, waits until it has ended and lets go of its
hold of the observers; with no cycle in flight it does nothing. -/
theorem runs_abandon {running : Option (Cycle × Nat)} {es : List (Effect ω Item)}
    (h : (abandon obs running : Proc ω Item Unit).Runs es ())
    : (running = none ∧ es = [])
      ∨ ∃ c t r o rest, running = some (c, t) ∧ (release obs : Proc ω Item Unit).Runs rest ()
          ∧ es = .order (.abort t) r :: .await [.join t] 0 (.joined o) :: rest := by
  match running with
  | none =>
    left
    exact ⟨rfl, (Proc.runs_pure_iff.mp h).1⟩
  | some (c, t) =>
    right
    simp only [abandon] at h
    obtain ⟨first, rest, _, rfl, stop, wait⟩ := Proc.runs_bind_iff.mp h
    obtain ⟨r, rfl⟩ := Proc.runs_abort_iff.mp stop
    obtain ⟨waited, rest', o, rfl, join, released⟩ := Proc.runs_bind_iff.mp wait
    exact ⟨c, t, r, o, rest', rfl, released, by simp [Proc.runs_join_iff.mp join]⟩

/-- Halting gives up the cycle in flight and stops with the reason the context ended. -/
theorem runs_halt {st : LoopState} {reason : Cancelled} {evs : List (Step ω)}
    {x : Except InstanceError Unit × LoopState}
    (h : (halt obs st reason : Routine (Outcall ω) ω Item _).Runs evs x)
    : ∃ es, (abandon obs st.running : Proc ω Item Unit).Runs es () ∧ evs = es.map .effect
      ∧ x = (.error (.cancelled reason), { st with running := none }) := by
  simp only [halt, Routine.bind_eq, Routine.pure_eq, Routine.lift_bind, Routine.runs_run_iff,
    Routine.runs_pure_iff] at h
  obtain ⟨es, _, _, rfl, hp, rfl, rfl⟩ := h
  exact ⟨es, hp, by simp, rfl⟩

/-- Letting go of the stream drops its receiver, if it is still held. -/
theorem runs_dropStream {mutants : Option Nat} {es : List (Effect ω Item)}
    (h : (dropStream mutants : Proc ω Item Unit).Runs es ())
    : (mutants = none ∧ es = [])
      ∨ ∃ ch r, mutants = some ch ∧ es = [.order (.dropReceiver ch) r] := by
  match mutants with
  | none => exact .inl ⟨rfl, (Proc.runs_pure_iff.mp h).1⟩
  | some ch =>
    obtain ⟨r, rfl⟩ := Proc.runs_dropReceiver_iff.mp h
    exact .inr ⟨ch, r, rfl, rfl⟩

/-- Letting go of the back-off drops its timer, if one is set. -/
theorem runs_dropBackoff {backoff : Option Nat} {es : List (Effect ω Item)}
    (h : (dropBackoff backoff : Proc ω Item Unit).Runs es ())
    : (backoff = none ∧ es = [])
      ∨ ∃ b r, backoff = some b ∧ es = [.order (.dropTimer b) r] := by
  match backoff with
  | none => exact .inl ⟨rfl, (Proc.runs_pure_iff.mp h).1⟩
  | some b =>
    obtain ⟨r, rfl⟩ := Proc.runs_dropTimer_iff.mp h
    exact .inr ⟨b, r, rfl, rfl⟩

/-- The stream branch either applies a received mutant or lets go of the stream. -/
theorem runs_onMutant {st : LoopState} {w : Woke Item} {evs : List (Step ω)} {out : Turn}
    (h : (onMutant inst obs st w).Runs evs out)
    : (∃ mu, w = .received (some (.mutant mu))
        ∧ evs = [.call (.emit obs ⟨inst.stamp (st.machine.setMutant mu),
            .inst (.mutantChanged mu)⟩) ()]
        ∧ out = .next { st with machine := st.machine.setMutant mu })
      ∨ ∃ es, (dropStream st.mutants : Proc ω Item Unit).Runs es () ∧ evs = es.map .effect
          ∧ out = .next { st with mutants := none } := by
  unfold onMutant at h
  split at h
  · rename_i mu
    left
    simp only [Routine.bind_eq, Routine.pure_eq] at h
    obtain ⟨first, rest, m, rfl, change, done⟩ := Routine.runs_bind_iff.mp h
    obtain ⟨rfl, rfl⟩ := runs_changeMutant change
    obtain ⟨rfl, rfl⟩ := Routine.runs_pure_iff.mp done
    exact ⟨mu, rfl, by simp, rfl⟩
  · right
    simp only [Routine.bind_eq, Routine.pure_eq, Routine.lift_bind, Routine.runs_run_iff,
      Routine.runs_pure_iff] at h
    obtain ⟨es, _, _, rfl, hp, rfl, rfl⟩ := h
    exact ⟨es, hp, by simp, rfl⟩

/-- A result is kept only when the context is not done and the cycle was not cancelled. -/
theorem discardReason_eq_none {result : Except CycleError Plan} {ended : Option Cancelled}
    : discardReason result ended = none ↔ ended = none ∧ ∀ c, result ≠ .error (.cancelled c) := by
  unfold discardReason
  split <;> simp_all

/-- A result is discarded for the context's reason when it has one, and otherwise only for the
cycle's own cancellation. -/
theorem discardReason_eq_some {result : Except CycleError Plan} {ended : Option Cancelled}
    {c : Cancelled}
    : discardReason result ended = some c
      ↔ ended = some c ∨ (ended = none ∧ result = .error (.cancelled c)) := by
  unfold discardReason
  split <;> cases ended <;> simp_all

/-- Cleaning up keeps a failure as it is and turns a success into a failure only when the
scratch cannot be removed; its steps are its own. -/
theorem runs_settle {m : Machine} {result res : Except CycleError Plan} {evs : List (Step ω)}
    (h : (settle files m result).Runs evs res)
    : ∃ es : List (Effect ω Item), evs = es.map .effect ∧ (∀ e ∈ es, e.Modest)
      ∧ ((∃ p, result = .ok p ∧ (res = .ok p ∨ ∃ e, res = .error (.cleanup e)))
        ∨ (∃ e, result = .error e ∧ res = .error e)) := by
  match result with
  | .ok p =>
    simp only [settle, Routine.bind_eq, Routine.lift_bind, Routine.runs_run_iff] at h
    obtain ⟨es, rest, b, rfl, cleaned, done⟩ := h
    refine ⟨es, ?_, cleanupScratch_modest _ _ _ cleaned, .inl ⟨p, rfl, ?_⟩⟩
    · cases b <;> simp_all [Routine.runs_pure_iff]
    · cases b <;> simp_all [Routine.runs_pure_iff]
  | .error e =>
    obtain ⟨rfl, rfl⟩ := Routine.runs_pure_iff.mp h
    exact ⟨[], rfl, by simp, .inr ⟨e, rfl, rfl⟩⟩

/-- Reporting a success shows `finished` and launches the next iteration at once; reporting a
failure shows `errored`, reads the clock and arms the back-off for `backoffMs` later. -/
theorem runs_report {st : LoopState} {cycle : Cycle} {result : Except CycleError Plan}
    {evs : List (Step ω)} {out : Turn}
    (h : (report files inst cx obs st cycle result).Runs evs out)
    : (∃ p es t, result = .ok p ∧ (retain obs : Proc ω Item Unit).Runs es ()
        ∧ evs = .call (.emit obs ⟨cycle, .cycle .finished⟩) () :: es.map .effect
          ++ [.call (.emit obs ⟨inst.stamp st.machine.advanceCycle, .cycle .started⟩) (),
            .effect (.spawn (cycleTask files inst cx (inst.cycleEnv obs st.machine.advanceCycle)
              st.machine.advanceCycle.initialPlan) t)]
        ∧ out = .next { st with
            machine := st.machine.advanceCycle
            running := some (inst.stamp st.machine.advanceCycle, t) })
      ∨ (∃ e clock armed, result = .error e
        ∧ evs = [.call (.emit obs ⟨cycle, .cycle (.errored e)⟩) (),
            .effect (.order .now clock), .effect (.order (.timer (clock.asId + backoffMs)) armed)]
        ∧ out = .next { st with backoff := some armed.asId }) := by
  match result with
  | .ok p =>
    left
    simp only [report, announce, Routine.bind_eq, Routine.pure_eq, Routine.invoke_bind,
      Routine.runs_call_iff] at h
    obtain ⟨_, rest, rfl, h⟩ := h
    obtain ⟨first, more, x, rfl, launched, done⟩ := Routine.runs_bind_iff.mp h
    obtain ⟨es, t, retained, rfl, rfl⟩ := runs_launch launched
    obtain ⟨rfl, rfl⟩ := Routine.runs_pure_iff.mp done
    exact ⟨p, es, t, rfl, retained, by simp, rfl⟩
  | .error e =>
    right
    simp only [report, announce, Routine.bind_eq, Routine.pure_eq, Routine.invoke_bind,
      Routine.lift_bind, Routine.runs_call_iff, Routine.runs_run_iff, Proc.runs_now_iff,
      Proc.runs_timer_iff, Routine.runs_pure_iff] at h
    obtain ⟨_, _, rfl, _, _, _, rfl, ⟨clock, rfl, rfl⟩, _, _, _, rfl, ⟨armed, rfl, rfl⟩, rfl,
      rfl⟩ := h
    exact ⟨e, clock, armed, rfl, rfl, rfl⟩

/-- The cycle branch lets go of the cycle's hold of the observers and checks the context; it
stops on a discarded result and otherwise cleans up and reports. -/
theorem runs_onResult {st : LoopState} {w : Woke Item} {evs : List (Step ω)} {out : Turn}
    (h : (onResult files inst cx obs st w).Runs evs out)
    : ∃ es r rest, (release obs : Proc ω Item Unit).Runs es ()
      ∧ evs = es.map .effect ++ .effect (.order (.err cx) r) :: rest
      ∧ ((∃ c, discardReason (outcomeOf w) r.asEnded = some c ∧ rest = []
          ∧ out = .stop (.error (.cancelled c)) { st with running := none })
        ∨ (discardReason (outcomeOf w) r.asEnded = none
          ∧ ∃ first more res, rest = first ++ more
            ∧ (settle files st.machine (outcomeOf w)).Runs first res
            ∧ (report files inst cx obs { st with running := none } (inst.inFlight st) res).Runs
                more out)) := by
  simp only [onResult, Routine.bind_eq, Routine.lift_bind, Routine.runs_run_iff,
    Proc.runs_err_iff] at h
  obtain ⟨es, _, _, rfl, released, _, rest, _, rfl, ⟨r, rfl, rfl⟩, h⟩ := h
  refine ⟨es, r, rest, released, by simp, ?_⟩
  split at h
  · rename_i c hc
    obtain ⟨rfl, rfl⟩ := Routine.runs_pure_iff.mp h
    exact .inl ⟨c, hc, rfl, rfl⟩
  · rename_i hc
    obtain ⟨first, more, res, rfl, settled, reported⟩ := Routine.runs_bind_iff.mp h
    exact .inr ⟨hc, first, more, res, rfl, settled, reported⟩

/-- The back-off branch drops the timer and launches the same iteration again. -/
theorem runs_onBackoff {st : LoopState} {evs : List (Step ω)} {out : Turn}
    (h : (onBackoff files inst cx obs st).Runs evs out)
    : ∃ es es' t, (dropBackoff st.backoff : Proc ω Item Unit).Runs es ()
      ∧ (retain obs : Proc ω Item Unit).Runs es' ()
      ∧ evs = es.map .effect ++ es'.map .effect ++
          [.call (.emit obs ⟨inst.stamp st.machine, .cycle .started⟩) (),
            .effect (.spawn (cycleTask files inst cx (inst.cycleEnv obs st.machine)
              st.machine.initialPlan) t)]
      ∧ out = .next { st with backoff := none, running := some (inst.stamp st.machine, t) } := by
  simp only [onBackoff, Routine.bind_eq, Routine.lift_bind, Routine.runs_run_iff] at h
  obtain ⟨es, rest, _, rfl, dropped, h⟩ := h
  obtain ⟨first, more, x, rfl, launched, done⟩ := Routine.runs_bind_iff.mp h
  obtain ⟨es', t, retained, rfl, rfl⟩ := runs_launch launched
  obtain ⟨rfl, rfl⟩ := Routine.runs_pure_iff.mp done
  exact ⟨es, es', t, dropped, retained, by simp, rfl⟩

/-- The loop's wait ends on the context, on the stream while it is held, on the cycle while
one is in flight, or on the back-off while it is armed, each with its own kind of answer. -/
theorem loopWaits_ends {st : LoopState} {j : Nat} {w : Woke Item}
    (h : Wait.Ends (loopWaits cx st) j w)
    : (∃ r, j = 0 ∧ w = .done r)
      ∨ (∃ ch v, j = 1 ∧ st.mutants = some ch ∧ w = .received v)
      ∨ (∃ c t o, j = 2 ∧ st.running = some (c, t) ∧ w = .joined o)
      ∨ (∃ b, j = 3 ∧ st.backoff = some b ∧ w = .elapsed) := by
  obtain ⟨b, hb, fits⟩ := h
  rcases j with _ | _ | _ | _ | j
  · cases hb
    cases w <;> simp_all [Wait.Fits]
  · cases hm : st.mutants <;> simp only [loopWaits, hm] at hb <;> cases hb <;>
      cases w <;> simp_all [Wait.Fits]
  · rcases hr : st.running with _ | ⟨c, t⟩ <;> simp only [loopWaits, hr] at hb <;> cases hb <;>
      cases w <;> simp_all [Wait.Fits]
  · cases hk : st.backoff <;> simp only [loopWaits, hk] at hb <;> cases hb <;>
      cases w <;> simp_all [Wait.Fits]
  · simp [loopWaits] at hb

/-- A turn waits once on the loop's waits and takes the branch the wait ended on. -/
theorem runs_turn {st : LoopState} {evs : List (Step ω)} {out : Turn}
    (h : (turn files inst cx obs st).Runs evs out)
    : ∃ j w rest, evs = .effect (.await (loopWaits cx st) j w) :: rest
      ∧ ((∃ r x, j = 0 ∧ w = .done r ∧ (halt obs st r : Routine (Outcall ω) ω Item _).Runs rest x
          ∧ out = .stop x.1 x.2)
        ∨ (∃ ch v, j = 1 ∧ st.mutants = some ch ∧ w = .received v
          ∧ (onMutant inst obs st w).Runs rest out)
        ∨ (∃ c t o, j = 2 ∧ st.running = some (c, t) ∧ w = .joined o
          ∧ (onResult files inst cx obs st w).Runs rest out)
        ∨ (∃ b, j = 3 ∧ st.backoff = some b ∧ w = .elapsed
          ∧ (onBackoff files inst cx obs st).Runs rest out)) := by
  simp only [turn, Routine.bind_eq, Routine.lift_bind, Routine.runs_run_iff,
    Proc.runs_select_iff] at h
  obtain ⟨_, rest, x, rfl, ⟨j, w, ends, rfl, rfl⟩, h⟩ := h
  refine ⟨j, w, rest, rfl, ?_⟩
  rcases loopWaits_ends ends with ⟨r, rfl, rfl⟩ | ⟨ch, v, rfl, hm, rfl⟩ | ⟨c, t, o, rfl, hr, rfl⟩
    | ⟨b, rfl, hk, rfl⟩
  · obtain ⟨first, more, x, rfl, halted, done⟩ := Routine.runs_bind_iff.mp h
    obtain ⟨rfl, rfl⟩ := Routine.runs_pure_iff.mp done
    exact .inl ⟨r, x, rfl, rfl, by simpa using halted, rfl⟩
  · exact .inr (.inl ⟨ch, v, rfl, hm, rfl, h⟩)
  · exact .inr (.inr (.inl ⟨c, t, o, rfl, hr, rfl, h⟩))
  · exact .inr (.inr (.inr ⟨b, rfl, hk, rfl, h⟩))

/-- A turn stops only when the context has ended: seen by the loop's wait, which then gives up
the cycle in flight, or found on examining a cycle's result, which is then discarded. Either way
the loop stops cancelled, with no cycle in flight. -/
theorem runs_turn_stop {st st' : LoopState} {r : Except InstanceError Unit} {evs : List (Step ω)}
    (h : (turn files inst cx obs st).Runs evs (.stop r st'))
    : st' = { st with running := none } ∧ ∃ c, r = .error (.cancelled c)
      ∧ ((∃ es, evs = .effect (.await (loopWaits cx st) 0 (.done c)) :: es.map .effect
            ∧ (abandon obs st.running : Proc ω Item Unit).Runs es ())
        ∨ ∃ j w es rep, (release obs : Proc ω Item Unit).Runs es ()
          ∧ evs = .effect (.await (loopWaits cx st) j w) :: es.map .effect
            ++ [.effect (.order (.err cx) rep)]) := by
  obtain ⟨j, w, rest, rfl, branch⟩ := runs_turn h
  rcases branch with ⟨reason, x, rfl, rfl, halted, stop⟩ | ⟨ch, v, -, -, -, hm⟩
    | ⟨c, t, o, -, -, -, hres⟩ | ⟨b, -, -, -, hback⟩
  · obtain ⟨es, aborted, rfl, rfl⟩ := runs_halt halted
    cases stop
    exact ⟨rfl, reason, rfl, .inl ⟨es, rfl, aborted⟩⟩
  · rcases runs_onMutant hm with ⟨_, _, _, hout⟩ | ⟨_, _, _, hout⟩ <;> cases hout
  · obtain ⟨es, rep, rest, released, rfl, branch⟩ := runs_onResult hres
    rcases branch with ⟨c', -, rfl, hout⟩ | ⟨-, first, more, res, -, -, reported⟩
    · cases hout
      exact ⟨rfl, c', rfl, .inr ⟨j, w, es, rep, released, rfl⟩⟩
    · rcases runs_report reported with ⟨_, _, _, _, _, _, hout⟩ | ⟨_, _, _, _, _, hout⟩ <;>
        cases hout
  · obtain ⟨_, _, _, _, _, _, hout⟩ := runs_onBackoff hback
    cases hout

/-- Between turns the loop has exactly one thing of its own to wait for besides the context
and the stream: a cycle in flight, stamped for the current machine, or an armed back-off. -/
def Steady (inst : Instance ω) (st : LoopState) : Prop :=
  (∃ t, st.running = some (inst.stamp st.machine, t) ∧ st.backoff = none)
  ∨ (st.running = none ∧ ∃ b, st.backoff = some b)

theorem Steady.of_running {st : LoopState} {c : Cycle} {t : Nat} (steady : Steady inst st)
    (hr : st.running = some (c, t)) : c = inst.stamp st.machine ∧ st.backoff = none := by
  rcases steady with ⟨t', hr', hb⟩ | ⟨hr', -⟩
  · rw [hr] at hr'
    cases hr'
    exact ⟨rfl, hb⟩
  · simp [hr] at hr'

theorem Steady.of_backoff {st : LoopState} {b : Nat} (steady : Steady inst st)
    (hb : st.backoff = some b) : st.running = none := by
  rcases steady with ⟨t, -, hb'⟩ | ⟨hr, -⟩
  · simp [hb] at hb'
  · exact hr

/-- Every turn that goes on keeps the loop steady: a mutant changes neither the cycle in flight
nor the back-off, a finished cycle is replaced by the next one, a failed one by a back-off, and
an elapsed back-off by a new cycle. -/
theorem Steady.turn {st st' : LoopState} {evs : List (Step ω)} (steady : Steady inst st)
    (h : (turn files inst cx obs st).Runs evs (.next st')) : Steady inst st' := by
  obtain ⟨j, w, rest, -, branch⟩ := runs_turn h
  rcases branch with ⟨r, x, -, -, -, stop⟩ | ⟨ch, v, -, -, -, hm⟩
    | ⟨c, t, o, -, hr, -, hres⟩ | ⟨b, -, hb, -, hback⟩
  · cases stop
  · rcases runs_onMutant hm with ⟨mu, -, -, hout⟩ | ⟨es, -, -, hout⟩ <;> cases hout
    · simpa [Steady] using steady
    · simpa [Steady] using steady
  · have idle := (steady.of_running hr).2
    obtain ⟨es, r, rest, -, -, branch⟩ := runs_onResult hres
    rcases branch with ⟨c', -, -, hout⟩ | ⟨-, first, more, res, -, -, hrep⟩
    · cases hout
    · rcases runs_report hrep with ⟨p, es', t', -, -, -, hout⟩ | ⟨e, clock, armed, -, -, hout⟩
        <;> cases hout
      · exact .inl ⟨t', rfl, idle⟩
      · exact .inr ⟨rfl, _, rfl⟩
  · obtain ⟨es, es', t, -, -, -, hout⟩ := runs_onBackoff hback
    cases hout
    exact .inl ⟨t, rfl, rfl⟩

/-- With no fuel left the loop waits for the context to end and halts. -/
theorem runs_loop_zero {st : LoopState} {evs : List (Step ω)}
    {x : Except InstanceError Unit × LoopState} (h : (loop files inst cx obs 0 st).Runs evs x)
    : ∃ reason rest, evs = .effect (.await [.done cx] 0 (.done reason)) :: rest
      ∧ (halt obs st reason : Routine (Outcall ω) ω Item _).Runs rest x := by
  simp only [loop, Routine.bind_eq, Routine.lift_bind, Routine.runs_run_iff,
    Proc.runs_done_iff] at h
  obtain ⟨_, rest, reason, rfl, rfl, halted⟩ := h
  exact ⟨reason, rest, rfl, halted⟩

/-- What a run of the loop preserves, from what each turn preserves: a relation `Moves`
between abstract states over a run's steps, composed along the run, is carried from the first
turn to the last by induction on the fuel, under an invariant `Inv` that every turn keeps. A
turn that goes on moves from the state's abstraction to the next state's; a turn that stops,
and the end when the fuel is spent, move to a final state. -/
theorem loop_moves {σ : Type} {Moves : σ → List (Step ω) → σ → Prop}
    (trans : ∀ {a b c evs evs'}, Moves a evs b → Moves b evs' c → Moves a (evs ++ evs') c)
    {Inv : LoopState → Prop} {abs : LoopState → σ}
    {Final : σ → Except InstanceError Unit × LoopState → Prop}
    (keeps : ∀ {st st' evs}, Inv st → (turn files inst cx obs st).Runs evs (.next st')
      → Inv st')
    (next : ∀ {st st' evs}, Inv st → (turn files inst cx obs st).Runs evs (.next st')
      → Moves (abs st) evs (abs st'))
    (stop : ∀ {st r st' evs}, Inv st → (turn files inst cx obs st).Runs evs (.stop r st')
      → ∃ s, Moves (abs st) evs s ∧ Final s (r, st'))
    (spent : ∀ {st reason evs x}, Inv st
      → (halt obs st reason : Routine (Outcall ω) ω Item _).Runs evs x
      → ∃ s, Moves (abs st) (.effect (.await [.done cx] 0 (.done reason)) :: evs) s ∧ Final s x)
    : ∀ {fuel st evs x}, Inv st → (loop files inst cx obs fuel st).Runs evs x
      → ∃ s, Moves (abs st) evs s ∧ Final s x := by
  intro fuel
  induction fuel with
  | zero =>
    intro st evs x inv h
    obtain ⟨reason, rest, rfl, halted⟩ := runs_loop_zero h
    exact spent inv halted
  | succ fuel ih =>
    intro st evs x inv h
    simp only [loop, Routine.bind_eq] at h
    obtain ⟨first, rest, out, rfl, turned, after⟩ := Routine.runs_bind_iff.mp h
    cases out with
    | next st' =>
      obtain ⟨s, moves, final⟩ := ih (keeps inv turned) after
      exact ⟨s, trans (next inv turned) moves, final⟩
    | stop r st' =>
      obtain ⟨rfl, rfl⟩ := Routine.runs_pure_iff.mp after
      obtain ⟨s, moved, final⟩ := stop inv turned
      exact ⟨s, by simpa using moved, final⟩

/-- The first mutant is waited for only on a stream: the wait ends on the context, on a
mutant, which is applied, or on anything else, which lets go of the stream. -/
theorem runs_firstMutant {m : Machine} {mutants : Option Nat} {evs : List (Step ω)}
    {x : Except Cancelled (Machine × Option Nat)}
    (h : (firstMutant inst cx obs m mutants).Runs evs x)
    : (mutants = none ∧ evs = [] ∧ x = .ok (m, none))
      ∨ ∃ ch j w, mutants = some ch ∧ Wait.Ends [.done cx, .recv ch] j w
        ∧ ((∃ r, j = 0 ∧ w = .done r
              ∧ evs = [.effect (.await [.done cx, .recv ch] 0 (.done r))] ∧ x = .error r)
          ∨ (∃ mu, w = .received (some (.mutant mu))
              ∧ evs = [.effect (.await [.done cx, .recv ch] j w),
                .call (.emit obs ⟨inst.stamp (m.setMutant mu), .inst (.mutantChanged mu)⟩) ()]
              ∧ x = .ok (m.setMutant mu, some ch))
          ∨ (∃ got, w = .received got ∧ (∀ mu, got ≠ some (.mutant mu))
              ∧ ∃ r, evs = [.effect (.await [.done cx, .recv ch] j w),
                .effect (.order (.dropReceiver ch) r)] ∧ x = .ok (m, none))) := by
  cases mutants with
  | none =>
    obtain ⟨rfl, rfl⟩ := Routine.runs_pure_iff.mp h
    exact .inl ⟨rfl, rfl, rfl⟩
  | some ch =>
    right
    simp only [firstMutant, Routine.bind_eq, Routine.lift_bind, Routine.runs_run_iff,
      Proc.runs_select_iff] at h
    obtain ⟨_, rest, _, rfl, ⟨j, w, ends, rfl, rfl⟩, h⟩ := h
    refine ⟨ch, j, w, rfl, ends, ?_⟩
    cases j with
    | zero =>
      -- the first branch is the context's end
      obtain ⟨b, hb, fits⟩ := ends
      simp only [List.getElem?_cons_zero, Option.some.injEq] at hb
      subst hb
      cases w <;> simp only [Wait.Fits] at fits
      obtain ⟨rfl, rfl⟩ := Routine.runs_pure_iff.mp h
      exact .inl ⟨_, rfl, rfl, rfl, rfl⟩
    | succ j =>
      split at h
      · rename_i heq
        simp at heq
      · rename_i _ mu _ heq
        obtain ⟨-, rfl⟩ := Prod.mk.inj heq
        obtain ⟨first, more, m', rfl, change, done⟩ := Routine.runs_bind_iff.mp h
        obtain ⟨rfl, rfl⟩ := runs_changeMutant change
        obtain ⟨rfl, rfl⟩ := Routine.runs_pure_iff.mp done
        exact .inr (.inl ⟨mu, rfl, rfl, rfl⟩)
      · rename_i other
        -- the second branch is the stream, which ends with what it received
        obtain ⟨got, rfl⟩ : ∃ got, w = .received got := by
          obtain ⟨b, hb, fits⟩ := ends
          rcases j with _ | j
          · cases hb
            cases w <;> simp only [Wait.Fits] at fits
            exact ⟨_, rfl⟩
          · simp at hb
        simp only [Routine.runs_run_iff, Proc.runs_dropReceiver_iff, Routine.pure_eq,
          Routine.runs_pure_iff] at h
        obtain ⟨_, _, _, rfl, ⟨r, rfl⟩, rfl, rfl⟩ := h
        exact .inr (.inr ⟨got, rfl, fun mu hgot => other _ mu (by rw [hgot]), r, rfl, rfl⟩)

/-- The frame around the loop: the saved directories prepared, the first mutant taken, the
first cycle launched and the loop run, then the backoff timer and the stream let go. A failed
preparation, or a context that ends while the first mutant is awaited, lets go of the stream
at once. -/
theorem runs_runLoop {m : Machine} {mutants : Option Nat} {evs : List (Step ω)}
    {x : Except InstanceError Unit × Machine}
    (h : (runLoop files inst cx obs m mutants).Runs evs x)
    : ∃ (es : List (Effect ω Item)) (prepared : Except IoError Unit) (rest : List (Step ω)),
      evs = es.map .effect ++ rest ∧ (files.prepareSaved m.pathset).Runs es prepared
      ∧ ((∃ (e : IoError) (es' : List (Effect ω Item)), prepared = .error e
            ∧ (dropStream mutants).Runs es' () ∧ rest = es'.map .effect
            ∧ x = (.error (.prepare m.id e), m))
        ∨ (prepared = .ok () ∧ ∃ first y more, rest = first ++ more
            ∧ (firstMutant inst cx obs m mutants).Runs first y
            ∧ ((∃ (r : Cancelled) (es' : List (Effect ω Item)), y = .error r
                  ∧ (dropStream mutants).Runs es' () ∧ more = es'.map .effect
                  ∧ x = (.error (.cancelled r), m))
              ∨ ∃ (m' : Machine) (mutants' : Option Nat) (t : Nat) (looped : List (Step ω))
                  (r : Except InstanceError Unit) (st : LoopState)
                  (es₀ es₁ es₂ : List (Effect ω Item)),
                  y = .ok (m', mutants')
                  ∧ (retain obs).Runs es₀ ()
                  ∧ (loop files inst cx obs loopFuel
                      ⟨m', mutants', some (inst.stamp m', t), none⟩).Runs looped (r, st)
                  ∧ (dropBackoff st.backoff).Runs es₁ () ∧ (dropStream st.mutants).Runs es₂ ()
                  ∧ more = es₀.map .effect ++ [.call (.emit obs ⟨inst.stamp m', .cycle .started⟩) (),
                      .effect (.spawn (cycleTask files inst cx (inst.cycleEnv obs m')
                        m'.initialPlan) t)] ++ looped ++ es₁.map .effect ++ es₂.map .effect
                  ∧ x = (r, st.machine)))) := by
  simp only [runLoop, Routine.bind_eq, Routine.lift_bind, Routine.runs_run_iff] at h
  obtain ⟨es, rest, prepared, rfl, prep, h⟩ := h
  refine ⟨es, prepared, rest, rfl, prep, ?_⟩
  cases prepared with
  | error e =>
    simp only [Routine.runs_run_iff, Routine.pure_eq, Routine.runs_pure_iff] at h
    obtain ⟨es', _, _, rfl, drop, rfl, rfl⟩ := h
    exact .inl ⟨e, es', rfl, drop, by simp, rfl⟩
  | ok u =>
    cases u
    refine .inr ⟨rfl, ?_⟩
    obtain ⟨first, more, y, rfl, taken, h⟩ := Routine.runs_bind_iff.mp h
    refine ⟨first, y, more, rfl, taken, ?_⟩
    match y with
    | .error r =>
      simp only [Routine.runs_run_iff, Routine.pure_eq, Routine.runs_pure_iff] at h
      obtain ⟨es', _, _, rfl, drop, rfl, rfl⟩ := h
      exact .inl ⟨r, es', rfl, drop, by simp, rfl⟩
    | .ok (m', mutants') =>
      obtain ⟨launched, more, running, rfl, hl, h⟩ := Routine.runs_bind_iff.mp h
      obtain ⟨es₀, t, retained, rfl, rfl⟩ := runs_launch hl
      obtain ⟨looped, tail, ⟨r, st⟩, rfl, hloop, h⟩ := Routine.runs_bind_iff.mp h
      simp only [Routine.runs_run_iff, Routine.pure_eq, Routine.runs_pure_iff] at h
      obtain ⟨es₁, _, _, rfl, drop₁, es₂, _, _, rfl, drop₂, rfl, rfl⟩ := h
      exact .inr ⟨m', mutants', t, looped, r, st, es₀, es₁, es₂, rfl, retained, hloop, drop₁,
        drop₂, by simp, rfl⟩

/-- Closing shows Closed, then closes the stages; what follows only lets go of the instance's
hold of the observers and stops the automator. -/
theorem runs_close_only {P : Effect ω Item → Prop} (released : ∀ k r, P (.order (.dropSender k) r))
    (raised : ∀ s r, P (.order (.raise s) r)) (joined : ∀ t w, P (.await [.join t] 0 w))
    {m : Machine} {automation : Option Automation} {evs : List (Step ω)}
    {x : Except InstanceError Unit} (h : (close inst obs m automation).Runs evs x)
    : ∃ (closed : Except Cause Unit) (es : List (Effect ω Item)),
      evs = [.call (.emit obs ⟨inst.stamp m, .inst .closed⟩) (),
        .call (.closeStages inst.stages) closed] ++ es.map .effect ∧ ∀ e ∈ es, P e := by
  simp only [close, announce, Routine.bind_eq, Routine.invoke_bind, Routine.runs_call_iff,
    Routine.lift_bind, Routine.runs_run_iff, Routine.pure_eq, Routine.runs_pure_iff] at h
  obtain ⟨_, _, rfl, closed, _, rfl, es₁, _, _, rfl, dropped, es₂, _, _, rfl, stopped, rfl, -⟩ := h
  refine ⟨closed, es₁ ++ es₂, by simp, fun e he => ?_⟩
  rcases List.mem_append.mp he with he | he
  · exact release_only released obs _ _ dropped e he
  · exact stopAutomation_only raised joined _ _ _ stopped e he

/-- Closing shows Closed, then closes the stages; all that follows is the task's own code. -/
theorem runs_close {m : Machine} {automation : Option Automation} {evs : List (Step ω)}
    {x : Except InstanceError Unit}
    (h : (close inst obs m automation).Runs evs x)
    : ∃ (closed : Except Cause Unit) (es : List (Effect ω Item)),
      evs = [.call (.emit obs ⟨inst.stamp m, .inst .closed⟩) (),
        .call (.closeStages inst.stages) closed] ++ es.map .effect ∧ ∀ e ∈ es, e.Modest :=
  runs_close_only (fun _ _ => trivial) (fun _ _ => trivial) (fun _ _ => Nat.le_refl _) h

/-- The whole instance: the automator started, then, unless that fails, the run loop under
the observers it brings; closing comes last either way. -/
theorem runs_script {evs : List (Step ω)} {x : Except InstanceError Unit × Machine}
    (h : (script files inst cx).Runs evs x)
    : ∃ (es : List (Effect ω Item)) (started : Except InstanceError (Option (Automation × Nat)))
      (rest : List (Step ω)), evs = es.map .effect ++ rest ∧ (startMutation inst cx).Runs es started
      ∧ ((∃ e y, started = .error e ∧ (close inst inst.observers inst.machine none).Runs rest y
            ∧ x = (.error e, inst.machine))
        ∨ ∃ s looped y closing z, started = .ok s ∧ rest = looped ++ closing
            ∧ (runLoop files inst cx (observersOf inst cx s) inst.machine
                (s.map (·.2))).Runs looped y
            ∧ (close inst (observersOf inst cx s) y.2 (s.map (·.1))).Runs closing z
            ∧ x = ((match y.1 with | .error e => .error e | .ok () => z), y.2)) := by
  simp only [script, Routine.bind_eq, Routine.lift_bind, Routine.runs_run_iff] at h
  obtain ⟨es, rest, started, rfl, hs, h⟩ := h
  refine ⟨es, started, rest, rfl, hs, ?_⟩
  cases started with
  | error e =>
    obtain ⟨closing, more, y, rfl, hc, h⟩ := Routine.runs_bind_iff.mp h
    obtain ⟨rfl, rfl⟩ := Routine.runs_pure_iff.mp h
    exact .inl ⟨e, y, rfl, by simpa using hc, rfl⟩
  | ok s =>
    obtain ⟨looped, more, ⟨r, m⟩, rfl, hl, h⟩ := Routine.runs_bind_iff.mp h
    obtain ⟨closing, more, z, rfl, hc, h⟩ := Routine.runs_bind_iff.mp h
    obtain ⟨rfl, rfl⟩ := Routine.runs_pure_iff.mp h
    exact .inr ⟨s, looped, (r, m), closing, z, rfl, by simp, hl, hc, rfl⟩

/-- An instance whose mutation test has no mutants, with nothing to watch it. -/
def mutantless : Instance Unit where
  index := 0
  machine :=
    { id := ⟨"m"⟩, initialPlan := { mutation := some { enabled := true } },
      pathset := ⟨⟨"/out"⟩⟩, quantities := {}, config := {} }
  stages := { build := fun _ w => (w, .ok ()), stages := fun _ => [], close := pure (.ok ()) }

end Instance

/-! ## File operations that succeed, in the world -/

namespace Files

open Async

variable {ω : Type} (files : Files ω)

/-- The files as a world of their own: the world is the tree. -/
def alone : Files Tree := ⟨id, fun t _ => t⟩

/-- The world a file operation leaves: the world holding the tree it made, or the world it
found when it fails. -/
def after (g : Tree → Except IoError Tree) (w : ω) : ω :=
  match g (files.get w) with
  | .ok t => files.set t w
  | .error _ => w

/-- The world after making directories one after the other. -/
def afterDirs : List Path → ω → ω
  | [], w => w
  | p :: rest, w => afterDirs rest (files.after (·.createDirAll p) w)

/-- Whether each directory is made in the world the one before it left. -/
def makesDirs : List Path → ω → Bool
  | [], _ => true
  | p :: rest, w =>
    ((files.get w).createDirAll p).isOk && makesDirs rest (files.after (·.createDirAll p) w)

/-- The steps in the world of making directories one after the other. -/
def livedDirs : List Path → ω → List (Lived ω Item)
  | [], _ => []
  | p :: rest, w =>
    .effect (.await [.file] 0 .ready) :: .touched w (files.after (·.createDirAll p) w)
      :: livedDirs rest (files.after (·.createDirAll p) w)

variable {files}

/-- A file operation that succeeds on the tree it finds waits for the files, touches them once
and answers success. -/
theorem lives_run_after {g : Tree → Except IoError Tree} {w : ω}
    (ok : (g (files.get w)).isOk = true)
    : (files.run g).Lives [.effect (.await [.file] 0 .ready), .touched w (files.after g w)]
      (.ok ()) := by
  unfold Files.run
  cases hg : g (files.get w) with
  | error e =>
    rw [hg] at ok
    cases ok
  | ok t => exact Proc.lives_file_iff.mpr ⟨w, by simp [after, hg], by simp [hg]⟩

/-- Directories each made in the world the one before left are made one after the other, by
induction on them. -/
theorem lives_createDirs {l : List Path} {w : ω} (made : files.makesDirs l w = true)
    : (files.createDirs l).Lives (files.livedDirs l w) (.ok ()) := by
  induction l generalizing w with
  | nil => exact .pure _
  | cons p rest ih =>
    simp only [makesDirs, Bool.and_eq_true] at made
    exact Proc.lives_bind_iff.mpr ⟨_, _, _, rfl, lives_run_after made.1, ih made.2⟩

/-- Each step of making directories is a wait for the files or a touch. -/
theorem erase_of_mem_livedDirs {l : List Path} {w : ω} {a : Lived ω Item}
    (mem : a ∈ files.livedDirs l w) : a.erase = .await [.file] 0 .ready ∨ a.erase = .touch := by
  induction l generalizing w with
  | nil => cases mem
  | cons p rest ih =>
    simp only [livedDirs, List.mem_cons] at mem
    rcases mem with rfl | rfl | mem
    · exact .inl rfl
    · exact .inr rfl
    · exact ih mem

/-- Removing a scratch directory that can be removed cleans up. -/
theorem lives_cleanupScratch_after {p : Pathset} {w : ω}
    (ok : ((files.get w).removeDirAll p.scratch).isOk = true)
    : (files.cleanupScratch p).Lives
      [.effect (.await [.file] 0 .ready), .touched w (files.after (·.removeDirAll p.scratch) w)]
      (.ok ()) :=
  Proc.lives_bind_iff.mpr ⟨_, [], _, (List.append_nil _).symm, lives_run_after ok, .pure _⟩

end Files

namespace Instance

open Async

/-! ## A kill-only run with a finished and a failed cycle -/

/-- A mutation test of mutants 7 and 8 whose kills move on. -/
def killPair : Mutation.Config :=
  { enabled := true, ranges := [⟨7, some 9⟩], auto := { changeKill := true } }

/-- An instance over the files alone whose plan is that test, with no observers of its own and
no stages: its stage set builds the first iteration and fails to build any later one. -/
def killingPair : Instance Tree where
  index := 0
  machine :=
    { id := ⟨"m"⟩, initialPlan := { mutation := some killPair },
      pathset := ⟨⟨"/out"⟩⟩, quantities := {}, config := {} }
  stages :=
    { build := fun env w => (w, if env.cycle.iter = 0 then .ok () else .error (.plain "no build")),
      stages := fun _ => [], close := pure (.ok ()) }

/-- The context of its automator and kill observer: the background, stopped by signal 3. -/
def killingPairContext : Context := Context.background.withSignal 3

/-- Its observers: the kill observer of kill input 2 alone. -/
def killingPairObservers : List (Observer Tree) := [killObserver 2 killingPairContext]

/-- Its automator, on stream 1 and kill input 2. -/
def killingPairAutomator : Proc Tree Item Item :=
  (⟨[⟨7⟩, ⟨8⟩], 0, none, true⟩ : Mutation.Automator).run ⟨1, some 2, killingPairContext⟩
    Item.mutant .done

/-- The machine of cycle 0: mutant 7 selected. -/
def killingPairFirst : Machine := killingPair.machine.setMutant ⟨7⟩

/-- The machine once mutant 8 arrived and cycle 0 finished. -/
def killingPairLast : Machine := (killingPairFirst.setMutant ⟨8⟩).advanceCycle

/-- The world once the saved directories are made from the start. -/
def killingPairSaved : Tree := Files.alone.afterDirs killingPair.machine.pathset.savedDirs {}

/-- The world cycle 0 leaves: its scratch directories made as well. -/
def killingPairScratch : Tree :=
  Files.alone.afterDirs killingPair.machine.pathset.scratchDirs killingPairSaved

/-- The instance's steps from taking mutant 7 to asking its context after cycle 0 succeeded:
it launches cycle 0 with a sender of the kill input of its own, and mutant 8 arrives while the
cycle runs. -/
def killingPairEarly : List (Step Tree) :=
  [.effect (.await [.done .background, .recv 1] 1 (.received (some (.mutant ⟨7⟩)))),
    .call (.emit killingPairObservers
      ⟨killingPair.stamp killingPairFirst, .inst (.mutantChanged ⟨7⟩)⟩) (),
    .effect (.order (.cloneSender 2) .unit),
    .call (.emit killingPairObservers ⟨killingPair.stamp killingPairFirst, .cycle .started⟩) (),
    .effect (.spawn (cycleTask Files.alone killingPair .background
      (killingPair.cycleEnv killingPairObservers killingPairFirst) killingPairFirst.initialPlan) 5),
    .effect (.await (loopWaits .background ⟨killingPairFirst, some 1,
      some (killingPair.stamp killingPairFirst, 5), none⟩) 1 (.received (some (.mutant ⟨8⟩)))),
    .call (.emit killingPairObservers
      ⟨killingPair.stamp (killingPairFirst.setMutant ⟨8⟩), .inst (.mutantChanged ⟨8⟩)⟩) (),
    .effect (.await (loopWaits .background ⟨killingPairFirst.setMutant ⟨8⟩, some 1,
      some (killingPair.stamp killingPairFirst, 5), none⟩) 2
      (.joined (.value (.cycle (.ok killingPairFirst.initialPlan))))),
    .effect (.order (.dropSender 2) .unit),
    .effect (.order (.err .background) (.ended none))]

/-- The instance's steps after cycle 0's scratch is removed: Finished, cycle 1 launched and
failing to build, Errored, the back-off, cycle 1 launched again and given up when the context
ends, and closing, which lets go of the kill input and stops the automator. -/
def killingPairLate : List (Step Tree) :=
  [.call (.emit killingPairObservers ⟨killingPair.stamp killingPairFirst, .cycle .finished⟩) (),
    .effect (.order (.cloneSender 2) .unit),
    .call (.emit killingPairObservers ⟨killingPair.stamp killingPairLast, .cycle .started⟩) (),
    .effect (.spawn (cycleTask Files.alone killingPair .background
      (killingPair.cycleEnv killingPairObservers killingPairLast) killingPairLast.initialPlan) 6),
    .effect (.await (loopWaits .background ⟨killingPairLast, some 1,
      some (killingPair.stamp killingPairLast, 6), none⟩) 2
      (.joined (.value (.cycle (.error (.build (.plain "no build"))))))),
    .effect (.order (.dropSender 2) .unit),
    .effect (.order (.err .background) (.ended none)),
    .call (.emit killingPairObservers ⟨killingPair.stamp killingPairLast,
      .cycle (.errored (.build (.plain "no build")))⟩) (),
    .effect (.order .now (.id 1000)),
    .effect (.order (.timer (1000 + backoffMs)) (.id 7)),
    .effect (.await (loopWaits .background ⟨killingPairLast, some 1, none, some 7⟩) 3 .elapsed),
    .effect (.order (.dropTimer 7) .unit),
    .effect (.order (.cloneSender 2) .unit),
    .call (.emit killingPairObservers ⟨killingPair.stamp killingPairLast, .cycle .started⟩) (),
    .effect (.spawn (cycleTask Files.alone killingPair .background
      (killingPair.cycleEnv killingPairObservers killingPairLast) killingPairLast.initialPlan) 8),
    .effect (.await (loopWaits .background ⟨killingPairLast, some 1,
      some (killingPair.stamp killingPairLast, 8), none⟩) 0 (.done .cancelled)),
    .effect (.order (.abort 8) .unit),
    .effect (.await [.join 8] 0 (.joined .aborted)),
    .effect (.order (.dropSender 2) .unit),
    .effect (.order (.dropReceiver 1) .unit),
    .call (.emit killingPairObservers ⟨killingPair.stamp killingPairLast, .inst .closed⟩) (),
    .call (.closeStages killingPair.stages) (.ok ()),
    .effect (.order (.dropSender 2) .unit),
    .effect (.order (.raise 3) .unit),
    .effect (.await [.join 4] 0 (.joined (.value .done)))]

/-- The instance's whole run in the world: the opening, the saved directories made from the
start, and cycle 0's scratch removed from the world it left. -/
def killingPairLived : List (Routine.Lived (Outcall Tree) Tree Item) :=
  ([.effect (.order (.channel 1) (.id 1)), .effect (.order (.channel 1) (.id 2)),
      .effect (.order .signal (.id 3)), .effect (.spawn killingPairAutomator 4)]
    : List (Step Tree)).map .ofEvent
  ++ (Files.alone.livedDirs killingPair.machine.pathset.savedDirs {}).map .own
  ++ killingPairEarly.map .ofEvent
  ++ [.own (.effect (.await [.file] 0 .ready)), .own (.touched killingPairScratch
      (Files.alone.after (·.removeDirAll killingPair.machine.pathset.scratch) killingPairScratch))]
  ++ killingPairLate.map .ofEvent

/-- The same run with the worlds erased. -/
def killingPairRun : List (Step Tree) := killingPairLived.map Routine.Lived.erase

theorem lives_script_killingPair : (script Files.alone killingPair .background).Lives
    killingPairLived (.error (.cancelled .cancelled), killingPairLast) := by
  refine .run (show (startMutation killingPair .background).Lives
      [.effect (.order (.channel 1) (.id 1)), .effect (.order (.channel 1) (.id 2)),
        .effect (.order .signal (.id 3)), .effect (.spawn killingPairAutomator 4)] _
    from .order (.id 1) (.order (.id 2) (.order (.id 3) (.spawn 4 (.pure _))))) ?_
  refine .run (Files.lives_createDirs (by decide +kernel)) ?_
  -- mutant 7 is taken and cycle 0 launched
  refine .run (show Proc.Lives _ [.effect (.await [.done .background, .recv 1] 1
      (.received (some (Item.mutant ⟨7⟩))))] _ from
    .await 1 _ (by exact ⟨_, rfl, trivial⟩) (.pure _)) ?_
  refine .call () ?_
  refine .run (show Proc.Lives _ [.effect (.order (.cloneSender 2) .unit)] () from
    .order .unit (.pure _)) (.call () (.run (.spawn 5 (.pure _)) ?_))
  -- mutant 8 arrives while cycle 0 runs
  refine .run (show Proc.Lives _ [.effect (.await (loopWaits .background ⟨killingPairFirst, some 1,
      some (killingPair.stamp killingPairFirst, 5), none⟩) 1 (.received (some (.mutant ⟨8⟩))))] _
    from .await 1 _ (by exact ⟨_, rfl, trivial⟩) (.pure _)) ?_
  refine .call () ?_
  -- cycle 0 succeeds: its scratch is removed, Finished is shown and cycle 1 launched
  refine .run (show Proc.Lives _ [.effect (.await (loopWaits .background
      ⟨killingPairFirst.setMutant ⟨8⟩, some 1, some (killingPair.stamp killingPairFirst, 5), none⟩) 2
      (.joined (.value (.cycle (.ok killingPairFirst.initialPlan)))))] _
    from .await 2 _ (by exact ⟨_, rfl, trivial⟩) (.pure _)) ?_
  refine .run (show Proc.Lives _ [.effect (.order (.dropSender 2) .unit)] () from
    .order .unit (.pure _)) ?_
  refine .run (show (Proc.err .background : Proc Tree Item _).Lives
      [.effect (.order (.err .background) (.ended none))] none from .order (.ended none) (.pure _)) ?_
  refine .run (Files.lives_cleanupScratch_after (by decide +kernel)) ?_
  refine .call () ?_
  refine .run (show Proc.Lives _ [.effect (.order (.cloneSender 2) .unit)] () from
    .order .unit (.pure _)) (.call () (.run (.spawn 6 (.pure _)) ?_))
  -- cycle 1 fails to build: Errored is shown and the back-off armed
  refine .run (show Proc.Lives _ [.effect (.await (loopWaits .background ⟨killingPairLast, some 1,
      some (killingPair.stamp killingPairLast, 6), none⟩) 2
      (.joined (.value (.cycle (.error (.build (.plain "no build")))))))] _
    from .await 2 _ (by exact ⟨_, rfl, trivial⟩) (.pure _)) ?_
  refine .run (show Proc.Lives _ [.effect (.order (.dropSender 2) .unit)] () from
    .order .unit (.pure _)) ?_
  refine .run (show (Proc.err .background : Proc Tree Item _).Lives
      [.effect (.order (.err .background) (.ended none))] none from .order (.ended none) (.pure _)) ?_
  refine .call () ?_
  refine .run (show (Proc.now : Proc Tree Item Nat).Lives [.effect (.order .now (.id 1000))] 1000
    from .order (.id 1000) (.pure _)) ?_
  refine .run (show (Proc.timer (1000 + backoffMs) : Proc Tree Item Nat).Lives
      [.effect (.order (.timer (1000 + backoffMs)) (.id 7))] 7 from .order (.id 7) (.pure _)) ?_
  -- the back-off elapses and cycle 1 is launched again
  refine .run (show Proc.Lives _ [.effect (.await (loopWaits .background
      ⟨killingPairLast, some 1, none, some 7⟩) 3 .elapsed)] _
    from .await 3 _ (by exact ⟨_, rfl, trivial⟩) (.pure _)) ?_
  refine .run (show Proc.Lives _ [.effect (.order (.dropTimer 7) .unit)] () from
    .order .unit (.pure _)) ?_
  refine .run (show Proc.Lives _ [.effect (.order (.cloneSender 2) .unit)] () from
    .order .unit (.pure _)) (.call () (.run (.spawn 8 (.pure _)) ?_))
  -- the context ends, and the cycle is given up
  refine .run (show Proc.Lives _ [.effect (.await (loopWaits .background ⟨killingPairLast, some 1,
      some (killingPair.stamp killingPairLast, 8), none⟩) 0 (.done .cancelled))] _
    from .await 0 _ (by exact ⟨_, rfl, trivial⟩) (.pure _)) ?_
  refine .run (show Proc.Lives _ [.effect (.order (.abort 8) .unit),
      .effect (.await [.join 8] 0 (.joined .aborted)), .effect (.order (.dropSender 2) .unit)] _
    from .order .unit (.await 0 _ (by exact ⟨_, rfl, trivial⟩) (by exact .order .unit (.pure _))))
    ?_
  refine .run (.pure _) (.run (show Proc.Lives _ [.effect (.order (.dropReceiver 1) .unit)] ()
    from .order .unit (.pure _)) ?_)
  -- closing lets go of the kill input and stops the automator
  refine .call () (.call (Except.ok ()) ?_)
  refine .run (show Proc.Lives _ [.effect (.order (.dropSender 2) .unit)] () from
    .order .unit (.pure _)) ?_
  exact .run (show Proc.Lives _ [.effect (.order (.raise 3) .unit),
      .effect (.await [.join 4] 0 (.joined (.value Item.done)))] _
    from .order .unit (.await 0 _ (by exact ⟨_, rfl, trivial⟩) (.pure _))) (.pure _)

/-- Erasing its worlds, it is a run of the instance. -/
theorem runs_script_killingPair : (script Files.alone killingPair .background).Runs
    killingPairRun (.error (.cancelled .cancelled), killingPairLast) :=
  lives_script_killingPair.runs

end Instance

end Campaign
