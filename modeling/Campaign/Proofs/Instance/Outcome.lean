import Campaign.Proofs.Instance.Lifecycle

/-! An instance never ends well: over every complete run its result is no mutants exactly for a
plan lacking them, otherwise a failure to prepare the saved directories exactly when that
failed, and otherwise a cancellation for a reason its context was seen to give. Failed cycles
are retried and shutdown failures never surface, and Closed is shown and the stages closed
exactly once (`run_result_cases`).
-/

namespace Campaign

open Async

namespace Async

variable {ω ν : Type}

/-- An effect by which a task learns that context `cx` is done for `r`: a wait that ends on
the context with `r`, or the question whether it is done answered with `r`. -/
def Effect.SeesDone (cx : Context) (r : Cancelled) : Effect ω ν → Prop
  | .await ws j (.done r') => ws[j]? = some (.done cx) ∧ r' = r
  | .order (.err cx') rep => cx' = cx ∧ rep.asEnded = some r
  | _ => False

end Async

/-- Whether a plan is a mutation test whose ranges hold no mutant, so that no automator can
start for it. -/
def Plan.lacksMutants (p : Plan) : Bool :=
  match p.mutation with
  | some c => c.enabled && c.mutants.isEmpty
  | none => false

/-- Stages stop for a cancellation only after asking the context and hearing that reason. -/
theorem runStages_cancelled {ω ν : Type} {cx : Context} {stages : List (Stage ω ν)} {plan : Plan}
    {es : List (Effect ω ν)} {r : Cancelled}
    (h : (runStages cx stages plan).Runs es (.error (.cancelled r))) : ∃ e ∈ es, e.SeesDone cx r := by
  induction stages generalizing plan es with
  | nil =>
    simp only [runStages, pure, Proc.runs_pure_iff] at h
    cases h.2
  | cons stage rest ih =>
    simp only [runStages] at h
    obtain ⟨asked, more, ended, rfl, hask, h⟩ := Proc.runs_bind_iff.mp h
    obtain ⟨rep, rfl, rfl⟩ := Proc.runs_err_iff.mp hask
    split at h
    · -- the context had ended: this is the reason returned
      rename_i c hc
      obtain ⟨-, hr⟩ := Proc.runs_pure_iff.mp h
      cases hr
      exact ⟨_, List.mem_cons_self, rfl, hc⟩
    · obtain ⟨ran, later, res, rfl, -, h⟩ := Proc.runs_bind_iff.mp h
      split at h
      · obtain ⟨e, he, sees⟩ := ih h
        exact ⟨e, by simp [he], sees⟩
      · cases (Proc.runs_pure_iff.mp h).2
      · cases (Proc.runs_pure_iff.mp h).2

namespace Instance

variable {ω : Type} {files : Files ω} {inst : Instance ω} {cx : Context} {obs : List (Observer ω)}

/-- A cycle task cancelled for `r` has run its stages and heard `r` from the context. -/
theorem cycleTask_cancelled {env : CycleEnv ω} {plan : Plan} {es : List (Effect ω Item)}
    {r : Cancelled} (h : (cycleTask files inst cx env plan).Runs es (.cycle (.error (.cancelled r))))
    : ∃ e ∈ es, e.SeesDone cx r := by
  unfold cycleTask at h
  obtain ⟨prepared, rest, scratch, rfl, -, h⟩ := Proc.runs_bind_iff.mp h
  split at h
  · cases (Proc.runs_pure_iff.mp h).2
  obtain ⟨built, rest, res, rfl, -, h⟩ := Proc.runs_bind_iff.mp h
  split at h
  · cases (Proc.runs_pure_iff.mp h).2
  obtain ⟨ran, after, result, rfl, hrun, h⟩ := Proc.runs_bind_iff.mp h
  obtain ⟨-, hr⟩ := Proc.runs_pure_iff.mp h
  cases hr
  obtain ⟨e, he, sees⟩ := runStages_cancelled hrun
  exact ⟨e, by simp [he], sees⟩

/-- The only value of a task that reads as a cancelled cycle is that cycle's own result. -/
theorem cycleResult_value_cancelled {v : Item} {r : Cancelled}
    (h : cycleResult (.value v) = .error (.cancelled r)) : v = .cycle (.error (.cancelled r)) := by
  cases v <;> simp_all [cycleResult]

/-- Starting the automator fails exactly when the plan lacks mutants, and then for that. -/
theorem startMutation_yields : (startMutation inst cx).Yields fun started =>
    (inst.machine.initialPlan.lacksMutants = true ∧ started = .error (.mutation .noMutants))
    ∨ (inst.machine.initialPlan.lacksMutants = false ∧ ∃ a, started = .ok a) := by
  unfold startMutation
  dsimp only
  split
  · rename_i config hm
    split
    · rename_i testing
      have enabled : config.enabled = true := by simpa [Plan.isMutationTest, hm] using testing
      unfold Mutation.Automator.ofConfig
      cases hms : config.mutants with
      | nil =>
        -- no mutant: the automator cannot be built
        exact .pure (.inl ⟨by simp [Plan.lacksMutants, hm, enabled, hms], rfl⟩)
      | cons m ms =>
        have present : inst.machine.initialPlan.lacksMutants = false := by
          simp [Plan.lacksMutants, hm, hms]
        -- the stream, then the kill input when kills rotate, the signal and the task
        refine .bind (.any _) fun _ _ => ?_
        split <;> exact .bind (.any _) fun _ _ => .bind (.any _) fun _ _ =>
          .bind (.any _) fun _ _ => .pure (.inr ⟨present, _, rfl⟩)
    · rename_i testing
      have disabled : config.enabled = false := by simpa [Plan.isMutationTest, hm] using testing
      exact .pure (.inr ⟨by simp [Plan.lacksMutants, hm, disabled], _, rfl⟩)
  · rename_i hm
    exact .pure (.inr ⟨by simp [Plan.lacksMutants, hm], _, rfl⟩)

/-! ## Why the loop stops -/

/-- The steps by which the loop learns that it must stop for `r`: its context seen done for
`r`, or the cycle in flight found cancelled for `r`. -/
def StopsFor (cx : Context) (r : Cancelled) (evs : List (Step ω)) : Prop :=
  (∃ e, .effect e ∈ evs ∧ e.SeesDone cx r)
  ∨ ∃ st o, .effect (.await (loopWaits cx st) 2 (.joined o)) ∈ evs
      ∧ cycleResult o = .error (.cancelled r)

theorem StopsFor.mono {r : Cancelled} {l l' : List (Step ω)} (h : StopsFor cx r l)
    (sub : l ⊆ l') : StopsFor cx r l' := by
  rcases h with ⟨e, he, sees⟩ | ⟨st, o, ho, cancelled⟩
  · exact .inl ⟨e, sub he, sees⟩
  · exact .inr ⟨st, o, sub ho, cancelled⟩

/-- A wait on the context first, as the loop's and the first mutant's are, sees it done when
it ends there. -/
theorem seesDone_first {ws : List (Wait Item)} {r : Cancelled}
    : (Effect.await (.done cx :: ws) 0 (.done r) : Effect ω Item).SeesDone cx r :=
  ⟨rfl, rfl⟩

/-- A wait on the context first that ends there tells the loop to stop for the context's
reason, whatever follows. -/
theorem stopsFor_doneWait {ws : List (Wait Item)} {reason : Cancelled} {evs : List (Step ω)}
    : StopsFor cx reason (.effect (.await (.done cx :: ws) 0 (.done reason)) :: evs) :=
  .inl ⟨_, List.mem_cons_self, seesDone_first⟩

/-- A turn stops only for a cancellation, which it has learned of in its own steps: its
wait ended on the context, or the cycle's result was discarded for the context's reason or
for the cycle's own cancellation. -/
theorem turn_stopsFor {st st' : LoopState} {r : Except InstanceError Unit} {evs : List (Step ω)}
    (h : (turn files inst cx obs st).Runs evs (.stop r st'))
    : ∃ c, r = .error (.cancelled c) ∧ StopsFor cx c evs := by
  obtain ⟨j, w, rest, rfl, branch⟩ := runs_turn h
  rcases branch with ⟨c, x, rfl, rfl, halted, stop⟩ | ⟨ch, v, -, -, -, hm⟩
    | ⟨c, t, o, rfl, -, rfl, hres⟩ | ⟨b, -, -, -, hback⟩
  · obtain ⟨es, -, -, rfl⟩ := runs_halt halted
    cases stop
    exact ⟨c, rfl, stopsFor_doneWait⟩
  · rcases runs_onMutant hm with ⟨mu, -, -, hout⟩ | ⟨es, -, -, hout⟩ <;> cases hout
  · obtain ⟨released, rep, rest, -, rfl, branch⟩ := runs_onResult hres
    rcases branch with ⟨c, discarded, rfl, hout⟩ | ⟨-, first, more, res, -, -, reported⟩
    · cases hout
      refine ⟨c, rfl, ?_⟩
      -- the context's own reason when it has one, else the cycle's cancellation
      rcases discardReason_eq_some.mp discarded with ended | ⟨-, cancelled⟩
      · exact .inl ⟨.order (.err cx) rep, by simp, rfl, ended⟩
      · exact .inr ⟨st, o, by simp, cancelled⟩
    · rcases runs_report reported with ⟨p, es, t', -, -, -, hout⟩ | ⟨e, clock, armed, -, -, hout⟩ <;>
        cases hout
  · obtain ⟨es, es', t, -, -, -, hout⟩ := runs_onBackoff hback
    cases hout

/-- The loop ends only with a cancellation it has learned of: by `loop_moves`, no turn but
the last stops, and the last stops as `turn_stopsFor` says, or the spent loop waits for the
context. -/
theorem loop_stopsFor {fuel : Nat} {st : LoopState} {evs : List (Step ω)}
    {x : Except InstanceError Unit × LoopState} (h : (loop files inst cx obs fuel st).Runs evs x)
    : ∃ c, x.1 = .error (.cancelled c) ∧ StopsFor cx c evs := by
  -- the abstract state is the reason the loop stops for, once it has one
  obtain ⟨s, moved, c, rfl, hx⟩ := @loop_moves _ files inst cx obs (Option Cancelled)
    (fun _ evs s => ∀ c, s = some c → StopsFor cx c evs)
    (fun _ later c hc => (later c hc).mono (List.subset_append_right _ _))
    (fun _ => True) (fun _ => none) (fun s x => ∃ c, s = some c ∧ x.1 = .error (.cancelled c))
    (fun _ _ => trivial) (fun _ _ _ hc => nomatch hc)
    (fun _ turned => by
      obtain ⟨c, rfl, stops⟩ := turn_stopsFor turned
      exact ⟨some c, fun c' hc => by cases hc; exact stops, c, rfl, rfl⟩)
    (fun _ halted => by
      obtain ⟨es, -, -, rfl⟩ := runs_halt halted
      exact ⟨some _, fun c hc => by cases hc; exact stopsFor_doneWait, _, rfl, rfl⟩)
    fuel st evs x trivial h
  exact ⟨c, hx, moved c rfl⟩

/-- The frame around the loop ends as the loop does, or earlier: the saved directories are
prepared first, and the run fails to prepare them exactly when that fails; otherwise it stops
for a cancellation it has learned of, while waiting for the first mutant or in the loop. -/
theorem runLoop_stops {m : Machine} {mutants : Option Nat} {evs : List (Step ω)}
    {x : Except InstanceError Unit × Machine} (h : (runLoop files inst cx obs m mutants).Runs evs x)
    : ∃ (es : List (Effect ω Item)) (prepared : Except IoError Unit) (rest : List (Step ω)),
      evs = es.map .effect ++ rest ∧ (files.prepareSaved m.pathset).Runs es prepared
      ∧ ((∃ e, prepared = .error e ∧ x.1 = .error (.prepare m.id e))
        ∨ (prepared = .ok () ∧ ∃ c, x.1 = .error (.cancelled c) ∧ StopsFor cx c rest)) := by
  obtain ⟨es, prepared, rest, rfl, prep, branch⟩ := runs_runLoop h
  refine ⟨es, prepared, rest, rfl, prep, ?_⟩
  rcases branch with ⟨e, -, he, -, -, rfl⟩ | ⟨hp, first, y, more, rfl, taken, launched⟩
  · exact .inl ⟨e, he, rfl⟩
  refine .inr ⟨hp, ?_⟩
  rcases launched with ⟨c, -, rfl, -, -, rfl⟩
    | ⟨m', mutants', t, looped, r, st, es₀, es₁, es₂, -, -, hloop, -, -, rfl, rfl⟩
  · -- the context ended while the first mutant was awaited
    refine ⟨c, rfl, .inl ?_⟩
    rcases runs_firstMutant taken with ⟨-, -, hy⟩ | ⟨ch, j, w, -, -, waited⟩
    · cases hy
    rcases waited with ⟨c', -, -, rfl, hy⟩ | ⟨mu, -, -, hy⟩ | ⟨got, -, -, r, -, hy⟩ <;> cases hy
    exact ⟨.await [.done cx, .recv ch] 0 (.done c), by simp, seesDone_first⟩
  · obtain ⟨c, hc, stops⟩ := loop_stopsFor hloop
    exact ⟨c, hc, stops.mono (by intro s hs; simp [hs])⟩

/-- An instance never ends well: every run of it fails, the run loop's by `runLoop_stops`. -/
theorem script_fails {evs : List (Step ω)} {x : Except InstanceError Unit × Machine}
    (h : (script files inst cx).Runs evs x) : ∃ e, x.1 = .error e := by
  obtain ⟨es, started, rest, -, -, branch⟩ := runs_script h
  rcases branch with ⟨e, y, -, -, rfl⟩ | ⟨s, looped, y, closing, z, -, -, looping, -, rfl⟩
  · exact ⟨e, rfl⟩
  obtain ⟨es, prepared, rest, -, -, outcome⟩ := runLoop_stops looping
  have failed : ∃ e, y.1 = .error e := by
    rcases outcome with ⟨e, -, hy⟩ | ⟨-, c, hy, -⟩
    · exact ⟨_, hy⟩
    · exact ⟨_, hy⟩
  obtain ⟨e, hy⟩ := failed
  exact ⟨e, by simp [hy]⟩

/-- Run as a task, with its calls filled in, an instance fails too. -/
theorem run_fails {es : List (Effect ω Item)} {y : Except InstanceError Unit × Machine}
    (h : (inst.run files cx).Runs es y) : ∃ e, y.1 = .error e := by
  obtain ⟨evs, runs⟩ := Routine.runs_of_toProc h
  exact script_fails runs

/-! ## Counting Closed -/

/-- Whether a step shows the instance closed. -/
def showsClosed : Step ω → Bool
  | .call (.emit _ ⟨_, .inst .closed⟩) _ => true
  | _ => false

/-- Whether a step closes a stage set. -/
def closesStages : Step ω → Bool
  | .call (.closeStages _) _ => true
  | _ => false

section Reads

variable {o : List (Observer ω)} {c : Cycle}

@[simp] theorem showsClosed_effect (e : Effect ω Item) : showsClosed (.effect e) = false := rfl

@[simp] theorem showsClosed_closed : showsClosed (.call (.emit o ⟨c, .inst .closed⟩) ()) = true :=
  rfl

@[simp] theorem showsClosed_closeStages (stages : StageSet ω) (answer : Except Cause Unit)
    : showsClosed (.call (.closeStages stages) answer) = false := rfl

@[simp] theorem closesStages_effect (e : Effect ω Item) : closesStages (.effect e) = false := rfl

@[simp] theorem closesStages_emit (msg : Message)
    : closesStages (.call (.emit o msg) () : Step ω) = false := rfl

@[simp] theorem closesStages_closeStages (stages : StageSet ω) (answer : Except Cause Unit)
    : closesStages (.call (.closeStages stages) answer) = true := rfl

end Reads

/-- Closing shows Closed once and closes the stage set once. -/
theorem close_counts {m : Machine} {automation : Option Automation} {evs : List (Step ω)}
    {z : Except InstanceError Unit} (h : (close inst obs m automation).Runs evs z)
    : evs.countP showsClosed = 1 ∧ evs.countP closesStages = 1 := by
  obtain ⟨closed, es, rfl, -⟩ := runs_close h
  simp [List.countP_cons]

namespace Watch

/-- Once the watch is closed it stays where it is. -/
theorem see_of_closed {n : Cycle} {w' : Watch} {s : Step ω}
    (h : see cx ⟨.closed, n⟩ s = some w') : w' = ⟨.closed, n⟩ := by
  have stays : ∀ e : Effect ω Item, Phase.closed.perform cx e = some .closed :=
    Phase.perform_of_absorbs rfl
  unfold see at h
  split at h <;> simp_all [Phase.mutable, Phase.launches, Phase.closable]

theorem accepts_of_closed {n : Cycle} {w' : Watch} {l : List (Step ω)}
    (h : Accepts (see cx) ⟨.closed, n⟩ l w') : w' = ⟨.closed, n⟩ := by
  induction l with
  | nil => exact (Accepts.nil_iff.mp h).symm
  | cons s l ih =>
    obtain ⟨w₁, seen, rest⟩ := Accepts.cons_iff.mp h
    rw [see_of_closed seen] at rest
    exact ih rest

/-- The watch reads Closed only into its closed phase, and the closing of a stage set only
there. -/
theorem see_closing {w w' : Watch} {s : Step ω} (h : see cx w s = some w')
    : (showsClosed s = true → w'.phase = .closed) ∧ (closesStages s = true → w.phase = .closed) := by
  unfold see at h
  split at h <;> simp_all [showsClosed, closesStages]
  · -- Closed moves the watch to its closed phase
    obtain ⟨-, rfl⟩ := h
    rfl
  · -- a stage set is closed only once the watch is
    obtain ⟨closed, rfl⟩ := h
    exact closed

/-- A stretch that the watch reads without reaching its closed phase shows no Closed and
closes no stage set. -/
theorem quiet_of_accepts {w w' : Watch} {l : List (Step ω)} (h : Accepts (see cx) w l w')
    (still : w'.phase ≠ .closed) : l.countP showsClosed = 0 ∧ l.countP closesStages = 0 := by
  induction l generalizing w with
  | nil => simp
  | cons s l ih =>
    obtain ⟨w₁, seen, rest⟩ := Accepts.cons_iff.mp h
    obtain ⟨shown, closing⟩ := see_closing seen
    -- the watch never closes again, or it would stay closed to the end
    have open₁ : w₁.phase ≠ .closed := by
      obtain ⟨phase, n⟩ := w₁
      rintro (rfl : phase = .closed)
      exact still (by rw [accepts_of_closed rest])
    have unshown : showsClosed s = false := by
      cases hs : showsClosed s
      · rfl
      · exact absurd (shown hs) open₁
    have unclosing : closesStages s = false := by
      cases hs : closesStages s
      · rfl
      · obtain ⟨phase, n⟩ := w
        obtain rfl : phase = .closed := closing hs
        exact absurd (by rw [see_of_closed seen]) open₁
    obtain ⟨none₁, none₂⟩ := ih rest
    simp [unshown, unclosing, none₁, none₂]

end Watch

/-! ## The result -/

/-- The scheduler lets each cycle the loop waits for run to its end: whenever the loop's wait
ends on the cycle in flight, it sees what a complete run of a cycle task of the instance
returned. -/
def CyclesFinish (files : Files ω) (inst : Instance ω) (cx : Context) (evs : List (Step ω)) :
    Prop :=
  ∀ st o, .effect (.await (loopWaits cx st) 2 (.joined o)) ∈ evs →
    ∃ env plan es v, o = .value v ∧ (cycleTask files inst cx env plan).Runs es v

/-- How a run saw its context done for `r`: in a step of its own, or in the complete run of a
cycle task cancelled for `r`, whose end the loop waited for. -/
def SawDone (files : Files ω) (inst : Instance ω) (cx : Context) (r : Cancelled)
    (evs : List (Step ω)) : Prop :=
  ∃ e, e.SeesDone cx r ∧ (.effect e ∈ evs
    ∨ ∃ st env plan es,
      .effect (.await (loopWaits cx st) 2 (.joined (.value (.cycle (.error (.cancelled r)))))) ∈ evs
      ∧ (cycleTask files inst cx env plan).Runs es (.cycle (.error (.cancelled r))) ∧ e ∈ es)

/-- A cancellation the loop stopped for was seen from the context, by the instance or, when
cycles run to their end, by the cycle it waited for. -/
theorem StopsFor.sawDone {r : Cancelled} {evs : List (Step ω)} (stops : StopsFor cx r evs)
    (finish : CyclesFinish files inst cx evs) : SawDone files inst cx r evs := by
  rcases stops with ⟨e, he, sees⟩ | ⟨st, o, ho, cancelled⟩
  · exact ⟨e, sees, .inl he⟩
  · obtain ⟨env, plan, es, v, rfl, ran⟩ := finish st o ho
    obtain rfl := cycleResult_value_cancelled cancelled
    obtain ⟨e, he, sees⟩ := cycleTask_cancelled ran
    exact ⟨e, sees, .inr ⟨st, env, plan, es, ho, ran, he⟩⟩

/-- What the result of a run of the instance tells about the run: the automator could not
start because the plan lacks mutants; or it started, the saved directories were prepared
right after, and the result is the failure to prepare them when that failed, and otherwise a
cancellation for a reason the run saw its context give. -/
def Outcome (files : Files ω) (inst : Instance ω) (cx : Context) (evs : List (Step ω))
    (result : Except InstanceError Unit) : Prop :=
  (inst.machine.initialPlan.lacksMutants = true ∧ result = .error (.mutation .noMutants))
  ∨ (inst.machine.initialPlan.lacksMutants = false
    ∧ ∃ (pre es : List (Effect ω Item)) (post : List (Step ω))
      (started : Option (Automation × Nat)) (prepared : Except IoError Unit),
      evs = pre.map .effect ++ es.map .effect ++ post
      ∧ (startMutation inst cx).Runs pre (.ok started)
      ∧ (files.prepareSaved inst.machine.pathset).Runs es prepared
      ∧ ((∃ e, prepared = .error e ∧ result = .error (.prepare inst.machine.id e))
        ∨ (prepared = .ok () ∧ ∃ r, result = .error (.cancelled r) ∧ SawDone files inst cx r evs)))

/-- The automator's failure is the result exactly when the plan lacks mutants. -/
theorem Outcome.noMutants_iff {evs : List (Step ω)} {result : Except InstanceError Unit}
    (h : Outcome files inst cx evs result)
    : result = .error (.mutation .noMutants) ↔ inst.machine.initialPlan.lacksMutants = true := by
  rcases h with ⟨lacks, rfl⟩ | ⟨present, pre, es, post, started, prepared, -, -, -, ending⟩
  · exact ⟨fun _ => lacks, fun _ => rfl⟩
  · rw [present]
    rcases ending with ⟨e, -, rfl⟩ | ⟨-, r, rfl, -⟩ <;> simp

/-- Every complete run of an instance, under a scheduler that lets the cycles it waits for run
to their end, shows Closed exactly once and closes its stage set exactly once, and ends with a
failure that tells why: no mutants, exactly when the plan lacks them; the saved directories,
exactly when preparing them failed; and otherwise a cancellation for a reason its context was
seen to give. No cycle's failure and no failure to shut down is ever the result. -/
theorem run_result_cases {evs : List (Step ω)} {x : Except InstanceError Unit × Machine}
    (h : (script files inst cx).Runs evs x) (finish : CyclesFinish files inst cx evs)
    : evs.countP showsClosed = 1 ∧ evs.countP closesStages = 1
      ∧ (x.1 = .error (.mutation .noMutants) ↔ inst.machine.initialPlan.lacksMutants = true)
      ∧ Outcome files inst cx evs x.1 := by
  suffices counted : evs.countP showsClosed = 1 ∧ evs.countP closesStages = 1
      ∧ Outcome files inst cx evs x.1 from
    ⟨counted.1, counted.2.1, counted.2.2.noMutants_iff, counted.2.2⟩
  obtain ⟨pre, started, rest, rfl, hs, branch⟩ := runs_script h
  rcases startMutation_yields _ _ hs with ⟨lacks, rfl⟩ | ⟨present, s, rfl⟩
  · -- no automator: the instance closes at once
    rcases branch with ⟨e, y, he, closing, rfl⟩ | ⟨s, -, -, -, -, hs', -⟩
    · cases he
      obtain ⟨shown, closed⟩ := close_counts closing
      exact ⟨by simp [shown], by simp [closed], .inl ⟨lacks, rfl⟩⟩
    · cases hs'
  rcases branch with ⟨e, -, he, -⟩ | ⟨s', looped, y, closing, z, hs', rfl, ran, closed, rfl⟩
  · cases he
  cases hs'
  -- the loop shows no Closed and closes nothing: the watch reads it without closing
  obtain ⟨w, moved, closable, -⟩ := Watch.accepts_runLoop ran
  have still : w.phase ≠ .closed := fun hc => by simp [hc, Phase.closable] at closable
  obtain ⟨quiet₁, quiet₂⟩ := Watch.quiet_of_accepts moved still
  obtain ⟨shown, closedOnce⟩ := close_counts closed
  refine ⟨by simp [quiet₁, shown], by simp [quiet₂, closedOnce], .inr ⟨present, ?_⟩⟩
  obtain ⟨es, prepared, after, rfl, prep, ending⟩ := runLoop_stops ran
  refine ⟨pre, es, after ++ closing, s, prepared, by simp, hs, prep, ?_⟩
  -- the loop's own failure wins over closing's
  rcases ending with ⟨e, he, hy⟩ | ⟨hp, c, hy, stops⟩
  · exact .inl ⟨e, he, by simp [hy]⟩
  · refine .inr ⟨hp, c, by simp [hy], (stops.mono fun step mem => ?_).sawDone finish⟩
    simp [mem]

/-- A cycle task of the kill-only run makes its scratch and builds, which answers `built`;
having no stages, it returns at once. -/
theorem runs_cycleTask_killingPair (m : Machine) (built : Except Cause Unit)
    : (cycleTask Files.alone killingPair .background (killingPair.cycleEnv killingPairObservers m)
        m.initialPlan).Runs
      [.await [.file] 0 .ready, .touch, .await [.file] 0 .ready, .touch, .await [.file] 0 .ready,
        .touch, .touch]
      (.cycle (match built with
        | .ok () => .ok m.initialPlan
        | .error c => .error (.build c))) := by
  refine .await 0 .ready ⟨_, rfl, trivial⟩ (.touch (.ok ()) ?_)
  refine .await 0 .ready ⟨_, rfl, trivial⟩ (.touch (.ok ()) ?_)
  refine .await 0 .ready ⟨_, rfl, trivial⟩ (.touch (.ok ()) (.touch built ?_))
  cases built <;> exact .pure _

/-- The loop of the kill-only run waits for two cycles to end, and each runs to its end: cycle 0
succeeds and cycle 1 fails to build. -/
theorem cyclesFinish_killingPair
    : CyclesFinish Files.alone killingPair .background killingPairRun := by
  intro st o mem
  simp [killingPairRun, killingPairLived, killingPairEarly, killingPairLate] at mem
  rcases mem with ⟨a, made, erased⟩ | ⟨-, rfl⟩ | ⟨-, rfl⟩
  · -- making the saved directories only waits for the files and touches them
    rcases Files.erase_of_mem_livedDirs made with waited | touched
    · rw [waited] at erased
      cases erased
    · rw [touched] at erased
      cases erased
  · exact ⟨_, _, _, _, rfl, runs_cycleTask_killingPair killingPairFirst (.ok ())⟩
  · exact ⟨_, _, _, _, rfl, runs_cycleTask_killingPair killingPairLast (.error (.plain "no build"))⟩

/-- The kill-only run shows Closed once and closes its stages once; it ends cancelled, for the
reason its loop's wait saw the context give. -/
theorem run_result_cases_killingPair
    : (script Files.alone killingPair .background).Runs killingPairRun
        (.error (.cancelled .cancelled), killingPairLast)
      ∧ CyclesFinish Files.alone killingPair .background killingPairRun
      ∧ killingPairRun.countP showsClosed = 1 ∧ killingPairRun.countP closesStages = 1
      ∧ ((.error (.cancelled .cancelled) : Except InstanceError Unit) = .error (.mutation .noMutants)
        ↔ killingPair.machine.initialPlan.lacksMutants = true)
      ∧ Outcome Files.alone killingPair .background killingPairRun (.error (.cancelled .cancelled)) :=
  ⟨runs_script_killingPair, cyclesFinish_killingPair,
    run_result_cases runs_script_killingPair cyclesFinish_killingPair⟩

end Instance

end Campaign
