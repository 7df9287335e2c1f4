import Campaign.Proofs.Async.Runs
import Campaign.Proofs.Mutation.Findings
import Campaign.Command.Stages

/-! The progress a stage shows through a list of items, `Progress.through items k`: the start with
their number, one step per item got through, and the end once all are. Every run of a stage
shows what `CommandStages.Shows` lists for its kind, stamped with its cycle
(`run_shows_progress`).
-/

namespace Campaign

open Async

/-- The progress through `items`, the first `k` of them got through: nothing when there are no
items; otherwise the start with their number, a step for each of the first `k`, numbered from 0
in order, and the end once all are. -/
def Progress.through {α : Type} (items : List α) (k : Nat) : List (Progress α) :=
  if items.isEmpty then []
  else .start items.length :: ((items.take k).zipIdx.map fun p => .step p.2 p.1) ++
    if k = items.length then [.done] else []

/-- Progress through items shown by a view of each: the steps show the views. -/
theorem Progress.through_map {α β : Type} (f : α → β) (items : List α) (k : Nat) :
    Progress.through (items.map f) k =
      if items.isEmpty then []
      else .start items.length :: ((items.take k).zipIdx.map fun p => .step p.2 (f p.1)) ++
        if k = items.length then [.done] else [] := by
  simp only [Progress.through, List.isEmpty_map, List.length_map, ← List.map_take,
    List.zipIdx_map, List.map_map]
  rfl

namespace Outcall

variable {ω : Type}

/-- The messages a run shows to observers, in order. -/
def shown : List (Routine.Event (Outcall ω) ω Item) → List Message :=
  List.filterMap fun
    | .call (.emit _ m) _ => some m
    | _ => none

@[simp] theorem shown_nil : shown ([] : List (Routine.Event (Outcall ω) ω Item)) = [] := rfl

@[simp] theorem shown_append (a b : List (Routine.Event (Outcall ω) ω Item)) :
    shown (a ++ b) = shown a ++ shown b :=
  List.filterMap_append

@[simp] theorem shown_effects (es : List (Effect ω Item)) :
    shown (es.map Routine.Event.effect : List (Routine.Event (Outcall ω) ω Item)) = [] := by
  simp [shown]

@[simp] theorem shown_emit (observers : List (Observer ω)) (m : Message)
    (rest : List (Routine.Event (Outcall ω) ω Item)) :
    shown (.call (.emit observers m) () :: rest) = m :: shown rest := rfl

/-- A routine that shows nothing in any of its runs. -/
def Quiet {α : Type} (r : Routine (Outcall ω) ω Item α) : Prop :=
  ∀ evs a, Routine.Runs r evs a → shown evs = []

theorem quiet_pure {α : Type} (a : α) : Quiet (pure a : Routine (Outcall ω) ω Item α) := by
  intro evs b runs
  obtain ⟨rfl, -⟩ := Routine.runs_pure_iff.mp runs
  rfl

/-- A piece of the task's own code shows nothing, and neither does what follows it when that
shows nothing. -/
theorem quiet_run {α β : Type} {p : Proc ω Item β} {k : β → Routine (Outcall ω) ω Item α}
    (later : ∀ b, Quiet (k b)) : Quiet (.run p k) := by
  intro evs a runs
  obtain ⟨es, rest, b, rfl, -, tail⟩ := Routine.runs_run_iff.mp runs
  rw [shown_append, shown_effects, later b rest a tail]
  rfl

end Outcall

/-! ### Subjects listed by status -/

namespace Plan

/-- Each status lists exactly the subjects with a compilation of it. -/
theorem listed_eq_subjectsWith {p : Plan} {s : Status} {names : List String}
    (mem : (s, names) ∈ p.subjectsByStatus.entries) : names = p.subjectsWith s := by
  have found := (Table.mem_iff_get? _).mp mem
  rw [byStatus_get? p] at found
  split at found
  · cases found
  · exact (Option.some.inj found).symm

/-- A subject listed under a status is in the corpus. -/
theorem found_of_mem_subjectsWith {p : Plan} {s : Status} {name : String}
    (mem : name ∈ p.subjectsWith s) : ∃ subject, p.corpus.get? name = some subject := by
  obtain ⟨e, inFilter, rfl⟩ := List.mem_map.mp mem
  exact ⟨e.2, (Table.mem_iff_get? _).mp (List.mem_of_mem_filter inFilter)⟩

end Plan

namespace CommandStages

open Outcall

variable {ω : Type} (env : CycleEnv ω)

theorem runs_announce {e : Event} {evs : List (Routine.Event (Outcall ω) ω Item)} {u : Unit} :
    Routine.Runs (announce env e) evs u ↔ evs = [.call (.emit env.observers ⟨env.cycle, e⟩) ()] :=
  Routine.runs_invoke_iff

section Loop

variable {α β ε : Type} (wrap : Progress β → Event) (view : α → β)
  (work : α → Routine (Outcall ω) ω Item (Except ε Unit))

theorem steps_cons (i : Nat) (x : α) (rest : List α) :
    steps env wrap view work i (x :: rest) =
      (work x).bind fun r => match r with
        | .error e => pure (.error e)
        | .ok () => (announce env (wrap (.step i (view x)))).bind fun _ =>
          steps env wrap view work (i + 1) rest := rfl

/-- The work of `x` can fail with `e`. -/
def Fails (x : α) (e : ε) : Prop := ∃ evs, Routine.Runs (work x) evs (.error e)

/-- How a pass through items ends: every item got through, or the work of item `k` failed with
the pass's failure. -/
def Ends (items : List α) (k : Nat) (r : Except ε Unit) : Prop :=
  k = items.length ∧ r = .ok () ∨ ∃ x ∈ items[k]?, ∃ e, Fails work x e ∧ r = .error e

theorem ends_cons {items : List α} {k : Nat} {r : Except ε Unit} (x : α)
    (later : Ends work items k r) : Ends work (x :: items) (k + 1) r := by
  rcases later with ⟨rfl, ok⟩ | ⟨y, found, e, fails, failed⟩
  · exact .inl ⟨rfl, ok⟩
  · exact .inr ⟨y, by simpa using found, e, fails, failed⟩

/-- A pass through items shows a step for each item got through, numbered from `i`, and stops
short only at an item whose work failed; by induction on the items. -/
theorem runs_steps (items : List α) (quiet : ∀ x ∈ items, Quiet (work x)) :
    ∀ (i : Nat) (evs : List (Routine.Event (Outcall ω) ω Item)) (r : Except ε Unit),
      Routine.Runs (steps env wrap view work i items) evs r →
      ∃ k ≤ items.length, shown evs =
        ((items.take k).zipIdx i).map (fun p => ⟨env.cycle, wrap (.step p.2 (view p.1))⟩) ∧
        Ends work items k r := by
  induction items with
  | nil =>
    intro i evs r runs
    obtain ⟨rfl, rfl⟩ := Routine.runs_pure_iff.mp runs
    exact ⟨0, le_refl _, rfl, .inl ⟨rfl, rfl⟩⟩
  | cons x rest ih =>
    intro i evs r runs
    rw [steps_cons, Routine.runs_bind_iff] at runs
    obtain ⟨first, tail, a, rfl, worked, next⟩ := runs
    have silent : shown first = [] := quiet x List.mem_cons_self first a worked
    cases a with
    | error e =>
      -- the item's work failed: the pass ends here with that failure
      obtain ⟨rfl, rfl⟩ := Routine.runs_pure_iff.mp next
      exact ⟨0, Nat.zero_le _, by simp [silent], .inr ⟨x, rfl, e, ⟨first, worked⟩, rfl⟩⟩
    | ok u =>
      obtain ⟨shownStep, tail', u', rfl, stepped, more⟩ := Routine.runs_bind_iff.mp next
      rw [runs_announce] at stepped
      subst stepped
      obtain ⟨k, within, shows, ends⟩ :=
        ih (fun y mem => quiet y (List.mem_cons_of_mem _ mem)) (i + 1) tail' r more
      refine ⟨k + 1, by simpa using within, ?_, ends_cons work x ends⟩
      simp [silent, shows, List.zipIdx_cons]

theorem progress_of_isEmpty {items : List α} (empty : items.isEmpty = true) :
    progress env wrap view items work = pure (.ok ()) := by
  simp [progress, empty]

theorem progress_of_ne {items : List α} (full : items.isEmpty = false) :
    progress env wrap view items work =
      (announce env (wrap (.start items.length))).bind fun _ =>
        (steps env wrap view work 0 items).bind fun r => match r with
          | .error e => pure (.error e)
          | .ok () => (announce env (wrap .done)).bind fun _ => pure (.ok ()) := by
  unfold progress
  rw [full]
  rfl

/-- Every run of a pass with progress shows the progress through the items it got through,
stamped with the cycle, and stops short only at an item whose work failed. -/
theorem runs_progress (items : List α) (quiet : ∀ x ∈ items, Quiet (work x))
    {evs : List (Routine.Event (Outcall ω) ω Item)} {r : Except ε Unit}
    (runs : Routine.Runs (progress env wrap view items work) evs r) :
    ∃ k ≤ items.length, shown evs =
      (Progress.through (items.map view) k).map (fun p => ⟨env.cycle, wrap p⟩) ∧
      Ends work items k r := by
  cases empty : items.isEmpty with
  | true =>
    rw [progress_of_isEmpty env wrap view work empty] at runs
    obtain ⟨rfl, rfl⟩ := Routine.runs_pure_iff.mp runs
    have none : items = [] := List.isEmpty_iff.mp empty
    subst none
    exact ⟨0, le_refl _, by simp [Progress.through], .inl ⟨rfl, rfl⟩⟩
  | false =>
    rw [progress_of_ne env wrap view work empty] at runs
    obtain ⟨started, rest, u, rfl, start, more⟩ := Routine.runs_bind_iff.mp runs
    rw [runs_announce] at start
    subst start
    obtain ⟨passed, tail, a, rfl, pass, finish⟩ := Routine.runs_bind_iff.mp more
    obtain ⟨k, within, shows, ends⟩ := runs_steps env wrap view work items quiet 0 passed a pass
    have full : items ≠ [] := fun none => by simp [none] at empty
    refine ⟨k, within, ?_, ?_⟩
    · rw [Progress.through_map, if_neg (by simpa using full)]
      cases a with
        | error e =>
          -- the pass stopped short at item `k`: no end is shown
          obtain ⟨rfl, rfl⟩ := Routine.runs_pure_iff.mp finish
          have short : k ≠ items.length := by
            rcases ends with ⟨-, stopped⟩ | ⟨x, found, -⟩
            · cases stopped
            · exact (List.getElem?_eq_some_iff.mp found).1.ne
          simp [shows, short]
        | ok u =>
          obtain ⟨shownEnd, tail', u', rfl, ended, last⟩ := Routine.runs_bind_iff.mp finish
          rw [runs_announce] at ended
          subst ended
          obtain ⟨rfl, rfl⟩ := Routine.runs_pure_iff.mp last
          have whole : k = items.length := by
            rcases ends with ⟨whole, -⟩ | ⟨x, found, e, fails, stopped⟩
            · exact whole
            · cases stopped
          simp [shows, whole]
    · cases a with
      | error e =>
        obtain ⟨rfl, rfl⟩ := Routine.runs_pure_iff.mp finish
        exact ends
      | ok u =>
        obtain ⟨shownEnd, tail', u', rfl, -, last⟩ := Routine.runs_bind_iff.mp finish
        obtain ⟨rfl, rfl⟩ := Routine.runs_pure_iff.mp last
        exact ends

end Loop


/-! ### The pieces of a stage -/

section Pieces

variable (files : Files ω) (specs : Table StageKind CommandSpec)

/-- A pass whose work never fails gets through every item. -/
theorem runs_report {β : Type} {wrap : Progress β → Event} {items : List β}
    {evs : List (Routine.Event (Outcall ω) ω Item)} {u : Unit}
    (runs : Routine.Runs (report env wrap items) evs u) :
    shown evs = (Progress.through items items.length).map (fun p => ⟨env.cycle, wrap p⟩) := by
  obtain ⟨passed, rest, r, rfl, pass, last⟩ := Routine.runs_bind_iff.mp runs
  obtain ⟨rfl, -⟩ := Routine.runs_pure_iff.mp last
  obtain ⟨k, -, shows, ends⟩ :=
    runs_progress env wrap id _ items (fun _ _ => quiet_pure _) pass
  have whole : k = items.length := by
    rcases ends with ⟨whole, -⟩ | ⟨x, -, e, ⟨evs', fails⟩, -⟩
    · exact whole
    · obtain ⟨-, never⟩ := Routine.runs_pure_iff.mp fails
      cases never
  rw [List.append_nil, shows, whole, List.map_id]

theorem copyOne_quiet (dir : Path) (c : CopyStep) : Quiet (copyOne files dir c) :=
  quiet_run fun r => by cases r <;> exact quiet_pure _

/-- A copy fails only with the copy's error. -/
theorem copyOne_fails {dir : Path} {c : CopyStep} {e : CommandError}
    (fails : Fails (copyOne files dir) c e) : ∃ io, e = .copy c.src.text c.dst.text io := by
  obtain ⟨evs, runs⟩ := fails
  obtain ⟨es, rest, b, -, -, tail⟩ := Routine.runs_run_iff.mp runs
  cases b with
  | error io =>
    obtain ⟨-, same⟩ := Routine.runs_pure_iff.mp tail
    exact ⟨io, Except.error.inj same⟩
  | ok u =>
    obtain ⟨-, never⟩ := Routine.runs_pure_iff.mp tail
    cases never

theorem saveOne_quiet (item : String × Status × String) : Quiet (saveOne files env item) :=
  quiet_run fun r => by cases r <;> exact quiet_pure _

/-- A save fails only with the save's error for its subject. -/
theorem saveOne_fails {item : String × Status × String} {e : CommandError}
    (fails : Fails (saveOne files env) item e) : ∃ io, e = .save item.1 io := by
  obtain ⟨evs, runs⟩ := fails
  obtain ⟨es, rest, b, -, -, tail⟩ := Routine.runs_run_iff.mp runs
  cases b with
  | error io =>
    obtain ⟨-, same⟩ := Routine.runs_pure_iff.mp tail
    exact ⟨io, Except.error.inj same⟩
  | ok u =>
    obtain ⟨-, never⟩ := Routine.runs_pure_iff.mp tail
    cases never

/-- What a stage shows before its program, the first `k` copies got through: invoke shows the
compilers of the plan and, when it has a program, the copies of the subjects. -/
def shownBefore (kind : StageKind) (plan : Plan) (k : Nat) : List Event :=
  if kind = .invoke then
    (Progress.through (compilerSteps plan) (compilerSteps plan).length).map .compilerConfig ++
      if (specs.get? kind).isSome then
        (Progress.through (copySteps (scratchOf kind env.pathset) plan) k).map .copy
      else []
  else []

/-- What a stage shows after its program handed on `plan`, the first `k` saves got through:
fuzz shows the subjects of the corpus, analyse the saves and, once every save is done, the
plan's analysis. -/
def shownAfter (kind : StageKind) (plan : Plan) (k : Nat) : List Event :=
  match kind with
  | .fuzz => (Progress.through (buildSteps plan) (buildSteps plan).length).map .build
  | .analyse =>
    (Progress.through ((toSave plan).map (saveStep env.pathset)) k).map .save ++
      if k = (toSave plan).length then [.analysis (Mutation.Analysis.ofPlan plan)] else []
  | _ => []

/-- The plan a stage's program hands on: the plan given when the stage has no program, else a
plan read from what the program wrote. -/
def HandedOn (kind : StageKind) (plan plan' : Plan) : Prop :=
  specs.get? kind = none ∧ plan' = plan ∨ (specs.get? kind).isSome ∧ ∃ j, plan' = Plan.ofNormal j

/-- What a program that ended hands on, when it is a plan, is a plan read from its output. -/
theorem handOn_plan {program : String} {done : Program.Finished} {p : Plan}
    (handed : handOn program done = .ok p) : ∃ j, p = Plan.ofNormal j := by
  unfold handOn at handed
  split at handed
  · cases handed
  · split at handed
    · cases handed
    · exact ⟨_, (Except.ok.inj handed).symm⟩

/-- How a stage ends with its program's own outcome: the program could not be waited for, or
it ended and handed on what it did. -/
def Ended (program : String) (result : Except CommandError Plan) : Prop :=
  (∃ e, result = .error (.wait program e)) ∨ ∃ done, result = handOn program done

/-- A race ends on the context's end, for some reason, or on the program's end. -/
theorem race_ends {cx : Context} {spec : CommandSpec} {start length i : Nat} {w : Woke Item}
    (ends : Wait.Ends (race cx spec start length) i w) :
    (i = 0 ∧ ∃ r, w = .done r) ∨ (i = 1 ∧ w = .elapsed) := by
  obtain ⟨b, found, fits⟩ := ends
  rcases i with _ | _ | i
  · simp only [race, List.getElem?_cons_zero, Option.some.injEq] at found
    subst found
    cases w <;> simp_all [Wait.Fits]
  · simp only [race, List.getElem?_cons_succ, List.getElem?_cons_zero, Option.some.injEq] at found
    subst found
    cases w <;> simp_all [Wait.Fits]
  · simp [race] at found

/-- Every run of a stage program reads the clock as the program starts, and then fails to start
the program, or races the end of the program, `length` after its start, against the end of the
program's context: the context's end stops the stage for its reason, and otherwise the stage
ends with the program's own outcome. -/
theorem runs_execute_cases {cx : Context} {spec : CommandSpec} {vars : List (String × String)}
    {plan : Plan} {es : List (Effect ω Item)} {result : Except CommandError Plan}
    (runs : Proc.Runs (execute files cx spec vars plan) es result) :
    ∃ reading rest, es = .order .now reading :: rest ∧
      ((∃ e, rest = [.await [.file] 0 .ready, .touch] ∧ result = .error (.spawn spec.program e)) ∨
        ∃ length i w, Effect.await (race cx spec reading.asId length) i w ∈ rest ∧
          Wait.Ends (race cx spec reading.asId length) i w ∧
          ((i = 0 ∧ ∃ r, w = .done r ∧ result = .error (stopError spec r)) ∨
            (i = 1 ∧ w = .elapsed ∧ Ended spec.program result))) := by
  unfold execute at runs
  obtain ⟨first, rest, start, rfl, read, runs⟩ := Proc.runs_bind_iff.mp runs
  obtain ⟨reading, rfl, rfl⟩ := Proc.runs_now_iff.mp read
  refine ⟨reading, rest, rfl, ?_⟩
  obtain ⟨spawned, rest, started, rfl, spawning, runs⟩ := Proc.runs_bind_iff.mp runs
  rw [Proc.runs_file_iff] at spawning
  subst spawning
  cases started with
  | error e =>
    obtain ⟨rfl, rfl⟩ := Proc.runs_pure_iff.mp runs
    exact .inl ⟨e, rfl, rfl⟩
  | ok length =>
    obtain ⟨raced, rest, x, rfl, racing, runs⟩ := Proc.runs_bind_iff.mp runs
    obtain ⟨i, w, ends, rfl, rfl⟩ := Proc.runs_select_iff.mp racing
    refine .inr ⟨length, i, w, by simp, ends, ?_⟩
    rcases race_ends ends with ⟨rfl, r, rfl⟩ | ⟨rfl, rfl⟩
    · -- the context ended first: the program is killed and the stage stops
      obtain ⟨-, rest, _, rfl, -, runs⟩ := Proc.runs_bind_iff.mp runs
      obtain ⟨-, rest, _, rfl, -, runs⟩ := Proc.runs_bind_iff.mp runs
      exact .inl ⟨rfl, r, rfl, (Proc.runs_pure_iff.mp runs).2⟩
    · -- the program ended first: the stage ends as it did
      obtain ⟨-, rest, ran, rfl, -, runs⟩ := Proc.runs_bind_iff.mp runs
      refine .inr ⟨rfl, rfl, ?_⟩
      cases ran with
      | error e => exact .inl ⟨e, (Proc.runs_pure_iff.mp runs).2⟩
      | ok done => exact .inr ⟨done, (Proc.runs_pure_iff.mp runs).2⟩

/-- The program succeeds only with a plan read from its output. -/
theorem execute_yields (cx : Context) (spec : CommandSpec) (vars : List (String × String))
    (plan : Plan) :
    (execute files cx spec vars plan).Yields fun r => ∀ p, r = .ok p → ∃ j, p = Plan.ofNormal j := by
  intro es r runs p same
  obtain ⟨reading, rest, -, cases⟩ := runs_execute_cases files runs
  rcases cases with ⟨e, -, rfl⟩ | ⟨length, i, w, -, -, ⟨-, r', -, rfl⟩ | ⟨-, -, ended⟩⟩
  · cases same
  · cases same
  · rcases ended with ⟨e, rfl⟩ | ⟨done, rfl⟩
    · cases same
    · exact handOn_plan same

end Pieces


section Stage

variable (files : Files ω) (specs : Table StageKind CommandSpec)

theorem before_invoke (plan : Plan) :
    before files specs env .invoke plan = (reportCompilers env plan).bind fun _ =>
      if (specs.get? .invoke).isSome then copySubjects files env (scratchOf .invoke env.pathset) plan
      else pure (.ok ()) := rfl

theorem before_of_ne {kind : StageKind} (other : kind ≠ .invoke) (plan : Plan) :
    before files specs env kind plan = pure (.ok ()) := by
  simp [before, other]

theorem after_fuzz (plan : Plan) :
    after files env .fuzz plan = (reportCorpus env plan).bind fun _ => pure (.ok ()) := rfl

theorem after_analyse (plan : Plan) :
    after files env .analyse plan = (saveSubjects files env plan).bind fun r => match r with
      | .error e => pure (.error e)
      | .ok () => (announce env (.analysis (Mutation.Analysis.ofPlan plan))).bind fun _ =>
        pure (.ok ()) := rfl

theorem after_of_ne {kind : StageKind} (fuzz : kind ≠ .fuzz) (analyse : kind ≠ .analyse)
    (plan : Plan) : after files env kind plan = pure (.ok ()) := by
  cases kind <;> first | rfl | contradiction

theorem run_eq (kind : StageKind) (cx : Context) (plan : Plan) :
    run files specs env kind cx plan = (Routine.lift Proc.now).bind fun started =>
      (before files specs env kind plan).bind fun r => match r with
        | .error e => pure (.error (.failed e.cause))
        | .ok () => (program files specs env kind cx plan).bind fun r => match r with
          | .error e => pure (.error (.failed e.cause))
          | .ok plan' => (after files env kind plan').bind fun r => match r with
            | .error e => pure (.error (.failed e.cause))
            | .ok () => (Routine.lift Proc.now).bind fun now =>
              pure (.ok (plan'.recordStage kind now (now - started))) := rfl

/-- Before its program a stage shows the compilers and the copies it got through, and fails
only when copying the next subject failed, with that copy's error. -/
theorem runs_before {kind : StageKind} {plan : Plan} {evs : List (Routine.Event (Outcall ω) ω Item)}
    {r : Except CommandError Unit} (runs : Routine.Runs (before files specs env kind plan) evs r) :
    ∃ k ≤ (copySteps (scratchOf kind env.pathset) plan).length,
      shown evs = (shownBefore env specs kind plan k).map (⟨env.cycle, ·⟩) ∧
      (k = (copySteps (scratchOf kind env.pathset) plan).length ∧ r = .ok () ∨
        kind = .invoke ∧ (specs.get? kind).isSome ∧
          ∃ c ∈ (copySteps (scratchOf kind env.pathset) plan)[k]?, ∃ io,
            r = .error (.copy c.src.text c.dst.text io)) := by
  by_cases invoke : kind = .invoke
  · subst invoke
    rw [before_invoke] at runs
    obtain ⟨reported, rest, u, rfl, reporting, copying⟩ := Routine.runs_bind_iff.mp runs
    have compilers := runs_report env reporting
    cases program : (specs.get? StageKind.invoke).isSome with
    | true =>
      rw [if_pos program] at copying
      obtain ⟨k, within, shows, ends⟩ :=
        runs_progress env .copy id _ _ (fun c _ => copyOne_quiet files _ c) copying
      refine ⟨k, within, ?_, ?_⟩
      · simp [shownBefore, program, compilers, shows, List.map_map, Function.comp_def]
      · rcases ends with done | ⟨c, found, e, fails, rfl⟩
        · exact .inl done
        · obtain ⟨io, rfl⟩ := copyOne_fails files fails
          exact .inr ⟨rfl, rfl, c, found, io, rfl⟩
    | false =>
      rw [if_neg (by simp [program])] at copying
      obtain ⟨rfl, rfl⟩ := Routine.runs_pure_iff.mp copying
      exact ⟨_, le_refl _, by simp [shownBefore, program, compilers, List.map_map,
        Function.comp_def], .inl ⟨rfl, rfl⟩⟩
  · rw [before_of_ne env files specs invoke] at runs
    obtain ⟨rfl, rfl⟩ := Routine.runs_pure_iff.mp runs
    exact ⟨_, le_refl _, by simp [shownBefore, invoke], .inl ⟨rfl, rfl⟩⟩

/-- The program shows nothing; it fails only when there is one, and it hands on the plan given
or a plan read from its output. -/
theorem runs_program {kind : StageKind} {cx : Context} {plan : Plan}
    {evs : List (Routine.Event (Outcall ω) ω Item)} {r : Except CommandError Plan}
    (runs : Routine.Runs (program files specs env kind cx plan) evs r) :
    shown evs = [] ∧ (∀ e, r = .error e → (specs.get? kind).isSome) ∧
      ∀ plan', r = .ok plan' → HandedOn specs kind plan plan' := by
  unfold program at runs
  cases found : specs.get? kind with
  | none =>
    rw [found] at runs
    obtain ⟨rfl, rfl⟩ := Routine.runs_pure_iff.mp runs
    exact ⟨rfl, nofun, fun plan' same => .inl ⟨found, (Except.ok.inj same).symm⟩⟩
  | some s =>
    rw [found] at runs
    obtain ⟨es, rfl, ran⟩ := Routine.runs_lift_iff.mp runs
    exact ⟨shown_effects es, fun _ _ => rfl,
      fun plan' same => .inr ⟨by simp [found], execute_yields files cx s _ plan es r ran plan' same⟩⟩

/-- After its program a stage shows what its kind reports of the plan handed on, and fails only
when analyse could not save the next subject, with that save's error. -/
theorem runs_after {kind : StageKind} {plan : Plan} {evs : List (Routine.Event (Outcall ω) ω Item)}
    {r : Except CommandError Unit} (runs : Routine.Runs (after files env kind plan) evs r) :
    ∃ k ≤ (toSave plan).length, shown evs = (shownAfter env kind plan k).map (⟨env.cycle, ·⟩) ∧
      (k = (toSave plan).length ∧ r = .ok () ∨
        kind = .analyse ∧ ∃ item ∈ (toSave plan)[k]?, ∃ io, r = .error (.save item.1 io)) := by
  by_cases fuzz : kind = .fuzz
  · subst fuzz
    rw [after_fuzz] at runs
    obtain ⟨reported, rest, u, rfl, reporting, last⟩ := Routine.runs_bind_iff.mp runs
    obtain ⟨rfl, rfl⟩ := Routine.runs_pure_iff.mp last
    exact ⟨_, le_refl _, by simp [shownAfter, runs_report env reporting, List.map_map,
      Function.comp_def], .inl ⟨rfl, rfl⟩⟩
  by_cases analyse : kind = .analyse
  · subst analyse
    rw [after_analyse] at runs
    obtain ⟨saved, rest, a, rfl, saving, next⟩ := Routine.runs_bind_iff.mp runs
    obtain ⟨k, within, shows, ends⟩ :=
      runs_progress env .save (saveStep env.pathset) _ _ (fun item _ => saveOne_quiet env files item)
        saving
    refine ⟨k, within, ?_⟩
    cases a with
    | error e =>
      -- a save failed: no end, no analysis
      obtain ⟨rfl, rfl⟩ := Routine.runs_pure_iff.mp next
      obtain ⟨item, found, e', fails, same⟩ : ∃ item ∈ (toSave plan)[k]?, ∃ e',
          Fails (saveOne files env) item e' ∧ Except.error e = .error e' := by
        rcases ends with ⟨-, stopped⟩ | stopped
        · cases stopped
        · exact stopped
      cases same
      obtain ⟨io, rfl⟩ := saveOne_fails env files fails
      have short : k ≠ (toSave plan).length := (List.getElem?_eq_some_iff.mp found).1.ne
      exact ⟨by simp [shownAfter, shows, short, List.map_map, Function.comp_def],
        .inr ⟨rfl, item, found, io, rfl⟩⟩
    | ok u =>
      obtain ⟨shownAnalysis, last, u', rfl, analysed, finish⟩ := Routine.runs_bind_iff.mp next
      rw [runs_announce] at analysed
      subst analysed
      obtain ⟨rfl, rfl⟩ := Routine.runs_pure_iff.mp finish
      have whole : k = (toSave plan).length := by
        rcases ends with ⟨whole, -⟩ | ⟨item, found, e, fails, stopped⟩
        · exact whole
        · cases stopped
      exact ⟨by simp [shownAfter, shows, whole, List.map_map, Function.comp_def], .inl ⟨whole, rfl⟩⟩
  · rw [after_of_ne env files fuzz analyse] at runs
    obtain ⟨rfl, rfl⟩ := Routine.runs_pure_iff.mp runs
    refine ⟨_, le_refl _, ?_, .inl ⟨rfl, rfl⟩⟩
    cases kind <;> simp_all [shownAfter]

/-- What a stage may show, in order, and return, from the plan it is given. The copies and the
saves got through stop short only at an item whose copy or save failed, and then the stage
shows nothing more and fails with that item's error. -/
inductive Shows (kind : StageKind) (plan : Plan) : List Event → Except Halt Plan → Prop
  /-- Invoke, with a program, could not copy subject `k`: it showed the compilers and the
  copies before, and fails with the copy's error. -/
  | copyFailed {k : Nat} {c : CopyStep} {io : IoError} : kind = .invoke →
      (specs.get? kind).isSome → (copySteps (scratchOf kind env.pathset) plan)[k]? = some c →
      Shows kind plan (shownBefore env specs kind plan k)
        (.error (.failed (CommandError.copy c.src.text c.dst.text io).cause))
  /-- The program failed, after all that comes before it was shown. -/
  | programFailed {e : CommandError} : (specs.get? kind).isSome →
      Shows kind plan
        (shownBefore env specs kind plan (copySteps (scratchOf kind env.pathset) plan).length)
        (.error (.failed e.cause))
  /-- Analyse could not save item `k` of the plan handed on: it showed the saves before, and
  fails with the save's error. -/
  | saveFailed {plan' : Plan} {k : Nat} {item : String × Status × String} {io : IoError} :
      HandedOn specs kind plan plan' → kind = .analyse → (toSave plan')[k]? = some item →
      Shows kind plan
        (shownBefore env specs kind plan (copySteps (scratchOf kind env.pathset) plan).length ++
          shownAfter env kind plan' k)
        (.error (.failed (CommandError.save item.1 io).cause))
  /-- The stage finished: all it reports was shown in full, and it returns the plan handed on
  with the stage recorded, at the time it finished and with the time since it started. -/
  | finished {plan' : Plan} {started now : Nat} : HandedOn specs kind plan plan' →
      Shows kind plan
        (shownBefore env specs kind plan (copySteps (scratchOf kind env.pathset) plan).length ++
          shownAfter env kind plan' (toSave plan').length)
        (.ok (plan'.recordStage kind now (now - started)))

/-- Every run of a stage, whatever its file operations, program and clock answer, shows what
`Shows` lists for its kind, each event stamped with the stage's cycle. -/
theorem runs_shows {kind : StageKind} {cx : Context} {plan : Plan}
    {evs : List (Routine.Event (Outcall ω) ω Item)} {r : Except Halt Plan}
    (runs : Routine.Runs (run files specs env kind cx plan) evs r) :
    ∃ events, shown evs = events.map (⟨env.cycle, ·⟩) ∧ Shows env specs kind plan events r := by
  rw [run_eq] at runs
  obtain ⟨reading, tail, started, rfl, read, stage⟩ := Routine.runs_bind_iff.mp runs
  obtain ⟨es, rfl, -⟩ := Routine.runs_lift_iff.mp read
  obtain ⟨first, rest, a, rfl, ranBefore, next⟩ := Routine.runs_bind_iff.mp stage
  obtain ⟨k, -, shown₁, ends₁⟩ := runs_before env files specs ranBefore
  rcases ends₁ with ⟨rfl, rfl⟩ | ⟨invoke, hasProgram, c, found, io, rfl⟩
  · obtain ⟨second, rest', b, rfl, ranProgram, next'⟩ := Routine.runs_bind_iff.mp next
    obtain ⟨quiet, failing, handing⟩ := runs_program env files specs ranProgram
    cases b with
    | error e =>
      -- the program failed
      obtain ⟨rfl, rfl⟩ := Routine.runs_pure_iff.mp next'
      exact ⟨_, by simp [shown₁, quiet], .programFailed (failing e rfl)⟩
    | ok plan' =>
      have handed := handing plan' rfl
      obtain ⟨third, rest'', c, rfl, ranAfter, next''⟩ := Routine.runs_bind_iff.mp next'
      obtain ⟨k', -, shown₂, ends₂⟩ := runs_after env files ranAfter
      rcases ends₂ with ⟨rfl, rfl⟩ | ⟨analyse, item, found, io, rfl⟩
      · -- everything after the program was done: the stage records itself
        obtain ⟨fourth, last, now, rfl, ranNow, finish⟩ := Routine.runs_bind_iff.mp next''
        obtain ⟨es, rfl, -⟩ := Routine.runs_lift_iff.mp ranNow
        obtain ⟨rfl, rfl⟩ := Routine.runs_pure_iff.mp finish
        exact ⟨_, by simp [shown₁, quiet, shown₂], .finished handed⟩
      · -- a save failed
        obtain ⟨rfl, rfl⟩ := Routine.runs_pure_iff.mp next''
        exact ⟨_, by simp [shown₁, quiet, shown₂], .saveFailed handed analyse found⟩
  · -- a copy failed
    obtain ⟨rfl, rfl⟩ := Routine.runs_pure_iff.mp next
    exact ⟨_, by simp [shown₁], .copyFailed invoke hasProgram found⟩

end Stage


/-! ### The order of the items saved -/

/-- The subjects a plan saves, as pairs of a status and a subject: for each saved status, in
the order of statuses, the subjects listed under it, in order. -/
def savedPairs (p : Plan) : List (Status × String) :=
  (p.subjectsByStatus.entries.filter fun e => e.1.isSaved).flatMap fun e => e.2.map ((e.1, ·))

/-- The items a stage saves are the plan's saved pairs, ascending by status and then by
subject. -/
def SavedInOrder (p : Plan) : Prop :=
  (toSave p).map (fun item => (item.2.1, item.1)) = savedPairs p ∧
    (savedPairs p).Pairwise fun a b => compare a.1 b.1 = .lt ∨ a.1 = b.1 ∧ a.2 < b.2

/-- Every subject listed is in the corpus, so each is saved; by induction on the statuses. -/
theorem toSave_pairs (p : Plan) :
    (toSave p).map (fun item => (item.2.1, item.1)) = savedPairs p := by
  unfold toSave savedPairs
  suffices walk : ∀ l : List (Status × List String), (∀ e ∈ l, e ∈ p.subjectsByStatus.entries) →
      (l.flatMap fun e => if e.1.isSaved then e.2.filterMap fun name =>
        (p.corpus.get? name).map fun s => (name, e.1, s.source) else []).map
          (fun item => (item.2.1, item.1)) =
        (l.filter fun e => e.1.isSaved).flatMap fun e => e.2.map ((e.1, ·)) from
    walk _ fun _ mem => mem
  intro l
  induction l with
  | nil => intro _; rfl
  | cons e l ih =>
    intro listed
    have rest := ih fun e' mem => listed e' (List.mem_cons_of_mem _ mem)
    obtain ⟨s, names⟩ := e
    have found : ∀ name ∈ names, ∃ subject, p.corpus.get? name = some subject := by
      intro name mem
      rw [Plan.listed_eq_subjectsWith (listed _ List.mem_cons_self)] at mem
      exact Plan.found_of_mem_subjectsWith mem
    have kept : (names.filterMap fun name =>
        (p.corpus.get? name).map fun subject => (name, s, subject.source)).map
          (fun item => (item.2.1, item.1)) = names.map ((s, ·)) := by
      rw [List.map_filterMap]
      refine List.filterMap_eq_map_iff_forall_eq_some.mpr fun name mem => ?_
      obtain ⟨subject, there⟩ := found name mem
      simp [there]
    by_cases saved : s.isSaved = true
    · simp only [List.flatMap_cons, List.map_append, List.filter_cons, saved, if_true] at rest ⊢
      rw [kept, rest]
    · simp only [List.flatMap_cons, List.map_append, List.filter_cons, saved] at rest ⊢
      simpa using rest

/-- The saved pairs ascend by status, and within a status by subject. -/
theorem savedPairs_ascending (p : Plan) :
    (savedPairs p).Pairwise fun a b => compare a.1 b.1 = .lt ∨ a.1 = b.1 ∧ a.2 < b.2 := by
  unfold savedPairs
  rw [List.pairwise_flatMap]
  refine ⟨fun e mem => ?_, ?_⟩
  · -- within a status, the subjects listed ascend
    have listed := Plan.listed_eq_subjectsWith (List.mem_of_mem_filter mem)
    rw [List.pairwise_map, listed]
    exact (Plan.subjectsWith_ascending p e.1).imp fun lt => .inr ⟨rfl, lt⟩
  · -- across statuses, the statuses ascend
    refine (p.subjectsByStatus.ascending.filter _).imp fun lt => ?_
    intro x xmem y ymem
    obtain ⟨n, -, rfl⟩ := List.mem_map.mp xmem
    obtain ⟨n', -, rfl⟩ := List.mem_map.mp ymem
    exact .inl lt

theorem toSave_in_order (p : Plan) : SavedInOrder p :=
  ⟨toSave_pairs p, savedPairs_ascending p⟩

/-- Every run of a stage shows, stamped with the stage's cycle, what `Shows` lists for its kind,
whatever its file operations, program and clock answer: each stream of progress is empty when it
has no items, and otherwise its start with the number of items, a step per item got through,
numbered from 0 in the order of the plan's tables, and its end exactly when every item was got
through; a stream stops short only when copying or saving the next item failed, and the stage
then shows nothing more and fails with that item's error. The items the plan handed on saves
are the saved pairs of its statuses and subjects, ascending. -/
theorem run_shows_progress {files : Files ω} {specs : Table StageKind CommandSpec}
    {kind : StageKind} {cx : Context} {plan : Plan} {evs : List (Routine.Event (Outcall ω) ω Item)}
    {r : Except Halt Plan} (runs : Routine.Runs (run files specs env kind cx plan) evs r) :
    (∃ events, shown evs = events.map (⟨env.cycle, ·⟩) ∧ Shows env specs kind plan events r) ∧
      ∀ plan', HandedOn specs kind plan plan' → SavedInOrder plan' :=
  ⟨runs_shows env files specs runs, fun plan' _ => toSave_in_order plan'⟩

/-- A fuzz stage on a machine with no observers. -/
def fuzzOne : CycleEnv Tree where
  cycle := ⟨0, ⟨"m"⟩, 0⟩
  quantities := {}
  pathset := ⟨⟨"out"⟩⟩
  observers := []
  fuzzer := none
  filters := {}

/-- A plan of one subject. -/
def onePlan : Plan := { corpus := ⟨[("a", { source := "a.c" })], by decide⟩ }

/-- Without a program, the fuzz stage reports the one subject and records itself at the time
the clock gives, with the time since it started. -/
theorem runs_fuzzOne :
    Routine.Runs (run ⟨id, fun t _ => t⟩ {} fuzzOne .fuzz .background onePlan)
      [.effect (.order .now (.id 3)),
        .call (.emit [] ⟨fuzzOne.cycle, .build (.start 1)⟩) (),
        .call (.emit [] ⟨fuzzOne.cycle, .build (.step 0 ⟨"a"⟩)⟩) (),
        .call (.emit [] ⟨fuzzOne.cycle, .build .done⟩) (), .effect (.order .now (.id 7))]
      (.ok (onePlan.recordStage .fuzz 7 4)) := by
  refine Routine.runs_run_iff.mpr ⟨[.order .now (.id 3)], _, 3, rfl, .order (.id 3) (.pure _), ?_⟩
  refine .call () (.call () (.call () ?_))
  exact Routine.runs_run_iff.mpr ⟨[.order .now (.id 7)], [], 7, rfl, .order (.id 7) (.pure _), .pure _⟩

theorem run_shows_progress_fuzzOne :
    (∃ events, shown ([.effect (.order .now (.id 3)),
        .call (.emit [] ⟨fuzzOne.cycle, .build (.start 1)⟩) (),
        .call (.emit [] ⟨fuzzOne.cycle, .build (.step 0 ⟨"a"⟩)⟩) (),
        .call (.emit [] ⟨fuzzOne.cycle, .build .done⟩) (), .effect (.order .now (.id 7))] :
          List (Routine.Event (Outcall Tree) Tree Item)) =
        events.map (⟨fuzzOne.cycle, ·⟩) ∧
      Shows fuzzOne {} .fuzz onePlan events (.ok (onePlan.recordStage .fuzz 7 4))) ∧
    ∀ plan', HandedOn {} .fuzz onePlan plan' → SavedInOrder plan' :=
  run_shows_progress fuzzOne runs_fuzzOne

end CommandStages

end Campaign
