import Campaign.Proofs.Command.Progress
import Campaign.Proofs.Files.Places

/-! Where a stage copies and saves its subjects: under each subject's archive name, the source's
file name or else the subject's name. Two copies or saves share a destination exactly when their
archive names (and statuses) are equal (`stage_archives_apart`), so subjects whose sources share a
file name overwrite each other (`copies_share_destination`).
-/

namespace Campaign

open Async

/-- The item of a progress step. -/
def Progress.item? {α : Type} : Progress α → Option α
  | .step _ x => some x
  | _ => none

/-- The steps of the progress through items, the first `k` got through, show those items. -/
theorem Progress.filterMap_item?_through {α : Type} (items : List α) (k : Nat) :
    (Progress.through items k).filterMap Progress.item? = items.take k := by
  unfold Progress.through
  split
  · rename_i empty
    simp [List.isEmpty_iff.mp empty]
  · have steps : ((items.take k).zipIdx.map fun p => Progress.step p.2 p.1).filterMap
        Progress.item? = items.take k := by
      simp [List.filterMap_map, Function.comp_def, Progress.item?, List.zipIdx_map_fst]
    have ends : ((if k = items.length then [Progress.done] else []) : List (Progress α)).filterMap
        Progress.item? = [] := by
      split <;> rfl
    simp only [List.filterMap_cons, Progress.item?, List.filterMap_append, steps, ends,
      List.append_nil]

/-- The copy an event shows. -/
def Event.copy? : Event → Option CopyStep
  | .copy p => p.item?
  | _ => none

/-- The save an event shows. -/
def Event.save? : Event → Option SaveStep
  | .save p => p.item?
  | _ => none

/-! ### Names and destinations -/

namespace Status

theorem ofName?_name (s : Status) : ofName? s.name = some s := by
  cases s <;> rfl

theorem name_injective : Function.Injective Status.name := fun a b same =>
  Option.some.inj (by rw [← ofName?_name a, same, ofName?_name b])

theorem name_plain (s : Status) : Path.IsPlainName s.name := by
  cases s <;> decide

end Status

namespace Pathset

/-- Two files saved under status directories are one path only for one status and one name. -/
theorem statusDir_join_eq_iff (p : Pathset) {s s' : Status} {a b : String}
    (ha : Path.IsPlainName a) (hb : Path.IsPlainName b) :
    ((p.statusDir s).join a).components = ((p.statusDir s').join b).components ↔
      s = s' ∧ a = b := by
  constructor
  · intro components
    simp only [statusDir, Path.components_join ha, Path.components_join hb,
      Path.components_join (Status.name_plain s), Path.components_join (Status.name_plain s'),
      List.append_assoc, List.singleton_append, List.append_cancel_left_eq, List.cons.injEq,
      Path.Component.normal.injEq, and_true] at components
    exact ⟨Status.name_injective components.1, components.2⟩
  · rintro ⟨rfl, rfl⟩
    rfl

end Pathset

namespace CommandStages

/-- The names a plan's subjects are archived under, in corpus order. -/
def archiveNames (plan : Plan) : List String :=
  plan.corpus.entries.map fun (name, subject) => archiveName name subject.source

/-- The status and archive name of each subject a plan saves, in the order of the saves. -/
def saveKeys (plan : Plan) : List (Status × String) :=
  (toSave plan).map fun item => (item.2.1, archiveName item.1 item.2.2)

theorem copySteps_dst (dir : Path) (plan : Plan) :
    (copySteps dir plan).map (·.dst.components) =
      (archiveNames plan).map fun a => (dir.join a).components := by
  simp [copySteps, archiveNames, Function.comp_def]

theorem toSave_paths (p : Pathset) (plan : Plan) :
    ((toSave plan).map (saveStep p)).map (·.path.components) =
      (saveKeys plan).map fun key => ((p.statusDir key.1).join key.2).components := by
  simp [saveKeys, saveStep, Function.comp_def]

/-- The plan's copies go to pairwise distinct destinations exactly when its subjects' archive
names are pairwise distinct, for plain archive names. -/
theorem copy_dsts_nodup_iff (dir : Path) (plan : Plan)
    (plain : ∀ a ∈ archiveNames plan, Path.IsPlainName a) :
    ((copySteps dir plan).map (·.dst.components)).Nodup ↔ (archiveNames plan).Nodup := by
  rw [copySteps_dst]
  refine ⟨List.Nodup.of_map _, fun distinct => distinct.map_on fun a ha b hb same => ?_⟩
  exact (Path.join_beq_join_iff (plain a ha) (plain b hb)).mp (Path.beq_iff.mpr same)

/-- The plan's saves go to pairwise distinct paths exactly when no two of them have the same
status and archive name, for plain archive names. -/
theorem save_paths_nodup_iff (p : Pathset) (plan : Plan)
    (plain : ∀ key ∈ saveKeys plan, Path.IsPlainName key.2) :
    (((toSave plan).map (saveStep p)).map (·.path.components)).Nodup ↔ (saveKeys plan).Nodup := by
  rw [toSave_paths]
  refine ⟨List.Nodup.of_map _, fun distinct => distinct.map_on fun a ha b hb same => ?_⟩
  obtain ⟨statuses, names⟩ := (p.statusDir_join_eq_iff (plain a ha) (plain b hb)).mp same
  exact Prod.ext statuses names

/-! ### The copies and saves a stage shows -/

/-- The copies among some messages, in order. -/
def copiesShown (ms : List Message) : List CopyStep := ms.filterMap (·.event.copy?)

/-- The saves among some messages, in order. -/
def savesShown (ms : List Message) : List SaveStep := ms.filterMap (·.event.save?)

variable {ω : Type} (env : CycleEnv ω) (specs : Table StageKind CommandSpec)

theorem copiesShown_stamped (events : List Event) :
    copiesShown (events.map (⟨env.cycle, ·⟩)) = events.filterMap Event.copy? := by
  simp [copiesShown, List.filterMap_map]

theorem savesShown_stamped (events : List Event) :
    savesShown (events.map (⟨env.cycle, ·⟩)) = events.filterMap Event.save? := by
  simp [savesShown, List.filterMap_map]

/-- Before its program an invoke stage with a program shows the first `k` of the plan's copies,
and no other stage shows any. -/
theorem copies_shownBefore (kind : StageKind) (plan : Plan) (k : Nat) :
    (shownBefore env specs kind plan k).filterMap Event.copy? =
      if kind = .invoke ∧ (specs.get? kind).isSome then
        (copySteps (scratchOf kind env.pathset) plan).take k
      else [] := by
  unfold shownBefore
  by_cases invoke : kind = .invoke
  · subst invoke
    by_cases program : (specs.get? StageKind.invoke).isSome
    · simp [program, List.filterMap_append, List.filterMap_map, Function.comp_def, Event.copy?,
        Progress.filterMap_item?_through]
    · simp [program, List.filterMap_map, Function.comp_def, Event.copy?]
  · simp [invoke]

theorem saves_shownBefore (kind : StageKind) (plan : Plan) (k : Nat) :
    (shownBefore env specs kind plan k).filterMap Event.save? = [] := by
  unfold shownBefore
  split
  · split <;> simp [List.filterMap_append, List.filterMap_map, Function.comp_def, Event.save?]
  · rfl

theorem copies_shownAfter (kind : StageKind) (plan : Plan) (k : Nat) :
    (shownAfter env kind plan k).filterMap Event.copy? = [] := by
  unfold shownAfter
  split
  · simp [List.filterMap_map, Function.comp_def, Event.copy?]
  · split <;> simp [List.filterMap_append, List.filterMap_map, Function.comp_def, Event.copy?]
  · rfl

/-- After its program an analyse stage shows the first `k` saves of the plan handed on, and
no other stage shows any. -/
theorem saves_shownAfter (kind : StageKind) (plan : Plan) (k : Nat) :
    (shownAfter env kind plan k).filterMap Event.save? =
      if kind = .analyse then ((toSave plan).map (saveStep env.pathset)).take k else [] := by
  unfold shownAfter
  split
  · simp [List.filterMap_map, Function.comp_def, Event.save?]
  · split <;> simp [List.filterMap_append, List.filterMap_map, Function.comp_def, Event.save?,
      Progress.filterMap_item?_through]
  · rename_i fuzz analyse
    rw [if_neg analyse]
    rfl

theorem copies_shownBefore_initial (kind : StageKind) (plan : Plan) (k : Nat) :
    (shownBefore env specs kind plan k).filterMap Event.copy? <+:
      copySteps (scratchOf kind env.pathset) plan := by
  rw [copies_shownBefore]
  split
  · exact List.take_prefix _ _
  · exact List.nil_prefix

theorem saves_shownAfter_initial (kind : StageKind) (plan : Plan) (k : Nat) :
    (shownAfter env kind plan k).filterMap Event.save? <+:
      (toSave plan).map (saveStep env.pathset) := by
  rw [saves_shownAfter]
  split
  · exact List.take_prefix _ _
  · exact List.nil_prefix

/-- What a stage shows of its copies and saves: in order, the first of the copies of the plan
it is given, and, when it shows a save, the first of the saves of the plan its program handed
on; one case per way the stage ends. -/
theorem Shows.copies_and_saves {kind : StageKind} {plan : Plan} {events : List Event}
    {r : Except Halt Plan} (shows : Shows env specs kind plan events r) :
    events.filterMap Event.copy? <+: copySteps (scratchOf kind env.pathset) plan ∧
      (events.filterMap Event.save? = [] ∨ ∃ plan', HandedOn specs kind plan plan' ∧
        events.filterMap Event.save? <+: (toSave plan').map (saveStep env.pathset)) := by
  cases shows with
  | copyFailed | programFailed =>
    -- the stage ended before its program handed a plan on: only copies were shown
    exact ⟨copies_shownBefore_initial env specs kind plan _,
      .inl (saves_shownBefore env specs kind plan _)⟩
  | saveFailed handed | finished handed =>
    rw [List.filterMap_append, List.filterMap_append, copies_shownAfter, List.append_nil,
      saves_shownBefore, List.nil_append]
    exact ⟨copies_shownBefore_initial env specs kind plan _,
      .inr ⟨_, handed, saves_shownAfter_initial env kind _ _⟩⟩

/-- In every run of a stage, whatever its file operations, program and clock answer, the copies
it shows are, in corpus order, the first of the plan's copies, each from a subject's source to
the stage's scratch directory joined with the subject's archive name; and two of the plan's
copies share a destination (a path of the same components) exactly when their archive names are
equal, for plain names. When it shows saves, they are the first of the saves of the plan its program handed on,
each at its status's directory joined with the archive name, and two of those saves share a
path exactly when they have the same status and archive name, for plain archive names. -/
theorem stage_archives_apart {files : Files ω} {kind : StageKind} {cx : Context} {plan : Plan}
    {evs : List (Routine.Event (Outcall ω) ω Item)} {r : Except Halt Plan}
    (runs : Routine.Runs (run files specs env kind cx plan) evs r) :
    copiesShown (Outcall.shown evs) <+: copySteps (scratchOf kind env.pathset) plan ∧
    ((∀ a ∈ archiveNames plan, Path.IsPlainName a) →
      (((copySteps (scratchOf kind env.pathset) plan).map (·.dst.components)).Nodup ↔
        (archiveNames plan).Nodup)) ∧
    (savesShown (Outcall.shown evs) = [] ∨ ∃ plan', HandedOn specs kind plan plan' ∧
      savesShown (Outcall.shown evs) <+: (toSave plan').map (saveStep env.pathset) ∧
      ((∀ key ∈ saveKeys plan', Path.IsPlainName key.2) →
        ((((toSave plan').map (saveStep env.pathset)).map (·.path.components)).Nodup ↔
          (saveKeys plan').Nodup))) := by
  obtain ⟨events, shown, shows⟩ := runs_shows env files specs runs
  obtain ⟨copies, saves⟩ := shows.copies_and_saves
  rw [shown, copiesShown_stamped, savesShown_stamped]
  refine ⟨copies, copy_dsts_nodup_iff _ plan, ?_⟩
  rcases saves with none | ⟨plan', handed, prefixed⟩
  · exact .inl none
  · exact .inr ⟨plan', handed, prefixed, save_paths_nodup_iff _ plan'⟩

/-! ### A stage whose copies all succeed -/

section Runs

variable {α β ε : Type} (wrap : Progress β → Event) (view : α → β)
  (work : α → Routine (Outcall ω) ω Item (Except ε Unit))

/-- When the work of every item can succeed, so can the pass through them; by induction on the
items. -/
theorem steps_runs_ok (items : List α)
    (ok : ∀ x ∈ items, ∃ evs, Routine.Runs (work x) evs (.ok ())) (i : Nat) :
    ∃ evs, Routine.Runs (steps env wrap view work i items) evs (.ok ()) := by
  induction items generalizing i with
  | nil => exact ⟨[], .pure _⟩
  | cons x rest ih =>
    obtain ⟨first, worked⟩ := ok x List.mem_cons_self
    obtain ⟨later, passed⟩ := ih (fun y mem => ok y (List.mem_cons_of_mem _ mem)) (i + 1)
    refine ⟨first ++ ([.call (.emit env.observers ⟨env.cycle, wrap (.step i (view x))⟩) ()] ++ later), ?_⟩
    rw [steps_cons]
    exact Routine.runs_bind_iff.mpr ⟨_, _, .ok (), rfl, worked,
      Routine.runs_bind_iff.mpr ⟨_, _, (), rfl, (runs_announce env).mpr rfl, passed⟩⟩

theorem progress_runs_ok (items : List α)
    (ok : ∀ x ∈ items, ∃ evs, Routine.Runs (work x) evs (.ok ())) :
    ∃ evs, Routine.Runs (progress env wrap view items work) evs (.ok ()) := by
  cases empty : items.isEmpty with
  | true =>
    rw [progress_of_isEmpty env wrap view work empty]
    exact ⟨[], .pure _⟩
  | false =>
    rw [progress_of_ne env wrap view work empty]
    obtain ⟨passed, pass⟩ := steps_runs_ok env wrap view work items ok 0
    exact ⟨_, Routine.runs_bind_iff.mpr ⟨_, _, (), rfl, (runs_announce env).mpr rfl,
      Routine.runs_bind_iff.mpr ⟨passed, _, .ok (), rfl, pass,
        Routine.runs_bind_iff.mpr ⟨_, [], (), rfl, (runs_announce env).mpr rfl, .pure _⟩⟩⟩⟩

end Runs

/-- A copy can succeed: its directory is made and the file copied. -/
theorem copyOne_runs_ok (files : Files ω) (dir : Path) (c : CopyStep) :
    ∃ evs, Routine.Runs (copyOne files dir c) evs (.ok ()) :=
  ⟨_, .run (.await 0 .ready ⟨_, rfl, trivial⟩ (.touch (.ok ())
    (.await 0 .ready ⟨_, rfl, trivial⟩ (.touch (.ok ()) (.pure _))))) (.pure _)⟩

theorem report_runs {β : Type} (wrap : Progress β → Event) (items : List β) :
    ∃ evs, Routine.Runs (report env wrap items) evs () := by
  obtain ⟨passed, pass⟩ := progress_runs_ok env wrap id
    (fun _ => (pure (.ok ()) : Routine (Outcall ω) ω Item (Except Empty Unit))) items
    fun _ _ => ⟨[], .pure _⟩
  exact ⟨_, Routine.runs_bind_iff.mpr ⟨passed, [], .ok (), rfl, pass, .pure _⟩⟩

/-- An invoke stage whose program cannot be started, every copy before it having succeeded:
it shows every copy of the plan and fails with the program's failure to start. -/
theorem runs_invoke_unstarted {files : Files ω} {cx : Context} {plan : Plan} {s : CommandSpec}
    (program : specs.get? .invoke = some s) (io : IoError) :
    ∃ evs, Routine.Runs (run files specs env .invoke cx plan) evs
        (.error (.failed (CommandError.spawn s.program io).cause)) ∧
      copiesShown (Outcall.shown evs) = copySteps (scratchOf .invoke env.pathset) plan := by
  obtain ⟨reported, reporting⟩ := report_runs env .compilerConfig (compilerSteps plan)
  obtain ⟨copied, copying⟩ := progress_runs_ok env .copy id (copyOne files _)
    (copySteps (scratchOf .invoke env.pathset) plan) fun c _ => copyOne_runs_ok files _ c
  have before_runs : Routine.Runs (before files specs env .invoke plan) (reported ++ copied) (.ok ()) := by
    rw [before_invoke, if_pos (by simp [program])]
    exact Routine.runs_bind_iff.mpr ⟨_, _, (), rfl, reporting, copying⟩
  have unstarted : Proc.Runs (execute files cx s (vars .invoke env) plan)
      [.order .now (.id 0), .await [.file] 0 .ready, .touch] (.error (.spawn s.program io)) :=
    .order (.id 0) (.await 0 .ready ⟨_, rfl, trivial⟩ (.touch (.error io) (.pure _)))
  have program_runs : Routine.Runs (CommandStages.program files specs env .invoke cx plan)
      [.effect (.order .now (.id 0)), .effect (.await [.file] 0 .ready), .effect .touch]
      (.error (.spawn s.program io)) := by
    unfold CommandStages.program
    rw [program]
    exact .run unstarted (.pure _)
  have clock : Routine.Runs (Routine.lift Proc.now : Routine (Outcall ω) ω Item Nat)
      [.effect (.order .now (.id 0))] 0 :=
    Routine.runs_lift_iff.mpr ⟨[.order .now (.id 0)], rfl, .order (.id 0) (.pure _)⟩
  refine ⟨[.effect (.order .now (.id 0))] ++ (reported ++ copied ++
    [.effect (.order .now (.id 0)), .effect (.await [.file] 0 .ready), .effect .touch]), ?_, ?_⟩
  · rw [run_eq]
    exact Routine.runs_bind_iff.mpr ⟨_, _, 0, rfl, clock,
      Routine.runs_bind_iff.mpr ⟨_, _, .ok (), rfl, before_runs,
        Routine.runs_bind_iff.mpr ⟨_, [], _, (List.append_nil _).symm, program_runs, .pure _⟩⟩⟩
  · obtain ⟨k, -, shown, ends⟩ := runs_before env files specs before_runs
    have whole : k = (copySteps (scratchOf .invoke env.pathset) plan).length := by
      rcases ends with ⟨whole, -⟩ | ⟨-, -, c, -, io', never⟩
      · exact whole
      · cases never
    have quiet : Outcall.shown ([.effect (.order .now (.id 0)), .effect (.await [.file] 0 .ready),
        .effect .touch] : List (Routine.Event (Outcall ω) ω Item)) = [] := rfl
    have start : Outcall.shown ([.effect (.order .now (.id 0))] :
        List (Routine.Event (Outcall ω) ω Item)) = [] := rfl
    rw [Outcall.shown_append, start, List.nil_append, Outcall.shown_append, quiet, List.append_nil,
      shown, copiesShown_stamped, copies_shownBefore, if_pos ⟨rfl, by simp [program]⟩, whole,
      List.take_length]

/-! ### Two stages of a fresh machine -/

/-- Files kept as the whole state. -/
def treeFiles : Files Tree := ⟨id, fun t _ => t⟩

/-- A cycle of machine `localhost`, writing under `out`, with no observers. -/
def localEnv : CycleEnv Tree where
  cycle := ⟨0, ⟨"localhost"⟩, 0⟩
  quantities := {}
  pathset := Pathset.ofMachine ⟨"out"⟩ ⟨"localhost"⟩
  observers := []
  fuzzer := none
  filters := {}

/-- An invoke program that hands the plan on as it is. -/
def passOn : Table StageKind CommandSpec := ⟨[(.invoke, { program := "sh", args := ["-c", "cat"] })],
  by decide⟩

/-- Two subjects whose sources have file names of their own. -/
def apartSources : Plan :=
  { corpus := ⟨[("a", { source := "x/a.litmus" }), ("b", { source := "y/b.litmus" })], by decide⟩ }

theorem stage_archives_apart_apartSources :
    ∃ evs r, Routine.Runs (run treeFiles passOn localEnv .invoke .background apartSources) evs r ∧
      copiesShown (Outcall.shown evs) <+: copySteps (scratchOf .invoke localEnv.pathset) apartSources ∧
      ((copySteps (scratchOf .invoke localEnv.pathset) apartSources).map (·.dst.components)).Nodup := by
  obtain ⟨evs, runs, -⟩ : ∃ evs, Routine.Runs
      (run treeFiles passOn localEnv .invoke .background apartSources) evs (.error _) ∧ _ :=
    runs_invoke_unstarted localEnv passOn rfl .notFound
  obtain ⟨copies, distinct, -⟩ := stage_archives_apart localEnv passOn runs
  exact ⟨evs, _, runs, copies, (distinct (by decide +kernel)).mpr (by decide +kernel)⟩

/-- Two subjects whose sources share the file name `f.litmus`. -/
def twinSources : Plan :=
  { corpus := ⟨[("a", { source := "x/f.litmus" }), ("b", { source := "y/f.litmus" })], by decide⟩ }

/-- An invoke stage run on two subjects whose sources share a file name copies both to one
destination. -/
theorem copies_share_destination :
    ∃ evs r, Routine.Runs (run treeFiles passOn localEnv .invoke .background twinSources) evs r ∧
      (copiesShown (Outcall.shown evs)).map (·.dst.text) =
        ["out/localhost/scratch/run/f.litmus", "out/localhost/scratch/run/f.litmus"] := by
  obtain ⟨evs, runs, copies⟩ : ∃ evs, Routine.Runs
      (run treeFiles passOn localEnv .invoke .background twinSources) evs (.error _) ∧ _ :=
    runs_invoke_unstarted localEnv passOn rfl .notFound
  exact ⟨evs, _, runs, by rw [copies]; decide +kernel⟩

end CommandStages

end Campaign
