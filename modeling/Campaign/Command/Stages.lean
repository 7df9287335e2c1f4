import Campaign.Instance.Env
import Campaign.Command.Error
import Campaign.Command.Spec
import Campaign.Command.Program
import Campaign.Schema.OfText
import Campaign.Json.Write
import Campaign.Async.Routine

/-! Stages carried out by programs that read the plan as compact JSON and write the next one; a
stage without a program passes the plan on. Around its program, invoke copies the subjects'
sources, fuzz reports the corpus and analyse saves the subjects of saved statuses, and a
program that cannot start, runs out of time, fails or writes no plan fails its stage.
-/

namespace Campaign

open Async

namespace CommandStages

variable {ω : Type}

/-- The scratch directory of a stage. -/
def scratchOf (kind : StageKind) (p : Pathset) : Path :=
  match kind with
  | .fuzz => p.scratchFuzz
  | .lift => p.scratchLift
  | .invoke => p.scratchRun
  | .perturb | .analyse => p.scratch

/-- The variables a stage's program sees. -/
def vars (kind : StageKind) (env : CycleEnv ω) : List (String × String) :=
  let common :=
    [("CAMPAIGN_STAGE", kind.name), ("CAMPAIGN_MACHINE", env.cycle.machine.text),
     ("CAMPAIGN_ITER", toString env.cycle.iter),
     ("CAMPAIGN_SCRATCH", (scratchOf kind env.pathset).text),
     ("CAMPAIGN_SAVED", env.pathset.saved.text),
     ("CAMPAIGN_QUANTITIES", Json.compact env.quantities.toJson)]
  let own := match kind, env.fuzzer with
    | .fuzz, some f => [("CAMPAIGN_FUZZER", Json.compact (Table.toJson id f))]
    | .invoke, _ => [("CAMPAIGN_FILTERS", Json.compact env.filters.toJson)]
    | _, _ => []
  common ++ own

/-- Whether a character is white space, as Unicode counts it. -/
def isSpace (c : Char) : Bool :=
  let n := c.toNat
  (9 ≤ n && n ≤ 13) || n == 32 || n == 0x85 || n == 0xA0 || n == 0x1680 ||
    (0x2000 ≤ n && n ≤ 0x200A) || n == 0x2028 || n == 0x2029 || n == 0x202F || n == 0x205F ||
    n == 0x3000

/-- Text without white space at either end. -/
def trimSpace (s : String) : String :=
  String.ofList ((s.toList.dropWhile isSpace).reverse.dropWhile isSpace).reverse

/-! ### Progress

A stage shows its progress through a list of items as a stream of events: the start with the
number of items, a step per item once its work is done, numbered from 0, and the end. A stage
shows events by calling its observers; the rest of its work is its own code. -/

/-- Show an event of the cycle to its observers. -/
def announce (env : CycleEnv ω) (e : Event) : Routine (Outcall ω) ω Item Unit :=
  Routine.invoke (.emit env.observers ⟨env.cycle, e⟩)

/-- Work through the items one after the other, showing each as a step numbered from `i` once
its work is done; the first item whose work fails stops the rest, with that failure. -/
def steps {α β ε : Type} (env : CycleEnv ω) (wrap : Progress β → Event) (view : α → β)
    (work : α → Routine (Outcall ω) ω Item (Except ε Unit)) :
    Nat → List α → Routine (Outcall ω) ω Item (Except ε Unit)
  | _, [] => pure (.ok ())
  | i, x :: rest => do
    match ← work x with
    | .error e => pure (.error e)
    | .ok () =>
      announce env (wrap (.step i (view x)))
      steps env wrap view work (i + 1) rest

/-- Work through the items showing the progress: nothing when there are none; otherwise the
start with their number, the steps, and the end once every item's work is done. -/
def progress {α β ε : Type} (env : CycleEnv ω) (wrap : Progress β → Event) (view : α → β)
    (items : List α) (work : α → Routine (Outcall ω) ω Item (Except ε Unit)) :
    Routine (Outcall ω) ω Item (Except ε Unit) :=
  if items.isEmpty then pure (.ok ())
  else do
    announce env (wrap (.start items.length))
    match ← steps env wrap view work 0 items with
    | .error e => pure (.error e)
    | .ok () =>
      announce env (wrap .done)
      pure (.ok ())

/-- Report items that need no work. -/
def report {β : Type} (env : CycleEnv ω) (wrap : Progress β → Event) (items : List β) :
    Routine (Outcall ω) ω Item Unit := do
  let _ ← progress env wrap id items fun _ =>
    (pure (.ok ()) : Routine (Outcall ω) ω Item (Except Empty Unit))
  pure ()

/-- The compilers of a plan, as reported. -/
def compilerSteps (plan : Plan) : List CompilerStep :=
  plan.compilers.entries.map fun (name, config) => ⟨name, config⟩

/-- The subjects of a plan's corpus, as reported. -/
def buildSteps (plan : Plan) : List BuildStep := plan.corpus.keys.map fun subject => ⟨subject⟩

/-- Report the compilers of a plan. -/
def reportCompilers (env : CycleEnv ω) (plan : Plan) : Routine (Outcall ω) ω Item Unit :=
  report env .compilerConfig (compilerSteps plan)

/-- Report the subjects of a plan's corpus. -/
def reportCorpus (env : CycleEnv ω) (plan : Plan) : Routine (Outcall ω) ω Item Unit :=
  report env .build (buildSteps plan)

/-- The name a subject's source is archived under: its file name, or the subject's name. -/
def archiveName (subject source : String) : String :=
  (Path.fileName ⟨source⟩).getD subject

/-- Copy a file into a directory, making the directory first; the directory stays when the
copy fails. -/
def copyInto (files : Files ω) (dir : Path) (src dst : Path) : Proc ω Item (Except IoError Unit) := do
  match ← files.run (·.createDirAll dir) with
  | .error e => return .error e
  | .ok () => files.run (·.copy src dst)

/-- The copy of every subject's source into a directory, under its archive name. -/
def copySteps (dir : Path) (plan : Plan) : List CopyStep :=
  plan.corpus.entries.map fun (name, subject) =>
    ⟨⟨subject.source⟩, dir.join (archiveName name subject.source)⟩

/-- Copy one file into a directory, failing with the copy's error. -/
def copyOne (files : Files ω) (dir : Path) (c : CopyStep) :
    Routine (Outcall ω) ω Item (Except CommandError Unit) := do
  match ← Routine.lift (copyInto files dir c.src c.dst) with
  | .error e => pure (.error (.copy c.src.text c.dst.text e))
  | .ok () => pure (.ok ())

/-- Copy every subject's source into a directory, reporting each copy; the first failure
stops. -/
def copySubjects (files : Files ω) (env : CycleEnv ω) (dir : Path) (plan : Plan) :
    Routine (Outcall ω) ω Item (Except CommandError Unit) :=
  progress env .copy id (copySteps dir plan) (copyOne files dir)

/-- The subjects to save: by status, for each saved status, each subject having a
compilation of it, with its source. -/
def toSave (plan : Plan) : List (String × Status × String) :=
  plan.subjectsByStatus.entries.flatMap fun (status, names) =>
    if status.isSaved then
      names.filterMap fun name => (plan.corpus.get? name).map fun s => (name, status, s.source)
    else []

/-- A subject saved under its status, as reported: the path it is saved at. -/
def saveStep (p : Pathset) (item : String × Status × String) : SaveStep :=
  ⟨item.1, item.2.1, (p.statusDir item.2.1).join (archiveName item.1 item.2.2)⟩

/-- Save one subject under the directory of its status, failing with the save's error. -/
def saveOne (files : Files ω) (env : CycleEnv ω) (item : String × Status × String) :
    Routine (Outcall ω) ω Item (Except CommandError Unit) := do
  let step := saveStep env.pathset item
  match ← Routine.lift (copyInto files (env.pathset.statusDir item.2.1) ⟨item.2.2⟩ step.path) with
  | .error e => pure (.error (.save item.1 e))
  | .ok () => pure (.ok ())

/-- Save the subjects of saved statuses, reporting each; the first failure stops. -/
def saveSubjects (files : Files ω) (env : CycleEnv ω) (plan : Plan) :
    Routine (Outcall ω) ω Item (Except CommandError Unit) :=
  progress env .save (saveStep env.pathset) (toSave plan) (saveOne files env)

/-- The context a stage program started at `start` runs in: its caller's, limited by a
deadline of its own when it has a time limit. -/
def limitOf (cx : Context) (spec : CommandSpec) (start : Nat) : Context :=
  match spec.timeoutSecs with
  | some secs => cx.withDeadline (start + secs * 1000)
  | none => cx

/-- The failure a stage reports when its program's context is done for `r`: a passed deadline
is the program's timeout whenever it has a limit, whichever deadline it was. -/
def stopError (spec : CommandSpec) (r : Cancelled) : CommandError :=
  match r, spec.timeoutSecs with
  | .deadlineExceeded, some secs => .timeout spec.program (Duration.ofSecs secs)
  | _, _ => .cancelled r

/-- What a stage waits on while its program runs: the end of the program's context, and the
program's end, `length` after its start at `start`. The context comes first. -/
def race (cx : Context) (spec : CommandSpec) (start length : Nat) : List (Wait Item) :=
  [.done (limitOf cx spec start), .sleepUntil (start + length)]

/-- What a program that ended hands on: its failure when it exited unsuccessfully (with its
standard error, without surrounding white space), else the plan it wrote. -/
def handOn (program : String) (done : Program.Finished) : Except CommandError Plan :=
  if !done.status.success then .error (.exit program done.status (trimSpace done.stderr))
  else
    match Shape.ofText Plan.shape done.stdout with
    | .error f => .error (.json f)
    | .ok j => .ok (Plan.ofNormal j)

/-- Run a stage's program on a plan: the plan it writes back. The program is started on the
files as they are and takes the time it takes on them; the stage waits for it to end or for its
context to be done, whichever comes first, the context winning a tie. A program that ends leaves
its effects on the files as they are when it ends; one whose context is done first is killed,
leaving the effects it made until then. -/
def execute (files : Files ω) (cx : Context) (spec : CommandSpec) (vars : List (String × String))
    (plan : Plan) : Proc ω Item (Except CommandError Plan) := do
  let input := Json.compact plan.toJson
  let start ← Proc.now
  let started ← Proc.file fun w =>
    (w, (Program.run (files.get w) spec.program spec.args vars input none).map (·.elapsed))
  match started with
  | .error e => return .error (.spawn spec.program e)
  | .ok length =>
    match ← Proc.select (race cx spec start length) with
    | (0, .done r) =>
      let stopped ← Proc.now
      Proc.file fun w =>
        match Program.run (files.get w) spec.program spec.args vars input (some (stopped - start)) with
        | .ok killed => (files.set killed.tree w, ())
        | .error _ => (w, ())
      return .error (stopError spec r)
    | _ =>
      let ran ← Proc.file fun w =>
        match Program.run (files.get w) spec.program spec.args vars input none with
        | .error e => (w, Except.error e)
        | .ok done => (files.set done.tree w, .ok done)
      match ran with
      | .error e => return .error (.wait spec.program e)
      | .ok done => return handOn spec.program done

/-! ### The stage -/

/-- What a stage does before its program: invoke reports the plan's compilers and, when it has
a program, copies the subjects into its scratch directory. -/
def before (files : Files ω) (specs : Table StageKind CommandSpec) (env : CycleEnv ω)
    (kind : StageKind) (plan : Plan) : Routine (Outcall ω) ω Item (Except CommandError Unit) :=
  if kind == .invoke then do
    reportCompilers env plan
    if (specs.get? kind).isSome then copySubjects files env (scratchOf kind env.pathset) plan
    else pure (.ok ())
  else pure (.ok ())

/-- The stage's program, or the plan passed on unchanged when it has none. -/
def program (files : Files ω) (specs : Table StageKind CommandSpec) (env : CycleEnv ω)
    (kind : StageKind) (cx : Context) (plan : Plan) :
    Routine (Outcall ω) ω Item (Except CommandError Plan) :=
  match specs.get? kind with
  | some s => Routine.lift (execute files cx s (vars kind env) plan)
  | none => pure (.ok plan)

/-- What a stage does after its program, with the plan the program handed on: fuzz reports
the corpus, analyse saves the subjects and then shows the plan's analysis. -/
def after (files : Files ω) (env : CycleEnv ω) (kind : StageKind) (plan : Plan) :
    Routine (Outcall ω) ω Item (Except CommandError Unit) :=
  match kind with
  | .fuzz => do
    reportCorpus env plan
    pure (.ok ())
  | .analyse => do
    match ← saveSubjects files env plan with
    | .error e => pure (.error e)
    | .ok () =>
      announce env (.analysis (Mutation.Analysis.ofPlan plan))
      pure (.ok ())
  | _ => pure (.ok ())

/-- A stage: its work before the program, the program, its work after, and the stage recorded
in the plan handed on with the time it took; the first failure fails the stage. -/
def run (files : Files ω) (specs : Table StageKind CommandSpec) (env : CycleEnv ω)
    (kind : StageKind) (cx : Context) (plan : Plan) :
    Routine (Outcall ω) ω Item (Except Halt Plan) := do
  let started ← Routine.lift Proc.now
  match ← before files specs env kind plan with
  | .error e => pure (.error (.failed e.cause))
  | .ok () =>
    match ← program files specs env kind cx plan with
    | .error e => pure (.error (.failed e.cause))
    | .ok plan =>
      match ← after files env kind plan with
      | .error e => pure (.error (.failed e.cause))
      | .ok () =>
        let now ← Routine.lift Proc.now
        pure (.ok (plan.recordStage kind now (now - started)))

/-- A stage of a cycle, run by its program when it has one; its calls to the observers are
filled in with their code. -/
def stage (files : Files ω) (specs : Table StageKind CommandSpec) (env : CycleEnv ω)
    (kind : StageKind) : Stage ω Item :=
  ⟨kind, fun cx plan => (run files specs env kind cx plan).toProc Outcall.perform⟩

end CommandStages

/-- The stage set whose stages run the programs of `specs`. -/
def commandStages {ω : Type} (files : Files ω) (specs : Table StageKind CommandSpec) :
    StageSet ω where
  build _ w := (w, .ok ())
  stages env := StageKind.all.map (CommandStages.stage files specs env)
  close := return .ok ()

end Campaign
