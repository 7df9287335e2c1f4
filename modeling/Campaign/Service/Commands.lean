import Campaign.Command.Stages
import Campaign.Service.Bench
import Campaign.Service.Cycles
import Campaign.Service.Settings
import Campaign.Async.Scheduler

/-! The `command` operation runs one stage, or all five in order as a cycle does, over a file tree
holding the request's files, for one machine whose directories are under `out`. The answer shows
every event the stages reported, every directory and file under `out` in path order, and the
plan handed on or the failure.
-/

namespace Campaign

namespace Service

open Async

/-- The shared state of the operation: the file tree and the events reported. -/
structure Workshop where
  files : Tree
  seen : List Event := []
  /-- The plan handed on or the failure, once the stages are over. -/
  outcome : List (String × Json) := []

/-- Where the workshop keeps its files. -/
def Workshop.fileTree : Files Workshop := ⟨Workshop.files, fun t w => { w with files := t }⟩

/-- The observer that keeps every event. -/
def watcher : Observer Workshop where
  observe msg := Proc.modify fun w => { w with seen := w.seen ++ [msg.event] }

/-- Progress as answered: `{"start": n}`, `{"step": i, "item": x}` or `"end"`. -/
def progressJson {α : Type} (item : α → Json) : Progress α → Json
  | .start n => .object [("start", .nat n)]
  | .step i x => .object [("step", .nat i), ("item", item x)]
  | .done => .string "end"

/-- The body of a reported event. -/
def reportedBody : Event → Json
  | .compilerConfig p => progressJson (fun c => .object [("name", .string c.name),
      ("config", c.config.toJson)]) p
  | .save p => progressJson (fun s => .object [("subject", .string s.subject),
      ("status", s.status.toJson), ("path", .string s.path.text)]) p
  | .build p => progressJson (fun b => .object [("subject", .string b.subject)]) p
  | .copy p => progressJson (fun c => .object [("src", .string c.src.text),
      ("dst", .string c.dst.text)]) p
  | e => eventBody e

/-- A reported event as answered. -/
def reportedJson (e : Event) : Json :=
  .object [("kind", .string e.kind.name), ("body", reportedBody e)]

/-- The directories and files below a directory, each with its path from `top`. -/
def listing (t : Tree) (top : Path) : List Json :=
  match t.locate top with
  | .ok place => (t.below place).map fun (q, n) =>
    let p := top.text ++ "/" ++ "/".intercalate (q.drop place.length)
    match n with
    | .dir => .object [("dir", .string p)]
    | .file c => .object [("file", .string p), ("content", .string c)]
  | .error _ => []

/-- Make files with their contents, each with its missing parent directories. -/
def writeFiles (t : Tree) (files : List (String × String)) : Tree :=
  files.foldl (fun t (path, content) =>
    let p : Path := ⟨path⟩
    let t := match Tree.parentOf p with
      | some parent => (t.createDirAll parent).toOption.getD t
      | none => t
    (t.write p content).toOption.getD t) t

/-- What the operation runs: one stage, or all of them. -/
inductive StageChoice where
  | one (kind : StageKind)
  | all

/-- `command`: stages carried out by programs. -/
def commandAnswer (req : Json) : Answer := do
  let choice ← match req.field "stage" with
    | .string "all" => pure StageChoice.all
    | v => (fun k => StageChoice.one (StageKind.ofNormal k)) <$>
        (StageKind.shape.ofValue v).mapError jsonFault
  let specs ← readOr req "specs" (.map (.variant StageKind.names) CommandSpec.shape) (.object [])
  let specs : Table StageKind CommandSpec :=
    Table.ofList (specs.asMembers.filterMap fun (k, v) =>
      (StageKind.ofName? k).map fun kind => (kind, CommandSpec.ofNormal v))
  let plan := Plan.ofNormal (← readOr req "plan" Plan.shape (.object []))
  let machine : MachineId := ⟨← stringSetting req "machine" "localhost"⟩
  let iter ← natSetting req "iter" 0
  let quantities := QuantitySet.ofNormal (← readOr req "quantities" QuantitySet.shape (.object []))
  let fuzzer := (← readOr req "fuzzer" (.optional (.map .text .any)) .null).asOption
    (Table.ofNormal id)
  let filters := FilterSet.ofNormal (← readOr req "filters" FilterSet.shape (.array []))
  let given ← setting req "files" (.map .text Shape.str) (.object [])
  let prepare ← boolSetting req "prepare_scratch" true
  let pathset := Pathset.ofMachine ⟨"out"⟩ machine
  let tree := writeFiles {} (given.asMembers.map fun (k, v) => (k, v.asString))
  let env : CycleEnv Workshop :=
    ⟨⟨0, machine, iter⟩, quantities, pathset, [watcher], fuzzer, filters⟩
  let set := commandStages Workshop.fileTree specs
  let stages : Proc Workshop Item (List (String × Json)) := do
    if prepare then
      let _ ← Workshop.fileTree.prepareScratch pathset
    let cx := Context.background
    match choice with
    | .all =>
      match ← runStages cx (set.stages env) plan with
      | .ok p => return [("plan", shownPlan false p)]
      | .error e => return [("error", cycleFailureJson e)]
    | .one kind =>
      match (set.stages env).find? (·.kind == kind) with
      | some stage =>
        match ← stage.run cx plan with
        | .ok p => return [("plan", shownPlan false p)]
        | .error (.failed c) => return [("error", causeFailure "CommandError" c)]
        | .error .panicked => return [("error", failure "StageError" "stage panicked")]
      | none => return [("error", failure "StageError" "no such stage")]
  let main : Proc Workshop Item Item := do
    let outcome ← stages
    Proc.modify fun w => { w with outcome }
    return .done
  let world : Workshop := { files := tree }
  match Scheduler.runMain world main with
  | (some _, s) =>
    let w := s.world
    return .object ([("events", .array (w.seen.map reportedJson)),
      ("files", .array (listing w.files ⟨"out"⟩)), ("closed_ok", .bool true)] ++ w.outcome)
  | _ => .error (failure "Hung" "the stage never finished")

end Service

end Campaign
