import Campaign.Instance.Run
import Campaign.Service.Reply
import Campaign.Observer.Forward
import Campaign.Observer.Delivery
import Campaign.Director.Error

/-! The bench runs instances whose stages follow a script instead of running programs: a stage may
sleep, fail its first runs, clobber the scratch directory, report an analysis with a kill or
die, as the request says. A recorder observes every event with the time it saw it, and the
bench's shared state holds the file tree, what was recorded and launched, and what is left of
each machine's counted failures.
-/

namespace Campaign

namespace Service

open Async Mutation

/-- A stage script. -/
structure Script where
  stageMs : Nat := 50
  contextAware : Bool := false
  failures : Nat := 0
  failStage : StageKind := .fuzz
  buildFailures : Nat := 0
  clobbers : Nat := 0
  kill : Bool := false
  analysis : Bool := false
  panicStage : Option StageKind := none

/-- The fields of a script. -/
def Script.shape : Shape :=
  .record "Script"
    [Shape.fieldOr "stage_ms" Shape.u64 (.nat 50),
     Shape.fieldOr "context_aware" .bool (.bool false),
     Shape.fieldOr "failures" Shape.usize (.nat 0),
     Shape.fieldOr "fail_stage" StageKind.shape (.string "fuzz"),
     Shape.fieldOr "build_failures" Shape.usize (.nat 0),
     Shape.fieldOr "clobbers" Shape.usize (.nat 0),
     Shape.fieldOr "kill" .bool (.bool false),
     Shape.fieldOr "analysis" .bool (.bool false),
     Shape.fieldOr "panic_stage" (.optional StageKind.shape) .null]

/-- The script of a normal value of `shape`. -/
def Script.ofNormal (j : Json) : Script :=
  { stageMs := (j.field "stage_ms").asNat, contextAware := (j.field "context_aware").asBool,
    failures := (j.field "failures").asNat, failStage := StageKind.ofNormal (j.field "fail_stage"),
    buildFailures := (j.field "build_failures").asNat, clobbers := (j.field "clobbers").asNat,
    kill := (j.field "kill").asBool, analysis := (j.field "analysis").asBool,
    panicStage := (j.field "panic_stage").asOption StageKind.ofNormal }

/-- What is left of a script's counted failures. -/
structure Budget where
  failures : Nat
  buildFailures : Nat
  clobbers : Nat

/-- What a launch recorded: the machine, the time, and what the cycle was given. -/
structure Launch where
  machine : MachineId
  iter : Nat
  mutant : Option Mutant
  subjects : Nat
  atMs : Nat
  quantities : QuantitySet
  fuzzer : Option FuzzerConfig
  filters : FilterSet

/-- A launch as answered. -/
def Launch.toJson (l : Launch) : Json :=
  .object [("machine", .string l.machine.text), ("iter", .nat l.iter),
    ("mutant", Json.opt Mutant.toJson l.mutant), ("subjects", .nat l.subjects),
    ("at_ms", .nat l.atMs), ("quantities", l.quantities.toJson),
    ("fuzzer", Json.opt (Table.toJson id) l.fuzzer), ("filters", l.filters.toJson)]

/-- The bench's shared state. -/
structure Bench where
  files : Tree := {}
  seen : List (Nat × Message) := []
  launches : List Launch := []
  budgets : Table MachineId Budget := {}
  /-- Each instance's machine as it was left, with the time it stopped. -/
  finished : List (Machine × Nat) := []
  /-- What the campaign logged about itself. -/
  campaignLog : LogBook := {}
  /-- The messages the forwarder delivered, in order. -/
  delivered : List Message := []
  /-- What the forwarder's handlers made of them. -/
  outputs : Outputs := {}
  /-- How building the campaign went: its number of instances, or why it failed. -/
  built : Option (Except DirectorError Nat) := none
  /-- How the campaign ended, and when. -/
  ended : Option (Except DirectorError Unit × Nat) := none
  /-- How many messages the forwarder delivered. -/
  forwarded : Nat := 0
  /-- The sinks, by instance number, whose sender was taken out. -/
  taken : List Nat := []

/-- Where the bench keeps its files. -/
def Bench.fileTree : Files Bench := ⟨Bench.files, fun t b => { b with files := t }⟩

/-- The slot of the sink of instance number `i`. -/
def Bench.slot (i : Nat) : Forwarder.Slot Bench :=
  ⟨fun b => !b.taken.contains i, fun b => { b with taken := i :: b.taken }⟩

/-- Spend one of a machine's counted failures, if any is left. -/
def Bench.spend (pick : Budget → Nat) (drop : Budget → Budget) (m : MachineId) (b : Bench) :
    Bench × Bool :=
  match b.budgets.get? m with
  | some left => if pick left > 0 then ({ b with budgets := b.budgets.insert m (drop left) }, true)
    else (b, false)
  | none => (b, false)

/-- The subject that the current mutant kills. -/
def victim (m : Mutant) : Subject :=
  let hit : Compilation := { status := .flagged, selection := some ⟨m, 1⟩ }
  { source := "", compilations := Table.ofList [("gcc", hit)] }

/-- Run a file operation of a stage; a failure fails the stage. -/
def benchFile (f : Tree → Except IoError Tree) : Proc Bench Item (Except Halt Unit) := do
  match ← Bench.fileTree.run f with
  | .ok () => return .ok ()
  | .error e => return .error (.failed (.plain e.message))

/-- A scripted stage of a cycle. -/
def benchStage (s : Script) (env : CycleEnv Bench) (kind : StageKind) : Stage Bench Item :=
  ⟨kind, fun cx plan => do
    if s.panicStage == some kind then return .error .panicked
    if kind == s.failStage then
      if ← Proc.update (Bench.spend (·.failures) (fun l => { l with failures := l.failures - 1 })
          env.cycle.machine) then
        return .error (.failed (.plain ("injected " ++ kind.name ++ " failure")))
    match kind with
    | .perturb =>
      let now ← Proc.now
      let l : Launch := ⟨env.cycle.machine, env.cycle.iter, plan.mutant, plan.corpus.size, now,
        env.quantities, env.fuzzer, env.filters⟩
      Proc.modify fun b => { b with launches := b.launches ++ [l] }
      if s.contextAware then
        match ← Proc.select [.done cx, .sleepUntil (now + s.stageMs)] with
        | (_, .done r) => return .error (.failed (.plain r.message))
        | _ => pure ()
      else Proc.sleep s.stageMs
      return .ok plan
    | .analyse =>
      if ← Proc.update (Bench.spend (·.clobbers) (fun l => { l with clobbers := l.clobbers - 1 })
          env.cycle.machine) then
        if let .error h ← benchFile (·.removeDirAll env.pathset.scratch) then return .error h
        if let .error h ← benchFile (·.write env.pathset.scratch "") then return .error h
      let plan := match plan.mutant with
        | some m => if s.kill then { plan with corpus := plan.corpus.insert "victim" (victim m) }
          else plan
        | none => plan
      if s.kill || s.analysis then emit env.observers env.cycle (.analysis (Analysis.ofPlan plan))
      return .ok plan
    | _ => return .ok plan⟩

/-- The scripted stage set of a machine. -/
def benchStages (s : Script) (m : MachineId) : StageSet Bench where
  build _ b :=
    match Bench.spend (·.buildFailures) (fun l => { l with buildFailures := l.buildFailures - 1 }) m b with
    | (b, true) => (b, .error (.plain "injected build failure"))
    | (b, false) => (b, .ok ())
  stages env := StageKind.all.map (benchStage s env)
  close := return .ok ()

/-- The recorder: every event with the time it was seen. -/
def recorder : Observer Bench where
  observe msg := do
    let now ← Proc.now
    Proc.modify fun b => { b with seen := b.seen ++ [(now, msg)] }

/-- The body of a recorded event. -/
def eventBody : Event → Json
  | .cycle .started => .string "started"
  | .cycle .finished => .string "finished"
  | .cycle (.errored e) => .object [("errored", .string e.cause.chain)]
  | .inst .closed => .string "closed"
  | .inst (.mutantChanged m) => .object [("mutant_changed", m.toJson)]
  | .analysis a => .object [("analysis", a.toJson), ("flagged", .nat a.flagged),
      ("killed", .array (a.mutation.killedMutants.map Mutant.toJson))]
  | _ => .null

/-- A recorded event as answered. -/
def seenJson (entry : Nat × Message) : Json :=
  let (at_, msg) := entry
  .object [("at_ms", .nat at_), ("machine", .string msg.cycle.machine.text),
    ("instance", .nat msg.cycle.index), ("iter", .nat msg.cycle.iter),
    ("kind", .string msg.event.kind.name), ("body", eventBody msg.event)]

/-- An instance failure as answered. -/
def instanceFailureJson (e : InstanceError) : Json :=
  .object [("error", .string "InstanceError"), ("message", .string e.message),
    ("chain", .string e.cause.chain), ("is_cancellation", .bool e.isCancellation)]

end Service

end Campaign
