import Campaign.Cycle.Executor
import Campaign.Async.Scheduler
import Campaign.Service.Events
import Campaign.Service.Mutation

/-! A cycle runs five scripted stages on the paused clock. A stage's behaviour may sleep (waking
early, with a failure, when the cycle's context ends), cancel the cycle's context, fail with a
described failure, set the mutant and record how long it took. The answer lists the stages
entered and either the stage durations recorded in the plan with the plan itself, or the
failure.
-/

namespace Campaign

namespace Service

open Async

/-- What a scripted stage does. -/
structure Behaviour where
  sleepMs : Option Nat := none
  cancel : Bool := false
  fail : Option Cause := none
  setMutant : Option Nat := none
  durationMs : Nat := 1

/-- The fields of a behaviour. -/
def Behaviour.shape : Shape :=
  .record "Behaviour"
    [Shape.fieldOr "sleep_ms" (.optional Shape.u64) .null,
     Shape.fieldOr "cancel" .bool (.bool false),
     Shape.fieldOr "fail" .any .null,
     Shape.fieldOr "set_mutant" (.optional Shape.u64) .null,
     Shape.fieldOr "duration_ms" Shape.u64 (.nat 1)]

/-- Read a behaviour. -/
def behaviourOf (j : Json) : Except Json Behaviour := do
  let v ← (Behaviour.shape.ofValue j).mapError jsonFault
  let fail ← match v.field "fail" with
    | .null => pure none
    | spec => (fun b => some b.cause) <$> buildFailure spec
  let sleepMs := (v.field "sleep_ms").asOption Json.asNat
  let setMutant := (v.field "set_mutant").asOption Json.asNat
  return ⟨sleepMs, (v.field "cancel").asBool, fail, setMutant, (v.field "duration_ms").asNat⟩

/-- Programs of the `cycle` operation: the shared state is the list of stages entered. -/
abbrev StepProc := Proc (List StageKind) Json

/-- A scripted stage: it is entered, sleeps, cancels through signal `sig`, fails, sets the
mutant and records itself, as its behaviour says. -/
def scriptedStage (sig : Nat) (kind : StageKind) (b : Behaviour) : Stage (List StageKind) Json :=
  ⟨kind, fun cx plan => do
    Proc.modify (· ++ [kind])
    match b.sleepMs with
    | some ms =>
      let now ← Proc.now
      match ← Proc.select [.done cx, .sleepUntil (now + ms)] with
      | (_, .done r) => return .error (.failed (.plain r.message))
      | _ => pure ()
    | none => pure ()
    if b.cancel then Proc.raise sig
    match b.fail with
    | some c => return .error (.failed c)
    | none =>
      let plan := match b.setMutant with
        | some m => plan.setMutant ⟨m⟩
        | none => plan
      return .ok (plan.recordStage kind 0 b.durationMs)⟩

/-- A cycle failure as answered. -/
def cycleFailureJson (e : CycleError) : Json :=
  failureChain e.kindName e.message e.cause.chain

/-- `cycle`: a cycle of scripted stages. -/
def cycleAnswer (req : Json) : Answer := do
  let cycle ← cycleOf (req.field "cycle")
  let plan := Plan.ofNormal (← readOr req "plan" Plan.shape (.object []))
  let stated := statesMetadata (req.field "plan")
  let scripts ← setting req "stages" (.map (.variant StageKind.names) .any) (.object [])
  let behaviours ← StageKind.all.mapM fun k =>
    match scripts.get? k.name with
    | some j => behaviourOf j
    | none => pure {}
  let cancelled ← boolSetting req "cancelled" false
  let timeout ← setting req "timeout_ms" (.optional Shape.u64) .null
  let main : StepProc Json := do
    let sig ← Proc.signal
    let cx := Context.background.withSignal sig
    let cx := match timeout with
      | .null => cx
      | t => cx.withDeadline t.asNat
    if cancelled then Proc.raise sig
    let stages := (StageKind.all.zip behaviours).map fun (k, b) => scriptedStage sig k b
    let r ← runStages cx stages plan
    let seen ← Proc.read id
    let outcome := match r with
      | .ok p =>
        [("durations", .array (p.metadata.stages.map fun s => .nat s.durationMs)),
         ("plan", shownPlan stated p)]
      | .error e => [("error", cycleFailureJson e)]
    return .object ([("display", .string cycle.display), ("executor_cycle", .string cycle.display),
      ("seen", .array (seen.map StageKind.toJson))] ++ outcome)
  match Scheduler.runMain [] main with
  | (some j, _) => return j
  | (none, _) => .error (failure "Hung" "the cycle never finished")

end Service

end Campaign
