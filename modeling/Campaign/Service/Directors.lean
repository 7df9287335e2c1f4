import Campaign.Director.Run
import Campaign.Observer.Delivery
import Campaign.Service.Bench
import Campaign.Service.Planning
import Campaign.Service.Events
import Campaign.Async.Scheduler

/-! The `director` operation runs a campaign on the paused clock over scripted stages, with the
collaborators, planner, refused machines and per-machine scripts the request names. Instances
run side by side, so the answer shows events, log lines and launches grouped by machine, and of
a cancellation only its reason.
-/

namespace Campaign

namespace Service

open Async

/-- The collaborator sets a request may name. -/
def environmentNames : List String := ["full", "no_planner", "no_stages", "empty"]

/-- The planners a request may name. -/
def plannerNames : List String := ["corpus", "failing", "missing_plan", "slow"]

/-- The planner a request names, over the bench's files. -/
def benchPlanner (kind : String) (seed : Int) : Planner Bench :=
  let corpus := Planner.corpus Bench.fileTree (some seed)
  match kind with
  | "failing" => ⟨fun _ _ => return .error (.plain "planner exploded")⟩
  | "missing_plan" => ⟨fun machines inputs => do
      let r ← corpus.plan machines inputs
      return r.map fun plans => match machines.keys.getLast? with
        | some id => plans.erase id
        | none => plans⟩
  | "slow" => ⟨fun machines inputs => do
      Proc.sleep 3600000
      corpus.plan machines inputs⟩
  | _ => corpus

/-- The stage factory of the bench: each machine follows its own script, or else `fallback`;
the machines named in `refused` get no stages. -/
def benchFactory (scripts : Table MachineId Script) (fallback : Script) (refused : List String) :
    StageFactory Bench :=
  ⟨fun m =>
    if refused.contains m.id.text then .error (.plain ("no stages for " ++ m.id.text))
    else .ok (benchStages ((scripts.get? m.id).getD fallback) m.id)⟩

/-- The collaborators a request names. -/
def benchEnvironment (kind : String) (planner : Planner Bench) (factory : StageFactory Bench) :
    Environment Bench :=
  match kind with
  | "no_planner" => { factory := some factory }
  | "no_stages" => { planner := some planner }
  | "empty" => {}
  | _ => { planner := some planner, factory := some factory }

/-- The campaign's own log. -/
def campaignLogger : DirectorObserver Bench :=
  ⟨fun m b => { b with campaignLog := b.campaignLog.onDirector m }⟩

/-- Group values by machine into an object, each machine's values in order. -/
def byMachine {α : Type} (key : α → MachineId) (values : α → List Json) (xs : List α) : Json :=
  let t : Table MachineId (List Json) := xs.foldl (fun t x => t.update (key x) [] (· ++ values x)) {}
  .object (t.entries.map fun (id, js) => (id.text, .array js))

/-- The log lines of a delivered message. -/
def logLinesOf (m : Message) : List Json :=
  ((LogBook.onMessage {} m).records).map Json.string

/-- The reason of a cancellation that ended a campaign. -/
def cancellationReason : DirectorError → String
  | .instance _ src => src.message
  | e => e.message

/-- A campaign failure as answered. -/
def campaignFailureJson (e : DirectorError) : Json :=
  .object [("error", .string "DirectorError"), ("message", .string e.message),
    ("chain", .string e.cause.chain), ("is_cancellation", .bool e.isCancellation)]

/-- How a campaign ended, as answered: of a cancellation only its reason. -/
def campaignResultJson : Except DirectorError Unit → Json
  | .ok () => .null
  | .error e =>
    if e.isCancellation then
      .object [("is_cancellation", .bool true), ("reason", .string (cancellationReason e))]
    else campaignFailureJson e

/-- Build the campaign and run it with the forwarder, cancelling it at `cancelAt` if given. -/
def campaignMain (env : Environment Bench) (machines : Table MachineId MachineConfig)
    (inputs : List Path) (opts : DirectorOptions) (f : Forwarder) (cancelAt : Option Nat) :
    Proc Bench Item Item := do
  let sig ← Proc.signal
  let cx := Context.background.withSignal sig
  let tx ← Proc.channel f.capacity
  let built := Director.create env machines inputs opts [campaignLogger]
    (some fun i _ => [Forwarder.sink tx (Bench.slot i), recorder])
  Proc.modify (Director.announce built)
  match built with
  | .error e =>
    Proc.modify fun b => { b with built := some (.error e) }
    return .done
  | .ok d =>
    d.instances.forM fun _ => Proc.cloneSender tx
    Proc.modify fun b => { b with built := some (.ok d.instances.length) }
    match cancelAt with
    | some at_ =>
      let _ ← Proc.start do
        Proc.sleepUntil at_
        Proc.raise sig
        return .done
    | none => pure ()
    let deliver := fun m b =>
      { b with delivered := b.delivered ++ [m], outputs := b.outputs.dispatchAll f.handlers m }
    let forwarding ← Proc.start do
      let n ← Forwarder.run tx deliver
      Proc.modify fun b => { b with forwarded := n }
      return .done
    let r ← d.direct Bench.fileTree cx
    let _ ← Proc.join forwarding
    let stop ← Proc.now
    Proc.modify fun b => { b with ended := some (r, stop) }
    return .done

/-- `director`: a campaign over scripted stages. -/
def directorAnswer (req : Json) : Answer := do
  let machines := CampaignConfig.machineTable MachineConfig.ofNormal
    (← readOr req "machines" (.map .text MachineConfig.shape) (.object []))
  let inputs := (← readOr req "inputs" (.list Shape.path) (.array [])).asList.map Json.asString
  let tree ← requestTree req inputs
  let timeout := (← setting req "timeout_ms" (.optional Shape.u64) .null).asOption Json.asNat
  let cancelAt := (← setting req "cancel_at_ms" (.optional Shape.u64) .null).asOption Json.asNat
  let outDir ← stringSetting req "out_dir" "out"
  let noOutDir ← boolSetting req "no_out_dir" false
  let envKind := (← setting req "env" (.variant environmentNames) (.string "full")).asString
  let plannerKind := (← setting req "planner" (.variant plannerNames) (.string "corpus")).asString
  let seed := (← readOr req "seed" .signed (.nat 1)).asInt
  let refused := (← setting req "reject" (.list Shape.str) (.array [])).asList.map Json.asString
  let script ← match req.field "script" with
    | .null => pure {}
    | v => Script.ofNormal <$> (Script.shape.ofValue v).mapError jsonFault
  let scripts := CampaignConfig.machineTable Script.ofNormal
    (← readOr req "scripts" (.map .text Script.shape) (.object []))
  let capacity ← natSetting req "forward_buffer" defaultForwardBuffer
  let quantities := QuantitySet.ofNormal (← readOr req "quantities" QuantitySet.shape (.object []))
  let fuzzer := (← readOr req "fuzzer" (.optional (.map .text .any)) .null).asOption
    (Table.ofNormal id)
  let filters := FilterSet.ofNormal (← readOr req "filters" FilterSet.shape (.array []))
  let f ← match Forwarder.create capacity [.log, .stats] with
    | .ok f => pure f
    | .error (.error e) => throw (failureChain "ForwardError" e.message e.message)
    | .error (.panic m) => throw (failure "Panic" m)
  let opts : DirectorOptions :=
    { outDir := if noOutDir then none else some ⟨outDir⟩,
      globalTimeout := timeout.map Duration.ofMillis, quantities, fuzzer, filters }
  let env := benchEnvironment envKind (benchPlanner plannerKind seed)
    (benchFactory scripts script refused)
  let budgets := machines.keys.map fun id =>
    let s := (scripts.get? id).getD script
    (id, (⟨s.failures, s.buildFailures, s.clobbers⟩ : Budget))
  let world : Bench := { files := tree, budgets := Table.ofList budgets }
  let (_, s) := Scheduler.runMain world
    (campaignMain env machines (inputs.map Path.mk) opts f cancelAt)
  let b := s.world
  let log := .array (b.campaignLog.records.map Json.string)
  match b.built, b.ended with
  | some (.error e), _ =>
    return .object [("new_error", campaignFailureJson e), ("director_log", log)]
  | some (.ok count), some (r, stop) =>
    let launches := machines.keys.map fun id =>
      (id.text, .array ((b.launches.filter (·.machine == id)).map Launch.toJson))
    let started := b.seen.filter fun (_, m) => match m.event with
      | .cycle .started => true
      | _ => false
    return .object [("instance_count", .nat count), ("result", campaignResultJson r),
      ("end_ms", .nat stop), ("delivered", .nat b.forwarded), ("director_log", log),
      ("handler_log", byMachine (·.cycle.machine) logLinesOf b.delivered),
      ("events", byMachine (·.2.cycle.machine) (fun e => [seenJson e]) b.seen),
      ("stats", statsFileJson b.outputs.stats), ("launches", .object launches),
      ("started_count", .nat started.length)]
  | _, _ => .error (failure "Hung" "the campaign never finished")

end Service

end Campaign
