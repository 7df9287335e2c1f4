import Campaign.Service.Bench
import Campaign.Async.Scheduler

/-! One instance runs its machine with scripted stages on the paused clock, until its deadline
(`timeout_ms`) or until it is cancelled at `cancel_at_ms`. When `out_is_file` the output
directory is a file, so the saved directories cannot be made. The answer shows the outcome,
the time it ended, the cycles completed, the mutant selected last, every event the recorder
saw, every launch, and whether the flagged directory was made.
-/

namespace Campaign

namespace Service

open Async

/-- Run an instance, cancelling it at `cancelAt` if given, and record its machine as left. -/
def instanceMain (inst : Instance Bench) (cx : Context) (sig : Nat) (cancelAt : Option Nat) :
    Proc Bench Item Item := do
  match cancelAt with
  | some at_ =>
    let _ ← Proc.start (do
      Proc.sleepUntil at_
      Proc.raise sig
      return Item.done)
  | none => pure ()
  let (r, m) ← Instance.run Bench.fileTree inst cx
  let stop ← Proc.now
  Proc.modify fun b => { b with finished := b.finished ++ [(m, stop)] }
  return .ended inst.machine.id r

/-- `instance`: one instance under a script. -/
def instanceAnswer (req : Json) : Answer := do
  let id : MachineId := ⟨← stringSetting req "machine" "localhost"⟩
  let index ← natSetting req "index" 0
  let config := MachineConfig.ofNormal (← readOr req "config" MachineConfig.shape (.object []))
  let global := QuantitySet.ofNormal (← readOr req "quantities" QuantitySet.shape (.object []))
  let plan := Plan.ofNormal (← readOr req "plan" Plan.shape (.object []))
  let script ← match req.field "script" with
    | .null => pure {}
    | v => Script.ofNormal <$> (Script.shape.ofValue v).mapError jsonFault
  let timeout := (← setting req "timeout_ms" (.optional Shape.u64) .null).asOption Json.asNat
  let cancelAt := (← setting req "cancel_at_ms" (.optional Shape.u64) .null).asOption Json.asNat
  let outIsFile ← boolSetting req "out_is_file" false
  let outDir : Path := ⟨"out"⟩
  let created := Machine.create id config (Pathset.ofMachine outDir id) global
  let machine := { created with initialPlan := plan }
  let files : Tree := {}
  let files := if outIsFile then (files.write outDir "").toOption.getD files else files
  let budget : Budget := ⟨script.failures, script.buildFailures, script.clobbers⟩
  let world : Bench := { files, budgets := Table.ofList [(id, budget)] }
  let inst : Instance Bench :=
    { index, machine, stages := benchStages script id, observers := [recorder] }
  let main : Proc Bench Item Item := do
    let sig ← Proc.signal
    let cx := Context.background.withSignal sig
    let cx := match timeout with
      | some t => cx.withDeadline t
      | none => cx
    instanceMain inst cx sig cancelAt
  match Scheduler.runMain world main with
  | (some (.ended _ r), s) =>
    let b := s.world
    let (m, stop) := b.finished.headD (machine, s.now)
    let result := match r with
      | .ok () => Json.null
      | .error e => instanceFailureJson e
    return .object [("result", result), ("end_ms", .nat stop), ("cycle", .nat m.cycle),
      ("index", .nat index), ("mutant", Json.opt Mutation.Mutant.toJson m.initialPlan.mutant),
      ("events", .array (b.seen.map seenJson)), ("launches", .array (b.launches.map Launch.toJson)),
      ("saved_flagged_dir", .bool (b.files.isDir (m.pathset.statusDir .flagged)))]
  | _ => .error (failure "Hung" "the instance never finished")

end Service

end Campaign
