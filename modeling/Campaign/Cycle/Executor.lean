import Campaign.Cycle.Error
import Campaign.Plan.Basic
import Campaign.Async.Proc

/-! A cycle runs its five stages in order, each taking the plan the previous one returned. Before
each stage it checks its context, so a cancelled cycle stops between stages; a stage that
fails stops the chain, and the failure names the stage; a stage whose task dies ends the cycle
as a dead task.
-/

namespace Campaign

open Async

/-- How a stage stops short: it fails with a cause, or its task dies with it. -/
inductive Halt where
  | failed (c : Cause)
  | panicked
  deriving DecidableEq, Repr

/-- A stage of a cycle: its kind, and the task program that turns a plan into the next. -/
structure Stage (ω ν : Type) where
  kind : StageKind
  run : Context → Plan → Proc ω ν (Except Halt Plan)

/-- The failure name of a cycle failure, as its variant is called. -/
def CycleError.kindName : CycleError → String
  | .stage .. => "Stage"
  | .build .. => "Build"
  | .scratch .. => "Scratch"
  | .cleanup .. => "Cleanup"
  | .cancelled .. => "Cancelled"
  | .panicked => "Panicked"

/-- Run stages in order over a plan, checking the context before each. -/
def runStages {ω ν : Type} (cx : Context) : List (Stage ω ν) → Plan →
    Proc ω ν (Except CycleError Plan)
  | [], plan => return .ok plan
  | stage :: rest, plan => do
    match ← Proc.err cx with
    | some r => return .error (.cancelled r)
    | none =>
      match ← stage.run cx plan with
      | .ok plan => runStages cx rest plan
      | .error (.failed e) => return .error (.stage stage.kind e)
      | .error .panicked => return .error .panicked

end Campaign
