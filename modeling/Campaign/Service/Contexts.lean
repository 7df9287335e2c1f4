import Campaign.Async.Scheduler
import Campaign.Service.Reply

/-! The `context` operation runs a script that builds contexts from the background (context `0`),
cancels them, lets time pass and waits on them, in one task on the paused clock. Each step
answers the time after it and each context's reason and deadline; a canceller that was dropped,
and a context without one, answer `"none"`.
-/

namespace Campaign

namespace Service

open Async

/-- The canceller of a context: its signal, and whether it is still held. -/
structure Canceller where
  signal : Nat
  held : Bool := true

/-- The contexts a script has made so far, with their cancellers. -/
structure Scope where
  contexts : Array Context := #[Context.background]
  cancellers : Array (Option Canceller) := #[none]

/-- A step of a context script. -/
inductive ScopeStep where
  | withCancel (parent : Nat)
  | withTimeout (parent ms : Nat)
  | withDeadline (parent atMs : Nat)
  | cancel (ctx : Nat)
  | dropCanceller (ctx : Nat)
  | isCancelled (ctx : Nat)
  | advance (ms : Nat)
  | sleep (ctx ms : Nat)
  | done (ctx timeout : Nat)
  | err

/-- The steps of a context script and their fields. -/
def scopeSteps : List (String × List (String × Shape × Option Json)) :=
  [("with_cancel", [Shape.field "parent" Shape.usize]),
   ("with_timeout", [Shape.field "parent" Shape.usize, Shape.field "ms" Shape.u64]),
   ("with_deadline", [Shape.field "parent" Shape.usize, Shape.field "at_ms" Shape.u64]),
   ("cancel", [Shape.field "ctx" Shape.usize]),
   ("drop_canceller", [Shape.field "ctx" Shape.usize]),
   ("is_cancelled", [Shape.field "ctx" Shape.usize]),
   ("advance", [Shape.field "ms" Shape.u64]),
   ("sleep", [Shape.field "ctx" Shape.usize, Shape.field "ms" Shape.u64]),
   ("done", [Shape.field "ctx" Shape.usize, Shape.fieldOr "timeout_ms" Shape.u64 (.nat 3600000)]),
   ("err", [])]

/-- Read a step of a context script. -/
def scopeStepOf (j : Json) : Except Json ScopeStep := do
  let (name, v) ← tagged "do" scopeSteps j
  let n (f : String) : Nat := (v.field f).asNat
  return match name with
    | "with_cancel" => .withCancel (n "parent")
    | "with_timeout" => .withTimeout (n "parent") (n "ms")
    | "with_deadline" => .withDeadline (n "parent") (n "at_ms")
    | "cancel" => .cancel (n "ctx")
    | "drop_canceller" => .dropCanceller (n "ctx")
    | "is_cancelled" => .isCancelled (n "ctx")
    | "advance" => .advance (n "ms")
    | "sleep" => .sleep (n "ctx") (n "ms")
    | "done" => .done (n "ctx") (n "timeout_ms")
    | _ => .err

namespace Scope

/-- A context by index; an unknown index reads as the background context. -/
def context (sc : Scope) (i : Nat) : Context := sc.contexts.getD i .background

/-- Add a context and its canceller. -/
def add (sc : Scope) (cx : Context) (c : Option Canceller) : Scope :=
  { contexts := sc.contexts.push cx, cancellers := sc.cancellers.push c }

/-- The canceller of a context, while it is held. -/
def heldCanceller (sc : Scope) (i : Nat) : Option Canceller :=
  match sc.cancellers.getD i none with
  | some c => if c.held then some c else none
  | none => none

end Scope

/-- Programs of the `context` operation: one task, answering JSON. -/
abbrev ScopeProc := Proc Unit Json

/-- The answer of a step: what it reports, then the time, the reasons and the deadlines. -/
def scopeAnswer (sc : Scope) (extra : List (String × Json)) : ScopeProc Json := do
  let now ← Proc.now
  let errs ← sc.contexts.toList.mapM fun cx => do
    return Json.opt (fun (r : Cancelled) => .string r.message) (← Proc.err cx)
  let deadlines := sc.contexts.toList.map fun cx => Json.opt Json.nat cx.deadline
  return .object (extra ++
    [("at_ms", .nat now), ("errs", .array errs), ("deadlines_ms", .array deadlines)])

/-- Wait for a context until `deadline`: why it ended, or `none` if the deadline came first. -/
def waitScope (cx : Context) (deadline : Nat) : ScopeProc (Option Cancelled) := do
  match ← Proc.select [.done cx, .sleepUntil deadline] with
  | (_, .done r) => return some r
  | _ => return none

/-- Perform one step: the new scope and what the step reports. -/
def scopeStep (sc : Scope) : ScopeStep → ScopeProc (Scope × List (String × Json))
  | .withCancel parent => do
    let sig ← Proc.signal
    return (sc.add ((sc.context parent).withSignal sig) (some { signal := sig }),
      [("ctx", .nat sc.contexts.size)])
  | .withTimeout parent ms => do
    let now ← Proc.now
    return (sc.add ((sc.context parent).withDeadline (now + ms)) none,
      [("ctx", .nat sc.contexts.size)])
  | .withDeadline parent atMs =>
    return (sc.add ((sc.context parent).withDeadline atMs) none, [("ctx", .nat sc.contexts.size)])
  | .cancel ctx => do
    match sc.heldCanceller ctx with
    | some c =>
      Proc.raise c.signal
      return (sc, [("canceller", .string "cancelled")])
    | none => return (sc, [("canceller", .string "none")])
  | .dropCanceller ctx => do
    match sc.heldCanceller ctx with
    | some c =>
      return ({ sc with cancellers := sc.cancellers.modify ctx fun _ => some { c with held := false } },
        [("canceller", .string "dropped")])
    | none => return (sc, [("canceller", .string "none")])
  | .isCancelled ctx => do
    match sc.heldCanceller ctx with
    | some c =>
      let r ← Proc.ask (.isRaised c.signal)
      return (sc, [("canceller", .bool r.asFlag)])
    | none => return (sc, [("canceller", .string "none")])
  | .advance ms => do
    let _ ← Proc.ask (.advanceClock ms)
    Proc.yieldNow
    return (sc, [])
  | .sleep ctx ms => do
    let now ← Proc.now
    let r ← waitScope (sc.context ctx) (now + ms)
    return (sc, [("sleep", .string (match r with
      | some r => r.message
      | none => "ok"))])
  | .done ctx timeout => do
    let now ← Proc.now
    let r ← waitScope (sc.context ctx) (now + timeout)
    return (sc, [("done", .string (match r with
      | some r => r.message
      | none => "pending"))])
  | .err => return (sc, [])

/-- Perform a script, collecting the answers of its steps. -/
def scopeScript (sc : Scope) : List ScopeStep → ScopeProc (List Json)
  | [] => return []
  | step :: rest => do
    let (sc, extra) ← scopeStep sc step
    let a ← scopeAnswer sc extra
    let more ← scopeScript sc rest
    return a :: more

/-- `context`: a script over contexts on the paused clock. -/
def contextAnswer (req : Json) : Answer := do
  let items := (← setting req "script" (.list .any) (.array [])).asList
  let steps ← items.mapM scopeStepOf
  let main : ScopeProc Json := do return .array (← scopeScript {} steps)
  match Scheduler.runMain () main with
  | (some answers, _) => return .object [("steps", answers)]
  | (none, _) => .error (failure "Hung" "the script never finished")

end Service

end Campaign
