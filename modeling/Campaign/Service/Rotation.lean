import Campaign.Mutation.Run
import Campaign.Async.Scheduler
import Campaign.Service.Mutation

/-! The automator runs as a task beside a script that plays its consumer: it receives mutants,
with or without waiting, signals kills, sleeps, cancels the automator's context and drops its
channel ends. Each step answers the time after it and what it saw. After the script the
consumer cancels the automator, drops its kill sender and waits up to an hour for the
automator to stop.
-/

namespace Campaign

namespace Service

open Async Mutation

/-- Items of the `automator_run` scenario: mutants, kills, and the script's answer. -/
inductive Token where
  | mutant (m : Mutant)
  | kill
  | answer (j : Json)

/-- Programs of the `automator_run` scenario. -/
abbrev TokenProc := Proc Unit Token

/-- A step of the consumer's script. -/
inductive ConsumerStep where
  | recv (timeout : Nat)
  | tryRecv
  | kill
  | sleep (ms : Nat)
  | cancel
  | dropKills
  | dropStream

/-- The steps of a consumer script and their fields. -/
def consumerSteps : List (String × List (String × Shape × Option Json)) :=
  [("recv", [Shape.fieldOr "timeout_ms" Shape.u64 (.nat 3600000)]), ("try_recv", []),
   ("kill", []), ("sleep", [Shape.field "ms" Shape.u64]), ("cancel", []), ("drop_kills", []),
   ("drop_stream", [])]

/-- Read a step of a consumer script. -/
def consumerStepOf (j : Json) : Except Json ConsumerStep := do
  let (name, v) ← tagged "do" consumerSteps j
  return match name with
    | "recv" => .recv (v.field "timeout_ms").asNat
    | "try_recv" => .tryRecv
    | "kill" => .kill
    | "sleep" => .sleep (v.field "ms").asNat
    | "cancel" => .cancel
    | "drop_kills" => .dropKills
    | _ => .dropStream

/-- The channel ends the consumer holds: the mutant stream and the kill sender. -/
structure ConsumerEnds where
  stream : Option Nat
  kills : Option Nat

/-- A received item as answered. -/
def tokenJson : Token → Json
  | .mutant m => .nat m.id
  | _ => .null

/-- Perform one step: the ends still held and what the step reports. -/
def consumerStep (sig : Nat) (e : ConsumerEnds) :
    ConsumerStep → TokenProc (ConsumerEnds × String × Json)
  | .recv timeout =>
    match e.stream with
    | none => return (e, "recv", .string "dropped")
    | some ch => do
      let now ← Proc.now
      match ← Proc.select [.recv ch, .sleepUntil (now + timeout)] with
      | (_, .received (some t)) => return (e, "recv", tokenJson t)
      | (_, .received none) => return (e, "recv", .string "closed")
      | _ => return (e, "recv", .string "timeout")
  | .tryRecv =>
    match e.stream with
    | none => return (e, "try_recv", .string "dropped")
    | some ch => do
      match ← Proc.take ch with
      | .item t => return (e, "try_recv", tokenJson t)
      | .empty => return (e, "try_recv", .string "empty")
      | .closed => return (e, "try_recv", .string "closed")
  | .kill =>
    match e.kills with
    | none => return (e, "kill", .string "no_input")
    | some k => do
      match ← Proc.offer k .kill with
      | .sent => return (e, "kill", .string "sent")
      | .full => return (e, "kill", .string "full")
      | .closed => return (e, "kill", .string "closed")
  | .sleep ms => do
    Proc.sleep ms
    return (e, "slept", .bool true)
  | .cancel => do
    Proc.raise sig
    Proc.yieldNow
    return (e, "cancelled", .bool true)
  | .dropKills => do
    match e.kills with
    | some k => Proc.dropSender k
    | none => pure ()
    return ({ e with kills := none }, "dropped", .string "kills")
  | .dropStream => do
    match e.stream with
    | some ch => Proc.dropReceiver ch
    | none => pure ()
    return ({ e with stream := none }, "dropped", .string "stream")

/-- Perform a consumer script: the ends still held and the answers of the steps. -/
def consumerScript (sig : Nat) (e : ConsumerEnds) :
    List ConsumerStep → TokenProc (ConsumerEnds × List Json)
  | [] => return (e, [])
  | step :: rest => do
    let (e, key, value) ← consumerStep sig e step
    let now ← Proc.now
    let (e, more) ← consumerScript sig e rest
    return (e, .object [(key, value), ("at_ms", .nat now)] :: more)

/-- The consumer's task: start the automator, play the script, then stop the automator. -/
def consumerMain (a : Automator) (steps : List ConsumerStep) : TokenProc Token := do
  let out ← Proc.channel 1
  let kills ← if a.killInput then some <$> Proc.channel 1 else pure none
  let sig ← Proc.signal
  let task ← Proc.start (a.run ⟨out, kills, Context.background.withSignal sig⟩ Token.mutant
    (.answer .null))
  let (e, answers) ← consumerScript sig ⟨some out, kills⟩ steps
  Proc.raise sig
  match e.kills with
  | some k => Proc.dropSender k
  | none => pure ()
  let now ← Proc.now
  let stopped := match ← Proc.select [.join task, .sleepUntil (now + 3600000)] with
    | (0, _) => true
    | _ => false
  return .answer (.object [("steps", .array answers), ("stopped", .bool stopped)])

/-- `automator_run`: an automator task and a scripted consumer on the paused clock. -/
def automatorRunAnswer (req : Json) : Answer := do
  let c ← readMutationConfig req
  let items := (← setting req "script" (.list .any) (.array [])).asList
  let steps ← items.mapM consumerStepOf
  match Automator.ofConfig c with
  | .error e => throw (mutationFailure e)
  | .ok a =>
    match Scheduler.runMain () (consumerMain a steps) with
    | (some (.answer j), _) => return j
    | _ => .error (failure "Hung" "the script never finished")

end Service

end Campaign
