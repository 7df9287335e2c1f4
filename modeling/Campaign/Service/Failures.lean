import Campaign.Service.Settings
import Campaign.Cycle.Error
import Campaign.Command.Error
import Campaign.Plan.Basic

/-! The `error` operation builds a failure of the library from a description and shows its text,
its chain and, for failures of instances and campaigns, whether it is a cancellation. A
description is a string, for a failure with that text, or an object whose `kind` names the
failure and whose other members give its parts.
-/

namespace Campaign

namespace Service

/-- A failure built from a description. -/
inductive Built where
  | cycle (e : CycleError)
  | instance (e : InstanceError)
  | director (e : DirectorError)
  | command (e : CommandError)
  | config (e : ConfigError)
  | other (c : Cause)

namespace Built

/-- The failure with its causes. -/
def cause : Built → Cause
  | .cycle e => e.cause
  | .instance e => e.cause
  | .director e => e.cause
  | .command e => e.cause
  | .config e => e.cause
  | .other c => c

/-- Whether the failure is a cancellation, for failures that can tell. -/
def cancellation? : Built → Option Bool
  | .instance e => some e.isCancellation
  | .director e => some e.isCancellation
  | _ => none

end Built

/-- A string member of a description, with a default. -/
def specString (spec : Json) (name default : String) : String :=
  match spec.field name with
  | .string s => s
  | _ => default

/-- A failure of the system from its description: a text, `{"os": n}` or `{"other": text}`. -/
def ioErrorOf (j : Json) : IoError :=
  match j with
  | .string s => .custom s
  | j =>
    match j.field "os", j.field "other" with
    | .number (.uint n), _ => .os n
    | _, .string s => .custom s
    | _, _ => .custom ""

/-- The reason of a cancellation: `deadline_exceeded` or, by default, `cancelled`. -/
def reasonOf (spec : Json) : Cancelled :=
  if specString spec "reason" "cancelled" == "deadline_exceeded" then .deadlineExceeded
  else .cancelled

/-- The number of a description member. -/
def specNat (spec : Json) (name : String) : Nat := (spec.field name).asNat

mutual
/-- The failure a description builds. -/
def buildFailure (spec : Json) : Except Json Built :=
  match spec with
  | .string s => .ok (.other (.plain s))
  | .object ms =>
    let io := ioErrorOf (spec.field "io")
    let program := specString spec "program" "prog"
    let machine : MachineId := ⟨specString spec "machine" "m"⟩
    match specString spec "kind" "" with
    | "stage" => do
      let k ← match StageKind.ofName? (specString spec "stage" "") with
        | some k => pure k
        | none => throw (badRequest "unknown stage")
      return .cycle (.stage k (← sourceOf ms).cause)
    | "build" => do return .cycle (.build (← sourceOf ms).cause)
    | "scratch" => .ok (.cycle (.scratch io))
    | "cleanup" => .ok (.cycle (.cleanup io))
    | "cancelled" => .ok (.cycle (.cancelled (reasonOf spec)))
    | "panicked" => .ok (.cycle .panicked)
    | "instance_cancelled" => .ok (.instance (.cancelled (reasonOf spec)))
    | "prepare" => .ok (.instance (.prepare machine io))
    | "mutation" => .ok (.instance (.mutation .noMutants))
    | "close" => do return .instance (.close (← sourceOf ms).cause)
    | "automator_panicked" => .ok (.instance .automatorPanicked)
    | "no_machines" => .ok (.director .noMachines)
    | "no_inputs" => .ok (.director .noInputs)
    | "no_out_dir" => .ok (.director .noOutDir)
    | "zero_timeout" => .ok (.director .zeroTimeout)
    | "env_missing" =>
      .ok (.director (.env (.missing
        (if (spec.field "stages").asBool then "stage factory" else "planner"))))
    | "director_stages" => do return .director (.stages machine (← sourceOf ms).cause)
    | "plan" => do return .director (.plan (← sourceOf ms).cause)
    | "missing_plan" => .ok (.director (.missingPlan machine))
    | "director_instance" => do
      match ← sourceOf ms with
      | .instance e => return .director (.instance machine e)
      | _ => throw (badRequest "director_instance needs an instance failure")
    | "director_panicked" => .ok (.director (.panicked machine))
    | "director_cancelled" => .ok (.director (.cancelled (reasonOf spec)))
    | "spawn" => .ok (.command (.spawn program io))
    | "wait" => .ok (.command (.wait program io))
    | "exit" =>
      .ok (.command (.exit program ⟨specNat spec "raw"⟩ (specString spec "stderr" "")))
    | "timeout" => .ok (.command (.timeout program (Duration.ofMillis (specNat spec "ms"))))
    | "json" =>
      match Shape.ofText Plan.shape (specString spec "text" "") with
      | .error f => .ok (.command (.json f))
      | .ok _ => .error (badRequest "plan text is a valid plan")
    | "save" => .ok (.command (.save (specString spec "subject" "") io))
    | "copy" => .ok (.command (.copy (specString spec "src" "") (specString spec "dst" "") io))
    | "command_cancelled" => .ok (.command (.cancelled (reasonOf spec)))
    | "message" => .ok (.other (.plain (specString spec "text" "")))
    | "io" => .ok (.other (.plain io.message))
    | "context" => .ok (.other (.plain (reasonOf spec).message))
    | "config_invalid" => .ok (.config (.invalid (specString spec "text" "")))
    | "config_io" => .ok (.config (.io io))
    | kind => .error (badRequest ("unknown error kind " ++ Text.quoted kind))
  | _ => .error (badRequest "error spec must be a string or an object")
termination_by sizeOf spec

/-- The failure described by the `source` member of a description's members. -/
def sourceOf (ms : List (String × Json)) : Except Json Built :=
  match found : ms.lookup "source" with
  | some src =>
    -- the member found is smaller than the members, which is what ends the recursion
    have : sizeOf src < sizeOf ms := Json.sizeOf_lookup_lt "source" ms src found
    buildFailure src
  | none => .ok (.other (.plain ""))
termination_by sizeOf ms
decreasing_by assumption
end

/-- `error`: the text, chain and kind of a failure built from a description. -/
def errorAnswer (req : Json) : Answer := do
  let b ← buildFailure (req.field "error")
  let c := b.cause
  let flag := match b.cancellation? with
    | some f => [("is_cancellation", Json.bool f)]
    | none => []
  return .object ([("display", .string c.text), ("chain", .string c.chain)] ++ flag)

end Service

end Campaign
