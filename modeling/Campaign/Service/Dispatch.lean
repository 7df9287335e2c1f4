import Campaign.Service.Mutation
import Campaign.Service.Failures
import Campaign.Service.Events
import Campaign.Service.Contexts
import Campaign.Service.Rotation
import Campaign.Service.Cycles
import Campaign.Service.Planning
import Campaign.Service.Instances
import Campaign.Service.Directors
import Campaign.Service.Commands
import Campaign.Service.CommandLine
import Campaign.Schema.OfText
import Campaign.Json.Write

/-! The service reads one JSON request per line and answers each with one line of JSON. A line that
is not JSON is answered with a `BadRequest` failure naming the syntax fault.
-/

namespace Campaign

namespace Service

/-- The answer to a parsed request, by its operation. -/
def answer (req : Json) : Json :=
  let result : Answer :=
    match req.field "op" with
    | .string "range" => rangeAnswer req
    | .string "mutation_config" => mutationConfigAnswer req
    | .string "automator" => automatorAnswer req
    | .string "plan" => planAnswer req
    | .string "analysis" => analysisAnswer req
    | .string "status" => statusAnswer req
    | .string "stage_kind" => stageKindAnswer req
    | .string "machine" => machineAnswer req
    | .string "quantities" => quantitiesAnswer req
    | .string "config" => configAnswer req
    | .string "director_options" => directorOptionsAnswer req
    | .string "filters" => filtersAnswer req
    | .string "command_spec" => commandSpecAnswer req
    | .string "env" => envAnswer req
    | .string "error" => errorAnswer req
    | .string "log" => logAnswer req
    | .string "log_file" => logFileAnswer req
    | .string "stats" => statsAnswer req
    | .string "forward" => forwardAnswer req
    | .string "context" => contextAnswer req
    | .string "automator_run" => automatorRunAnswer req
    | .string "cycle" => cycleAnswer req
    | .string "planner" => plannerAnswer req
    | .string "instance" => instanceAnswer req
    | .string "director" => directorAnswer req
    | .string "command" => commandAnswer req
    | .string "cli" => cliAnswer req
    | .string op => .error (badRequest ("unknown op " ++ Text.quoted op))
    | _ => .error (badRequest "request has no op")
  match result with
  | .ok j => j
  | .error j => j

/-- The answer line to a request line. -/
def respond (line : String) : String :=
  match Shape.ofText .any line with
  | .ok req => Json.compact (answer req)
  | .error f => Json.compact (badRequest ("request is not JSON: " ++ f.message))

end Service

end Campaign
