import Campaign.Service.Reply
import Campaign.Mutation.Automator
import Campaign.Mutation.Analysis

/-! `range`, `mutation_config` and `automator` show how a configuration expands into mutants and
how the automator rotates through them; `plan`, `analysis`, `status` and `stage_kind` show how
plans and their outcomes are read, summarised and written.
-/

namespace Campaign

namespace Service

open Mutation

/-- The most mutants a configuration may expand to in an answer. -/
def mutantLimit : Nat := 100000

/-- Read a mutation configuration, refusing one that expands to too many mutants. -/
def readMutationConfig (req : Json) : Except Json Mutation.Config := do
  let c := Mutation.Config.ofNormal (← read req "config" Mutation.Config.shape)
  if c.count > mutantLimit then
    throw (badRequest ("mutation configuration expands to more than " ++ toString mutantLimit ++
      " mutants"))
  return c

/-- Mutants as a JSON array of numbers. -/
def mutantsJson (ms : List Mutant) : Json := .array (ms.map Mutant.toJson)

/-- `range`: the size and first mutants of a range. -/
def rangeAnswer (req : Json) : Answer := do
  let r := Range.ofNormal (← read req "range" Range.shape)
  let limit ← natSetting req "limit" 64
  return .object [("len", .nat r.len), ("is_empty", .bool r.isEmpty),
    ("mutants", mutantsJson (r.firstMutants limit)), ("json", r.toJson)]

/-- `mutation_config`: the expansion and settings of a configuration. -/
def mutationConfigAnswer (req : Json) : Answer := do
  let c ← readMutationConfig req
  let ms := c.mutants
  return .object [("enabled", .bool c.enabled), ("mutants", mutantsJson ms),
    ("range_lens", .array (c.ranges.map fun r => .nat r.len)),
    ("change_after_secs", Json.opt Json.nat c.auto.changeAfter),
    ("change_kill", .bool c.auto.changeKill),
    ("display", Json.opt (fun m => .string m.display) ms.head?), ("json", c.toJson)]

/-- The failure of building an automator. -/
def mutationFailure (e : MutationError) : Json :=
  failureChain "MutationError" e.message e.message

/-- `automator`: the mutants and the rotation sequence of an automator. -/
def automatorAnswer (req : Json) : Answer := do
  let c ← readMutationConfig req
  let rotations ← natSetting req "rotations" 0
  match Automator.ofConfig c with
  | .error e => throw (mutationFailure e)
  | .ok a =>
    return .object [("mutants", mutantsJson a.mutants), ("kill_input", .bool a.killInput),
      ("sequence", mutantsJson (a.sequence rotations))]

/-- Read the plan of a request. -/
def readPlan (req : Json) : Except Json Plan := do
  return Plan.ofNormal (← read req "plan" Plan.shape)

/-- Whether the plan of the request states its metadata; otherwise its creation time came from
the clock and is shown as `<now>`. -/
def statesMetadata (plan : Json) : Bool :=
  match plan with
  | .object ms => !((ms.lookup "metadata").getD .null).isNull
  | .array (m :: _) => !m.isNull
  | _ => false

/-- A plan as shown in answers: stage records by their names, and a creation time that came
from the clock as `<now>`. -/
def shownPlan (stated : Bool) (p : Plan) : Json :=
  let created : Json := if stated then .int p.metadata.createdMs else .string "<now>"
  let metadata : Json := .object [("seed", .int p.metadata.seed), ("created_ms", created),
    ("stages", .array (p.metadata.stages.map fun r => r.stage.toJson))]
  match p.toJson with
  | .object ms => .object (ms.map fun (k, v) => if k == "metadata" then (k, metadata) else (k, v))
  | j => j

/-- `plan`: a plan read, optionally given a mutant, and written back. -/
def planAnswer (req : Json) : Answer := do
  let p ← readPlan req
  let p := match ← setting req "set_mutant" (.optional Shape.u64) .null with
    | .null => p
    | v => p.setMutant ⟨v.asNat⟩
  return .object [("plan", shownPlan (statesMetadata (req.field "plan")) p),
    ("is_mutation_test", .bool p.isMutationTest),
    ("subjects_by_status", Analysis.byStatusJson p.subjectsByStatus)]

/-- `analysis`: the analysis of a plan and its summaries. -/
def analysisAnswer (req : Json) : Answer := do
  let p ← readPlan req
  let a := Analysis.ofPlan p
  return .object [("analysis", a.toJson), ("flagged", .nat a.flagged),
    ("has_kills", .bool a.mutation.hasKills),
    ("killed_mutants", mutantsJson a.mutation.killedMutants),
    ("no_selections", .bool a.mutation.isEmpty), ("is_mutation_test", .bool p.isMutationTest)]

/-- `status`: the properties of a status, and whether it kills with the given hits. -/
def statusAnswer (req : Json) : Answer := do
  let s := Status.ofNormal (← read req "status" Status.shape)
  let kill ← match ← setting req "hits" (.optional Shape.u64) .null with
    | .null => pure []
    | v => pure [("is_kill", Json.bool (isKill v.asNat s))]
  return .object ([("as_str", .string s.name), ("display", .string s.name),
    ("is_flagged", .bool s.isFlagged), ("is_saved", .bool s.isSaved), ("index", .nat s.index)] ++
    kill)

/-- `stage_kind`: the name and place of a stage. -/
def stageKindAnswer (req : Json) : Answer := do
  let k := StageKind.ofNormal (← read req "stage" StageKind.shape)
  return .object [("as_str", .string k.name), ("display", .string k.name), ("index", .nat k.index)]

end Service

end Campaign
