import Campaign.Plan.Corpus
import Campaign.Config.Basic
import Campaign.Service.Mutation

/-! Input files are made first (by default every input; a name ending in `/` is a directory), then
the corpus planner plans the machines over the inputs. Plans are shown with their creation
time as `<now>`, since the planner reads it from the clock; here they are made at time 0.
-/

namespace Campaign

namespace Service

/-- Make files and directories in the working directory: a name ending in `/` is a directory;
a file gets its missing parent directories. Failures leave the tree as it was. -/
def makeInputs (t : Tree) (paths : List String) : Tree :=
  paths.foldl (fun t path =>
    let p : Path := ⟨path⟩
    if path.endsWith "/" then (t.createDirAll p).toOption.getD t
    else
      let t := match Tree.parentOf p with
        | some parent => (t.createDirAll parent).toOption.getD t
        | none => t
      (t.write p "").toOption.getD t) t

/-- The file tree of a request: its `create` list, or else its inputs, made. -/
def requestTree (req : Json) (inputs : List String) : Except Json Tree := do
  let created := match ← readOr req "create" (.optional (.list Shape.path)) .null with
    | .null => inputs
    | v => v.asList.map Json.asString
  return makeInputs {} created

/-- A planning failure as answered. -/
def planFailureJson (e : PlanError) : Json :=
  failureChain "PlanError" e.cause.text e.cause.chain

/-- `planner`: the corpus planner's plans. -/
def plannerAnswer (req : Json) : Answer := do
  let machines := CampaignConfig.machineTable MachineConfig.ofNormal
    (← readOr req "machines" (.map .text MachineConfig.shape) (.object []))
  let inputs := (← readOr req "inputs" (.list Shape.path) (.array [])).asList.map Json.asString
  let seed := (← readOr req "seed" .signed (.nat 0)).asInt
  let t ← requestTree req inputs
  match planCorpus t seed 0 machines inputs with
  | .error e => throw (planFailureJson e)
  | .ok plans =>
    return .object [("plans", .object (plans.entries.map fun (id, p) => (id.text, shownPlan false p)))]

end Service

end Campaign
