import Campaign.Service.Reply
import Campaign.Director.Options
import Campaign.Director.Error

/-! `machine` shows the directories, quantities and progress of a machine; `quantities` how
machine quantities override the campaign's; `config` and `director_options` how configurations
are read, checked and turned into run options; `filters`, `command_spec` and `env` the smaller
parts of a configuration.
-/

namespace Campaign

namespace Service

/-- A failure with its causes. -/
def causeFailure (kind : String) (c : Cause) : Json := failureChain kind c.text c.chain

/-- Paths as text. -/
def pathJson (p : Path) : Json := .string p.text

/-- The directories of a machine as shown in answers. -/
def pathsetJson (p : Pathset) : Json :=
  .object
    [("root", pathJson p.root),
     ("scratch", .object [("root", pathJson p.scratch),
        ("dirs", .array (p.scratchDirs.map pathJson))]),
     ("saved", .object [("root", pathJson p.saved),
        ("status_dirs", .object (Status.all.map fun s => (s.name, pathJson (p.statusDir s))))])]

/-- Apply one step of the `machine` operation: `"advance"` or `{"set_mutant": n}`. -/
def machineStep (m : Machine) (step : Json) : Except Json Machine :=
  match step with
  | .string "advance" => .ok m.advanceCycle
  | .object [("set_mutant", v)] =>
    match Shape.u64.ofValue v with
    | .ok n => .ok (m.setMutant ⟨n.asNat⟩)
    | .error f => .error (badRequest f.message)
  | _ => .error (badRequest "unknown machine op")

/-- `machine`: a machine built from a configuration, after some steps. -/
def machineAnswer (req : Json) : Answer := do
  let id : MachineId := ⟨← stringSetting req "id" ""⟩
  let config := MachineConfig.ofNormal (← readOr req "config" MachineConfig.shape (.object []))
  let global := QuantitySet.ofNormal (← readOr req "quantities" QuantitySet.shape (.object []))
  let outDir : Path := ⟨← stringSetting req "out_dir" "out"⟩
  let steps := (← setting req "ops" (.list .any) (.array [])).asList
  let m ← steps.foldlM machineStep
    (Machine.create id config (Pathset.ofMachine outDir id) global)
  return .object [("dir_name", .string id.dirName), ("display", .string id.text),
    ("quantities", m.quantities.toJson), ("pathset", pathsetJson m.pathset),
    ("cycle", .nat m.cycle), ("mutant", Json.opt Mutation.Mutant.toJson m.initialPlan.mutant),
    ("config", m.config.toJson)]

/-- `quantities`: one set of quantities overridden by another. -/
def quantitiesAnswer (req : Json) : Answer := do
  let base := QuantitySet.ofNormal (← read req "base" QuantitySet.shape)
  let other := QuantitySet.ofNormal (← read req "other" QuantitySet.shape)
  return .object [("result", (base.overrideWith other).toJson)]

/-- The failure of a configuration, by kind. -/
def configFailure (e : ConfigError) : Json :=
  let kind := match e with
    | .io _ => "Io"
    | .json _ => "Json"
    | .invalid _ => "Invalid"
  causeFailure kind e.cause

/-- `config`: a configuration read from text, from a missing file, or from a value. -/
def configAnswer (req : Json) : Answer := do
  let loaded : Except ConfigError CampaignConfig :=
    match req.field "text", req.field "config" with
    | .string text, _ => CampaignConfig.ofText text
    | _, .null =>
      if (req.field "missing").asBool then .error (.io .notFound)
      else CampaignConfig.ofValue .null
    | _, v => CampaignConfig.ofValue v
  match loaded with
  | .error e => throw (configFailure e)
  | .ok c =>
    return .object [("config", c.toJson),
      ("global_timeout_secs", Json.opt Json.nat c.globalTimeoutSecs),
      ("machines", Json.strings (c.machines.keys.map (·.text)))]

/-- `director_options`: the outline of the run options of a configuration, unchecked. -/
def directorOptionsAnswer (req : Json) : Answer := do
  match Shape.ofValue CampaignConfig.shape (req.field "config") with
  | .error f => throw (configFailure (.json f))
  | .ok j =>
    return .object [("debug", .string (CampaignConfig.ofNormal j).directorOptions.outline.render)]

/-- `filters`: whether an output matches some filter. -/
def filtersAnswer (req : Json) : Answer := do
  let f := FilterSet.ofNormal (← readOr req "filters" FilterSet.shape (.array []))
  let output ← stringSetting req "output" ""
  return .object [("matches", .bool (f.matchesAny output)), ("is_empty", .bool f.isEmpty)]

/-- `command_spec`: a stage program read and written back. -/
def commandSpecAnswer (req : Json) : Answer := do
  let j ← read req "spec" CommandSpec.shape
  let spec := CommandSpec.ofNormal j
  return .object [("json", spec.toJson),
    ("rebuilt_equal", .bool (CommandSpec.ofNormal spec.toJson == spec))]

/-- `env`: whether a campaign has its collaborators. -/
def envAnswer (req : Json) : Answer := do
  let planner ← boolSetting req "planner" false
  let stages ← boolSetting req "stages" false
  match EnvError.check planner stages with
  | .error e => throw (causeFailure "EnvError" (.plain e.message))
  | .ok () => return .object [("ok", .bool true)]

end Service

end Campaign
