import Campaign.Machine.Basic
import Campaign.Command.Spec
import Campaign.Schema.OfText
import Campaign.Schema.OfValue
import Campaign.Files.IoError
import Campaign.Error.Cause

/-! A campaign configuration names the output directory, an optional time limit, the buffer of the
event forwarder, the campaign's quantities, the machines, the stage programs, free-form settings
for the fuzzer and the filters that mark a compiler's output as benign. Every field has a
default, and a configuration is valid when the buffer is positive, a time limit, if any, is
positive, and no stage program is empty.
-/

namespace Campaign

/-- Patterns that mark a compiler's output; a pattern matches where it occurs as a substring. -/
structure FilterSet where
  patterns : List String := []
  deriving DecidableEq, Repr

/-- Whether `pat` is a prefix of some suffix of `cs`. -/
def Text.occursInChars (pat : List Char) : List Char → Bool
  | [] => pat.isEmpty
  | c :: rest => pat.isPrefixOf (c :: rest) || occursInChars pat rest

/-- Whether `pat` occurs in `s`. -/
def Text.occursIn (pat s : String) : Bool := Text.occursInChars pat.toList s.toList

namespace FilterSet

/-- Whether some pattern occurs in the output. -/
def matchesAny (f : FilterSet) (output : String) : Bool :=
  f.patterns.any fun p => Text.occursIn p output

/-- Whether there are no patterns. -/
def isEmpty (f : FilterSet) : Bool := f.patterns.isEmpty

/-- A list of strings. -/
def shape : Shape := .list Shape.str

/-- The filters of a normal value of `shape`. -/
def ofNormal (j : Json) : FilterSet := ⟨j.asList.map Json.asString⟩

/-- The filters as written. -/
def toJson (f : FilterSet) : Json := Json.strings f.patterns

end FilterSet

/-- Free-form settings for the fuzzer, by name. -/
abbrev FuzzerConfig := Table String Json

/-- The forwarder's buffer when the configuration does not say. -/
def defaultForwardBuffer : Nat := 64

/-- A campaign as configured. -/
structure CampaignConfig where
  outDir : Option Path := none
  globalTimeoutSecs : Option Nat := none
  forwardBuffer : Nat := defaultForwardBuffer
  quantities : QuantitySet := {}
  machines : Table MachineId MachineConfig := {}
  stages : Table StageKind CommandSpec := {}
  fuzzer : Option FuzzerConfig := none
  filters : FilterSet := {}
  deriving Repr

/-- Why a configuration cannot be used. -/
inductive ConfigError where
  | io (e : IoError)
  | json (f : Fault)
  | invalid (reason : String)
  deriving Repr

namespace ConfigError

/-- The failure with its causes. -/
def cause : ConfigError → Cause
  | .io e => Cause.causedBy ("io error: " ++ e.message) (.plain e.message)
  | .json f => Cause.causedBy ("invalid config json: " ++ f.message) (.plain f.message)
  | .invalid r => .plain ("invalid config: " ++ r)

end ConfigError

namespace CampaignConfig

/-- Every field defaults. -/
def shape : Shape :=
  .record "CampaignConfig"
    [Shape.fieldOr "out_dir" (.optional Shape.path) .null,
     Shape.fieldOr "global_timeout_secs" (.optional Shape.u64) .null,
     Shape.fieldOr "forward_buffer" Shape.usize (.nat defaultForwardBuffer),
     Shape.fieldOr "quantities" QuantitySet.shape (QuantitySet.toJson {}),
     Shape.fieldOr "machines" (.map .text MachineConfig.shape) (.object []),
     Shape.fieldOr "stages" (.map (.variant StageKind.names) CommandSpec.shape) (.object []),
     Shape.fieldOr "fuzzer" (.optional (.map .text .any)) .null,
     Shape.fieldOr "filters" FilterSet.shape (.array [])]

/-- A table keyed by stages, from a normal object. -/
def stageTable {α : Type} (f : Json → α) (j : Json) : Table StageKind α :=
  Table.ofList (j.asMembers.map fun (k, v) => (StageKind.ofNormal (.string k), f v))

/-- A table keyed by machines, from a normal object. -/
def machineTable {α : Type} (f : Json → α) (j : Json) : Table MachineId α :=
  Table.ofList (j.asMembers.map fun (k, v) => (⟨k⟩, f v))

/-- The configuration of a normal value of `shape`. -/
def ofNormal (j : Json) : CampaignConfig :=
  { outDir := (j.field "out_dir").asOption fun v => ⟨v.asString⟩
    globalTimeoutSecs := (j.field "global_timeout_secs").asOption Json.asNat
    forwardBuffer := (j.field "forward_buffer").asNat
    quantities := QuantitySet.ofNormal (j.field "quantities")
    machines := machineTable MachineConfig.ofNormal (j.field "machines")
    stages := stageTable CommandSpec.ofNormal (j.field "stages")
    fuzzer := (j.field "fuzzer").asOption (Table.ofNormal id)
    filters := FilterSet.ofNormal (j.field "filters") }

/-- The configuration as written; absent settings are `null`. -/
def toJson (c : CampaignConfig) : Json :=
  .object
    [("out_dir", Json.opt (fun p => .string p.text) c.outDir),
     ("global_timeout_secs", Json.opt Json.nat c.globalTimeoutSecs),
     ("forward_buffer", .nat c.forwardBuffer),
     ("quantities", c.quantities.toJson),
     ("machines", .object (c.machines.entries.map fun (id, m) => (id.text, m.toJson))),
     ("stages", .object (c.stages.entries.map fun (k, s) => (k.name, s.toJson))),
     ("fuzzer", Json.opt (Table.toJson id) c.fuzzer),
     ("filters", c.filters.toJson)]

/-- The first stage, in stage order, whose program is empty. -/
def emptyProgram? (c : CampaignConfig) : Option StageKind :=
  (c.stages.entries.find? fun (_, s) => s.program.isEmpty).map Prod.fst

/-- Check the configuration: the buffer first, then the time limit, then the stage programs
in stage order. -/
def validate (c : CampaignConfig) : Except ConfigError Unit :=
  if c.forwardBuffer = 0 then .error (.invalid "forward_buffer must be positive")
  else if c.globalTimeoutSecs = some 0 then
    .error (.invalid "global_timeout_secs must be positive when set")
  else match c.emptyProgram? with
    | some k => .error (.invalid (k.name ++ " stage has an empty program"))
    | none => .ok ()

/-- Read and check a configuration from its text. -/
def ofText (text : String) : Except ConfigError CampaignConfig := do
  let j ← (Shape.ofText shape text).mapError ConfigError.json
  let c := ofNormal j
  c.validate
  return c

/-- Read and check a configuration from a parsed value. -/
def ofValue (j : Json) : Except ConfigError CampaignConfig := do
  let j ← (Shape.ofValue shape j).mapError ConfigError.json
  let c := ofNormal j
  c.validate
  return c

end CampaignConfig

end Campaign
