import Campaign.Machine.Quantities
import Campaign.Plan.Basic
import Campaign.Files.Path

/-! A machine is one host of the campaign: its compilers, its quantities and its mutation
configuration, and the directories under the campaign's output directory where it works. The
directory of a machine is named after its id with every character other than an ASCII letter
or digit, `-`, `_` or `.` replaced by `_`.
-/

namespace Campaign

/-- The name of a machine. -/
structure MachineId where
  text : String
  deriving DecidableEq, Repr, Inhabited

instance : Ord MachineId := ⟨fun a b => compare a.text b.text⟩

instance : Std.TransOrd MachineId := inferInstanceAs (Std.TransCmp (compareOn MachineId.text))

namespace MachineId

/-- Whether a character may stand in a directory name as it is. -/
def keeps (c : Char) : Bool :=
  (c.isAlphanum && c.toNat < 128) || c == '-' || c == '_' || c == '.'

/-- The directory name of a machine: one `_` for every character it cannot keep. -/
def dirName (id : MachineId) : String :=
  id.text.map fun c => if keeps c then c else '_'

end MachineId

/-- What a campaign configures for one machine. -/
structure MachineConfig where
  compilers : Table String CompilerConfig := {}
  quantities : Option QuantitySet := none
  mutation : Option Mutation.Config := none
  deriving Repr

namespace MachineConfig

/-- Every field defaults. -/
def shape : Shape :=
  .record "MachineConfig"
    [Shape.fieldOr "compilers" (.map .text CompilerConfig.shape) (.object []),
     Shape.fieldOr "quantities" (.optional QuantitySet.shape) .null,
     Shape.fieldOr "mutation" (.optional Mutation.Config.shape) .null]

/-- The machine configuration of a normal value of `shape`. -/
def ofNormal (j : Json) : MachineConfig :=
  ⟨Table.ofNormal CompilerConfig.ofNormal (j.field "compilers"),
    (j.field "quantities").asOption QuantitySet.ofNormal,
    (j.field "mutation").asOption Mutation.Config.ofNormal⟩

/-- The machine configuration as written; absent parts are left out. -/
def toJson (c : MachineConfig) : Json :=
  Json.record [("compilers", some (Table.toJson CompilerConfig.toJson c.compilers)),
    ("quantities", c.quantities.map QuantitySet.toJson),
    ("mutation", c.mutation.map Mutation.Config.toJson)]

/-- Whether mutation testing is enabled on the machine. -/
def mutationEnabled (c : MachineConfig) : Bool :=
  match c.mutation with
  | some m => m.enabled
  | none => false

end MachineConfig

/-- The directories of one machine. -/
structure Pathset where
  root : Path
  deriving BEq, Repr

namespace Pathset

/-- The directories of machine `id` under `outDir`. -/
def ofMachine (outDir : Path) (id : MachineId) : Pathset := ⟨outDir.join id.dirName⟩

/-- Where a cycle keeps its temporary files. -/
def scratch (p : Pathset) : Path := p.root.join "scratch"

/-- The scratch directory of the fuzz stage. -/
def scratchFuzz (p : Pathset) : Path := p.scratch.join "fuzz"

/-- The scratch directory of the lift stage. -/
def scratchLift (p : Pathset) : Path := p.scratch.join "lift"

/-- The scratch directory where compiled subjects run. -/
def scratchRun (p : Pathset) : Path := p.scratch.join "run"

/-- The scratch directories a cycle prepares, in order. -/
def scratchDirs (p : Pathset) : List Path := [p.scratchFuzz, p.scratchLift, p.scratchRun]

/-- Where subjects are saved. -/
def saved (p : Pathset) : Path := p.root.join "saved"

/-- Where subjects of a status are saved. -/
def statusDir (p : Pathset) (s : Status) : Path := p.saved.join s.name

/-- The directories of the statuses whose subjects are saved, in status order. -/
def savedDirs (p : Pathset) : List Path :=
  (Status.all.filter Status.isSaved).map p.statusDir

end Pathset

/-- A machine of the campaign and its progress. -/
structure Machine where
  id : MachineId
  initialPlan : Plan
  pathset : Pathset
  quantities : QuantitySet
  config : MachineConfig
  /-- How many cycles the machine has completed. -/
  cycle : Nat := 0
  deriving Repr

namespace Machine

/-- A machine starting from an empty plan, with the campaign's quantities overridden by its
own. -/
def create (id : MachineId) (config : MachineConfig) (pathset : Pathset)
    (global : QuantitySet) : Machine :=
  { id, initialPlan := {}, pathset, config,
    quantities := match config.quantities with
      | some q => global.overrideWith q
      | none => global }

/-- Count one more completed cycle. -/
def advanceCycle (m : Machine) : Machine := { m with cycle := m.cycle + 1 }

/-- Set the mutant of the machine's plan. -/
def setMutant (m : Machine) (mutant : Mutation.Mutant) : Machine :=
  { m with initialPlan := m.initialPlan.setMutant mutant }

end Machine

end Campaign
