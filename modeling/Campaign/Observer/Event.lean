import Campaign.Cycle.Basic
import Campaign.Cycle.Error
import Campaign.Mutation.Analysis

/-! While a campaign runs, each cycle reports what happens to it: it starts, finishes or fails;
its instance changes the mutant under test or closes; it finds an analysis; and its stages
report progress through compilers, builds, saves and copies. Every event travels stamped with
its cycle. The campaign itself reports how it configures its machines and prepares its runs.
-/

namespace Campaign

open Mutation

/-- Progress through a known number of items. -/
inductive Progress (α : Type) where
  | start (total : Nat)
  | step (index : Nat) (item : α)
  | done
  deriving Repr

/-- A subject being built. -/
structure BuildStep where
  subject : String
  deriving DecidableEq, Repr

/-- A compiler being configured. -/
structure CompilerStep where
  name : String
  config : CompilerConfig
  deriving DecidableEq, Repr

/-- A subject being saved under its status. -/
structure SaveStep where
  subject : String
  status : Status
  path : Path
  deriving BEq, Repr

/-- A file being copied. -/
structure CopyStep where
  src : Path
  dst : Path
  deriving BEq, Repr

/-- What happens to a cycle. -/
inductive CycleMessage where
  | started
  | finished
  | errored (e : CycleError)
  deriving DecidableEq, Repr

/-- What happens to an instance. -/
inductive InstanceMessage where
  | closed
  | mutantChanged (m : Mutant)
  deriving DecidableEq, Repr

/-- The kinds of events. -/
inductive EventKind where
  | cycle
  | inst
  | analysis
  | compilerConfig
  | save
  | build
  | copy
  deriving DecidableEq, Repr

/-- The name of an event kind. -/
def EventKind.name : EventKind → String
  | .cycle => "cycle"
  | .inst => "instance"
  | .analysis => "analysis"
  | .compilerConfig => "compiler-config"
  | .save => "save"
  | .build => "build"
  | .copy => "copy"

/-- An event of a cycle. -/
inductive Event where
  | cycle (m : CycleMessage)
  | inst (m : InstanceMessage)
  | analysis (a : Analysis)
  | compilerConfig (p : Progress CompilerStep)
  | save (p : Progress SaveStep)
  | build (p : Progress BuildStep)
  | copy (p : Progress CopyStep)
  deriving Repr

/-- The kind of an event. -/
def Event.kind : Event → EventKind
  | .cycle _ => .cycle
  | .inst _ => .inst
  | .analysis _ => .analysis
  | .compilerConfig _ => .compilerConfig
  | .save _ => .save
  | .build _ => .build
  | .copy _ => .copy

/-- Whether the event closes its instance. -/
def Event.isClosed : Event → Bool
  | .inst .closed => true
  | _ => false

/-- An event stamped with its cycle. -/
structure Message where
  cycle : Cycle
  event : Event
  deriving Repr

/-- A machine as the campaign configures it. -/
structure MachineRecord where
  id : MachineId
  config : MachineConfig
  deriving Repr

/-- How the campaign prepares its run. -/
inductive PrepareMessage where
  | instances (count : Nat)
  | quantities (q : QuantitySet)
  | paths (machine : MachineId) (pathset : Pathset)
  deriving Repr

/-- What the campaign reports about itself. -/
inductive DirectorMessage where
  | machines (p : Progress MachineRecord)
  | prepare (m : PrepareMessage)
  deriving Repr

end Campaign
