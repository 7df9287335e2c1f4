import Campaign.Cycle.Executor
import Campaign.Observer.Event
import Campaign.Instance.Error
import Campaign.Config.Basic
import Campaign.Files.Tree

/-! What an instance works with: the items tasks pass each other, the observers that see every
event and the holds on the senders they keep, a cycle's environment and the stage set. The
file tree lives in the shared state, and directory work reaches it as file operations.
-/

namespace Campaign

open Async

/-- What travels between the tasks of a campaign. -/
inductive Item where
  | mutant (m : Mutation.Mutant)
  | kill
  | cycle (r : Except CycleError Plan)
  | ended (machine : MachineId) (r : Except InstanceError Unit)
  | joined (machine : MachineId) (outcome : Joined Item)
  | planned (r : Except Cause (Table MachineId Plan))
  | message (m : Message)
  | done

/-- Where the shared state keeps the file tree. -/
structure Files (ω : Type) where
  get : ω → Tree
  set : Tree → ω → ω

/-- Something that sees every event of an instance, what letting go of it does when its
instance is dropped without having run, and the channels it holds a sender of for as long as
anything holds it. -/
structure Observer (ω : Type) where
  observe : Message → Proc ω Item Unit
  abandon : Proc ω Item Unit := pure ()
  holds : List Nat := []

/-- Show an event to every observer, in order. -/
def emit {ω : Type} (observers : List (Observer ω)) (cycle : Cycle) (e : Event) :
    Proc ω Item Unit :=
  observers.forM fun o => o.observe ⟨cycle, e⟩

/-- Take one more hold of the observers: one more sender of every channel they hold. -/
def retain {ω : Type} (observers : List (Observer ω)) : Proc ω Item Unit :=
  (observers.flatMap (·.holds)).forM Proc.cloneSender

/-- Let go of a hold of the observers: the senders it kept. -/
def release {ω : Type} (observers : List (Observer ω)) : Proc ω Item Unit :=
  (observers.flatMap (·.holds)).forM Proc.dropSender

/-- What a cycle is built from. -/
structure CycleEnv (ω : Type) where
  cycle : Cycle
  quantities : QuantitySet
  pathset : Pathset
  observers : List (Observer ω)
  fuzzer : Option FuzzerConfig
  filters : FilterSet

/-- Builds the stages of each cycle of one machine, and is closed at the end. Building may
fail, and may count in the shared state; the stages themselves follow from the environment. -/
structure StageSet (ω : Type) where
  build : CycleEnv ω → ω → ω × Except Cause Unit
  stages : CycleEnv ω → List (Stage ω Item)
  close : Proc ω Item (Except Cause Unit)

/-- The steps of an instance or of its stages that run code they do not own: showing an event
to the observers, and closing the stage set. -/
inductive Outcall (ω : Type) : Type → Type 1 where
  | emit (observers : List (Observer ω)) (msg : Message) : Outcall ω Unit
  | closeStages (stages : StageSet ω) : Outcall ω (Except Cause Unit)

/-- The code a call stands for. -/
def Outcall.perform {ω β : Type} : Outcall ω β → Proc ω Item β
  | .emit observers msg => Campaign.emit observers msg.cycle msg.event
  | .closeStages stages => stages.close

namespace Files

variable {ω : Type}

/-- A file operation on the tree: it gives way to other tasks while it runs. -/
def run (files : Files ω) (f : Tree → Except IoError Tree) : Proc ω Item (Except IoError Unit) :=
  Proc.file fun w =>
    match f (files.get w) with
    | .ok t => (files.set t w, .ok ())
    | .error e => (w, .error e)

/-- Make directories one after the other, stopping at the first failure. -/
def createDirs (files : Files ω) : List Path → Proc ω Item (Except IoError Unit)
  | [] => return .ok ()
  | p :: rest => do
    match ← files.run (·.createDirAll p) with
    | .ok () => files.createDirs rest
    | .error e => return .error e

/-- Make the directories of the saved subjects. -/
def prepareSaved (files : Files ω) (p : Pathset) : Proc ω Item (Except IoError Unit) :=
  files.createDirs p.savedDirs

/-- Make the scratch directories. -/
def prepareScratch (files : Files ω) (p : Pathset) : Proc ω Item (Except IoError Unit) :=
  files.createDirs p.scratchDirs

/-- Remove the scratch directories; scratch that is already gone is fine. -/
def cleanupScratch (files : Files ω) (p : Pathset) : Proc ω Item (Except IoError Unit) := do
  match ← files.run (·.removeDirAll p.scratch) with
  | .error e => return if e == IoError.notFound then .ok () else .error e
  | .ok () => return .ok ()

end Files

end Campaign
