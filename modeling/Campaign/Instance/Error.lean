import Campaign.Machine.Basic
import Campaign.Mutation.Automator
import Campaign.Files.IoError
import Campaign.Error.Cause

/-! An instance stops with a failure when its context ends, when it cannot prepare the directories
for saved subjects, when its mutation automator cannot start or dies, or when its stages cannot
be closed. Only the first is a cancellation.
-/

namespace Campaign

/-- Why an instance stopped. -/
inductive InstanceError where
  | cancelled (reason : Cancelled)
  | prepare (machine : MachineId) (e : IoError)
  | mutation (e : Mutation.MutationError)
  | close (source : Cause)
  | automatorPanicked
  deriving DecidableEq, Repr

namespace InstanceError

/-- The failure with its causes; a cancellation shows only its reason. -/
def cause : InstanceError → Cause
  | .cancelled r => .plain r.message
  | .prepare m e =>
    Cause.causedBy ("failed to prepare saved directories for " ++ m.text) (.plain e.message)
  | .mutation e => Cause.causedBy "failed to start mutation automator" (.plain e.message)
  | .close src => Cause.causedBy "failed to close stages" src
  | .automatorPanicked => .plain "mutation automator panicked"

/-- The text of the failure. -/
def message (e : InstanceError) : String := e.cause.text

/-- Whether the instance stopped because its context ended. -/
def isCancellation : InstanceError → Bool
  | .cancelled _ => true
  | _ => false

end InstanceError

end Campaign
