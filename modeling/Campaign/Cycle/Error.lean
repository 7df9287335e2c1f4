import Campaign.Plan.Status
import Campaign.Files.IoError
import Campaign.Error.Cause

/-! A cycle fails when one of its stages fails, when its stages cannot be built, when its scratch
directories cannot be prepared or removed, when its context ends, or when its task dies.
-/

namespace Campaign

/-- Why a cycle failed. -/
inductive CycleError where
  | stage (kind : StageKind) (source : Cause)
  | build (source : Cause)
  | scratch (e : IoError)
  | cleanup (e : IoError)
  | cancelled (reason : Cancelled)
  | panicked
  deriving DecidableEq, Repr

namespace CycleError

/-- The failure with its causes; a cancellation shows only its reason. -/
def cause : CycleError → Cause
  | .stage k src => Cause.causedBy (k.name ++ " stage failed") src
  | .build src => Cause.causedBy "failed to build stages" src
  | .scratch e => Cause.causedBy "failed to prepare scratch directories" (.plain e.message)
  | .cleanup e => Cause.causedBy "failed to clean up scratch directories" (.plain e.message)
  | .cancelled r => .plain r.message
  | .panicked => .plain "cycle task panicked"

/-- The text of the failure. -/
def message (e : CycleError) : String := e.cause.text

end CycleError

end Campaign
