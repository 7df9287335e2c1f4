import Campaign.Command.ExitStatus
import Campaign.Files.IoError
import Campaign.Error.Cause
import Campaign.Schema.Fault
import Campaign.Text.Duration

/-! A stage program fails when it cannot be started or waited for, when it exits unsuccessfully,
when it runs out of time, when what it prints is not a plan, when its subjects cannot be saved
or copied, or when its context ends.
-/

namespace Campaign

/-- Why a stage program failed. -/
inductive CommandError where
  | spawn (program : String) (e : IoError)
  | wait (program : String) (e : IoError)
  | exit (program : String) (status : ExitStatus) (stderr : String)
  | timeout (program : String) (limit : Duration)
  | json (f : Fault)
  | save (subject : String) (e : IoError)
  | copy (src dst : String) (e : IoError)
  | cancelled (reason : Cancelled)
  deriving DecidableEq, Repr

namespace CommandError

/-- The failure with its causes. -/
def cause : CommandError → Cause
  | .spawn p e => Cause.causedBy ("failed to spawn " ++ p) (.plain e.message)
  | .wait p e => Cause.causedBy ("failed to wait for " ++ p) (.plain e.message)
  | .exit p s err => .plain (p ++ " exited with " ++ s.message ++ ": " ++ err)
  | .timeout p d => .plain (p ++ " timed out after " ++ d.render)
  | .json f => Cause.causedBy ("plan json: " ++ f.message) (.plain f.message)
  | .save subject e => Cause.causedBy ("failed to save " ++ subject) (.plain e.message)
  | .copy src dst e => Cause.causedBy ("failed to copy " ++ src ++ " to " ++ dst) (.plain e.message)
  | .cancelled r => .plain r.message

/-- The text of the failure. -/
def message (e : CommandError) : String := e.cause.text

end CommandError

end Campaign
