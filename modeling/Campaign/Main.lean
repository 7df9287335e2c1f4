import Campaign.Cli.Execute

/-! The program reads its arguments and, when they name one, its configuration file; what it does
with them is `Campaign.Cli.reportOf`. It prints the report's standard output and standard
error and exits with its code.
-/

namespace Campaign

namespace Cli

/-- A failure of reading a file, as the system numbers it. -/
def ioErrorOf (e : IO.Error) : IoError :=
  match e with
  | .noFileOrDirectory _ code _ => .os code.toNat
  | .permissionDenied _ code _ => .os code.toNat
  | .inappropriateType _ code _ => .os code.toNat
  | .otherError code _ => .os code.toNat
  | other => .custom (toString other)

/-- The contents of a file, or why it cannot be read. -/
def readText (path : String) : IO (Except IoError String) := do
  try
    return .ok (← IO.FS.readFile path)
  catch e =>
    return .error (ioErrorOf e)

end Cli

end Campaign

/-- Run the command line. -/
def main (args : List String) : IO UInt32 := do
  let parsed := Campaign.Cli.parse args
  let contents ← match parsed with
    | .invoke inv => Campaign.Cli.readText (Campaign.Cli.configPath inv.request)
    | _ => pure (.ok "")
  let report := Campaign.Cli.reportOf parsed contents
  IO.print report.stdout
  IO.eprint report.stderr
  return report.code.toUInt32
