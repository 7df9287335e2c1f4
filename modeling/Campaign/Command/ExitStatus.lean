/-! The wait status of a program says whether it exited, with which code, or which signal stopped
it and whether it left a core dump. Its text is `exit status: N`, or `signal: N (NAME)` with
` (core dumped)` after it when there is a dump.
-/

namespace Campaign

/-- The raw wait status of a finished program. -/
structure ExitStatus where
  raw : Nat
  deriving DecidableEq, Repr, Inhabited

namespace ExitStatus

/-- A program that exited with `code`. -/
def ofCode (code : Nat) : ExitStatus := ⟨(code % 256) * 256⟩

/-- A program ended by signal `n`. -/
def ofSignal (n : Nat) : ExitStatus := ⟨n % 128⟩

/-- The exit code, when the program exited. -/
def code? (s : ExitStatus) : Option Nat :=
  if s.raw % 128 = 0 then some ((s.raw / 256) % 256) else none

/-- The signal that ended the program, when one did. -/
def signal? (s : ExitStatus) : Option Nat :=
  let sig := s.raw % 128
  if sig ≠ 0 && sig ≠ 127 then some sig else none

/-- Whether the program succeeded: it exited with code `0`. -/
def success (s : ExitStatus) : Bool := s.code? == some 0

/-- The name of a signal, in parentheses after a blank, or nothing for an unknown one. -/
def signalName : Nat → String
  | 1 => " (SIGHUP)"
  | 2 => " (SIGINT)"
  | 3 => " (SIGQUIT)"
  | 4 => " (SIGILL)"
  | 5 => " (SIGTRAP)"
  | 6 => " (SIGABRT)"
  | 7 => " (SIGBUS)"
  | 8 => " (SIGFPE)"
  | 9 => " (SIGKILL)"
  | 10 => " (SIGUSR1)"
  | 11 => " (SIGSEGV)"
  | 12 => " (SIGUSR2)"
  | 13 => " (SIGPIPE)"
  | 14 => " (SIGALRM)"
  | 15 => " (SIGTERM)"
  | 16 => " (SIGSTKFLT)"
  | 17 => " (SIGCHLD)"
  | 18 => " (SIGCONT)"
  | 19 => " (SIGSTOP)"
  | 20 => " (SIGTSTP)"
  | 21 => " (SIGTTIN)"
  | 22 => " (SIGTTOU)"
  | 23 => " (SIGURG)"
  | 24 => " (SIGXCPU)"
  | 25 => " (SIGXFSZ)"
  | 26 => " (SIGVTALRM)"
  | 27 => " (SIGPROF)"
  | 28 => " (SIGWINCH)"
  | 29 => " (SIGIO)"
  | 30 => " (SIGPWR)"
  | 31 => " (SIGSYS)"
  | _ => ""

/-- Lower-case hexadecimal digits of a number. -/
def hex (n : Nat) : String := String.ofList (Nat.toDigits 16 n)

/-- The text of a wait status. -/
def message (s : ExitStatus) : String :=
  match s.code?, s.signal? with
  | some c, _ => "exit status: " ++ toString c
  | none, some sig =>
    "signal: " ++ toString sig ++ signalName sig ++
      (if (s.raw / 128) % 2 = 1 then " (core dumped)" else "")
  | none, none =>
    if s.raw % 256 = 127 then
      let sig := (s.raw / 256) % 256
      "stopped (not terminated) by signal: " ++ toString sig ++ signalName sig
    else if s.raw = 65535 then "continued (WIFCONTINUED)"
    else "unrecognised wait status: " ++ toString s.raw ++ " 0x" ++ hex s.raw

end ExitStatus

end Campaign
