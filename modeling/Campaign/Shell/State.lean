import Campaign.Files.Tree
import Campaign.Shell.Syntax

/-! A running shell holds the file tree, its variables, arguments and process number, the last
status, what is left of its input, what it has written and the time it has spent, which only
`sleep` makes pass. Descriptors 1 and 2 write to a sink, and a command ends by going on, by
making the shell exit, by a signal that kills it, or by returning from a function or loop.
-/

namespace Campaign

namespace Shell

/-- Where a descriptor writes. -/
inductive Sink where
  | output
  | errors
  | discard
  | file (p : Path)
  deriving Repr, Inhabited

/-- Where descriptors 1 and 2 write. -/
structure Fds where
  out : Sink := .output
  err : Sink := .errors
  deriving Repr, Inhabited

/-- How a command ended. -/
inductive Flow where
  /-- Go on with the next command. -/
  | next
  /-- The shell exits with a code. -/
  | exit (code : Nat)
  /-- A signal killed the shell. -/
  | killed (signal : Nat)
  /-- `return`: the function or script being run returns with a code. -/
  | returned (code : Nat)
  /-- `break`: leave this many enclosing loops. -/
  | broke (levels : Nat)
  /-- `continue`: go on with the next round of the loop this many levels out. -/
  | continued (levels : Nat)
  deriving DecidableEq, Repr, Inhabited

/-- A variable: its value and whether it is exported to commands. -/
structure Var where
  name : String
  value : String
  exported : Bool
  deriving DecidableEq, Repr, Inhabited

/-- A running shell. -/
structure State where
  tree : Tree
  vars : List Var := []
  args : List String := []
  name : String := "sh"
  pid : Nat := 4242
  status : Nat := 0
  /-- The line of the command running, for messages. -/
  line : Nat := 1
  input : String := ""
  output : String := ""
  errors : String := ""
  /-- The functions defined, by name. -/
  functions : List (String × Command) := []
  /-- How many loops enclose the command running, within its function. -/
  loops : Nat := 0
  /-- The milliseconds the process has spent. -/
  elapsed : Nat := 0
  /-- The milliseconds after which the process is killed, if it is. -/
  budget : Option Nat := none
  deriving Repr

namespace State

/-- The value of a variable. -/
def get? (st : State) (name : String) : Option String :=
  (st.vars.find? (·.name == name)).map (·.value)

/-- Set a variable, keeping whether it is exported, or exporting it when `exported`. -/
def assign (st : State) (name value : String) (exported : Bool) : State :=
  match st.vars.find? (·.name == name) with
  | some _ =>
    { st with vars := st.vars.map fun w =>
        if w.name == name then { w with value, exported := w.exported || exported } else w }
  | none => { st with vars := st.vars ++ [⟨name, value, exported⟩] }

/-- Set a variable, keeping whether it is exported. -/
def set (st : State) (name value : String) : State := st.assign name value false

/-- Remove a variable. -/
def unset (st : State) (name : String) : State :=
  { st with vars := st.vars.filter (·.name != name) }

/-- The exported variables, as the environment of a command. -/
def environment (st : State) : List (String × String) :=
  (st.vars.filter (·.exported)).map fun v => (v.name, v.value)

/-- Write text to a sink. A file that cannot be written loses the text. -/
def toSink (st : State) (s : Sink) (text : String) : State :=
  if text.isEmpty then st
  else match s with
    | .output => { st with output := st.output ++ text }
    | .errors => { st with errors := st.errors ++ text }
    | .discard => st
    | .file p =>
      match st.tree.append p text with
      | .ok t => { st with tree := t }
      | .error _ => st

/-- Write text to standard output. -/
def say (st : State) (fds : Fds) (text : String) : State := st.toSink fds.out text

/-- Write text to standard error. -/
def complain (st : State) (fds : Fds) (text : String) : State := st.toSink fds.err text

/-- A message of the shell itself: its name and line, then the text. -/
def shellMessage (st : State) (fds : Fds) (text : String) : State :=
  st.complain fds (st.name ++ ": " ++ toString st.line ++ ": " ++ text ++ "\n")

/-- Take all of standard input. -/
def takeInput (st : State) : String × State := (st.input, { st with input := "" })

/-- Take standard input up to and including its first line end. -/
def takeLine (st : State) : Option String × State :=
  if st.input.isEmpty then (none, st)
  else
    let cs := st.input.toList
    let line := cs.takeWhile (· != '\n')
    (some (String.ofList line), { st with input := String.ofList (cs.drop (line.length + 1)) })

/-- End a command with a status. -/
def finish (st : State) (status : Nat) : State × Flow := ({ st with status }, .next)

/-- Let `ms` milliseconds pass; a process whose budget runs out first is killed then, as
`SIGKILL` kills it. -/
def pass (st : State) (ms : Nat) : State × Flow :=
  match st.budget with
  | some b =>
    if b < st.elapsed + ms then ({ st with elapsed := max st.elapsed b, status := 128 + 9 }, .killed 9)
    else { st with elapsed := st.elapsed + ms }.finish 0
  | none => { st with elapsed := st.elapsed + ms }.finish 0

end State

/-- The lines of a text: the pieces between line ends, without an empty piece after a final
line end. -/
def linesOf (text : String) : List String :=
  let parts := text.splitOn "\n"
  if parts.getLast? == some "" then parts.dropLast else parts

/-- Lines written back, each ended by a line end. -/
def unlines (ls : List String) : String := String.join (ls.map (· ++ "\n"))

end Shell

end Campaign
