import Campaign.Shell.Run
import Campaign.Command.ExitStatus

/-! Starting a stage program, named by a path or by a name looked up on the search path, where
only the installed utilities can run. A program runs with the inherited environment extended
by its variables, and its output, how it ended and the time it took are kept.
-/

namespace Campaign

namespace Program

/-- The search path. -/
def searchPath : List String :=
  ["/usr/local/sbin", "/usr/local/bin", "/usr/sbin", "/usr/bin", "/sbin", "/bin"]

/-- The environment every program inherits. -/
def inherited : List (String × String) := [("PATH", ":".intercalate searchPath)]

/-- The installed utilities. -/
def utilities : List String :=
  ["cat", "grep", "sort", "head", "tail", "wc", "tr", "ls", "mkdir", "rm", "touch", "cp",
   "basename", "dirname", "seq", "printenv", "kill", "sleep", "true", "false", "test", "[",
   "echo", "printf", "env"]

/-- What an installed program is: the shell, or a utility. -/
inductive Installed where
  | shell
  | utility (name : String)
  deriving DecidableEq, Repr

/-- The installed program of a name. -/
def installed? (name : String) : Option Installed :=
  if name == "sh" || name == "dash" then some .shell
  else if utilities.contains name then some (.utility name)
  else none

/-- The installed program a path names: a directory of the search path and a name. -/
def installedAt? (path : String) : Option Installed :=
  let parts := path.splitOn "/"
  match parts.getLast? with
  | some name =>
    if searchPath.contains ("/".intercalate parts.dropLast) then installed? name else none
  | none => none

/-- Refused: a file that is not executable. -/
def notExecutable : IoError := .os 13

/-- The program a name or path stands for, or why it cannot be started. -/
def resolve (tree : Tree) (program : String) : Except IoError Installed :=
  if program.contains '/' then
    match installedAt? program with
    | some p => .ok p
    | none =>
      match tree.stat ⟨program⟩ with
      | .ok _ => .error notExecutable
      | .error e => .error e
  else
    match installed? program with
    | some p => .ok p
    | none => .error IoError.notFound

/-- The inherited environment with `vars` set, in the order of the names. -/
def environment (vars : List (String × String)) : List (String × String) :=
  let kept := inherited.filter fun (k, _) => !(vars.any (·.1 == k))
  (kept ++ vars).mergeSort fun a b => decide (a.1 ≤ b.1)

/-- How a program that ran ended, what it wrote, the file tree it left, and the milliseconds
it took. -/
structure Finished where
  status : ExitStatus
  stdout : String
  stderr : String
  tree : Tree
  elapsed : Nat

/-- The wait status of a shell process's ending. -/
def statusOf : Shell.Ending → ExitStatus
  | .exited code => ExitStatus.ofCode code
  | .signalled s => ExitStatus.ofSignal s

/-- Run a program with arguments, variables and standard input over a file tree, killed once
it would take more than `budget` milliseconds, if given; or say why it could not be started. -/
def run (tree : Tree) (program : String) (args : List String) (vars : List (String × String))
    (input : String) (budget : Option Nat) : Except IoError Finished :=
  let env := environment vars
  match resolve tree program with
  | .error e => .error e
  | .ok .shell =>
    let o := Shell.runShell tree args env input budget
    .ok ⟨statusOf o.ending, o.output, o.errors, o.tree, o.elapsed⟩
  | .ok (.utility name) =>
    let o := Shell.runUtility tree name args env input budget
    .ok ⟨statusOf o.ending, o.output, o.errors, o.tree, o.elapsed⟩

end Program

end Campaign
