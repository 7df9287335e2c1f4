import Campaign.Machine.Basic
import Campaign.Files.Tree
import Campaign.Text.Quoted
import Campaign.Error.Cause
import Campaign.Plan.Basic

/-! The corpus planner makes one subject of every input file, named by the file's stem (or by the
whole path when it has no file name, as `.`, `..` and `/`), and gives every machine the same
corpus with its own compilers and mutation configuration. An input that cannot be looked up
fails the plan, and so do two inputs whose subjects share a name.
-/

namespace Campaign

/-- Why planning failed. -/
inductive PlanError where
  | input (path : String) (e : IoError)
  | duplicateSubject (name first second : String)
  deriving DecidableEq, Repr

namespace PlanError

/-- The failure with its causes. -/
def cause : PlanError → Cause
  | .input path e => Cause.causedBy ("cannot read input " ++ path) (.plain e.message)
  | .duplicateSubject name first second =>
    .plain ("inputs " ++ first ++ " and " ++ second ++ " both map to subject " ++
      Text.quoted name)

end PlanError

/-- The subject name of an input: its stem, or the whole path without a file name. -/
def subjectName (path : String) : String := ((Path.mk path).fileStem).getD path

/-- The corpus of some inputs, each looked up in the file tree, in order. -/
def corpusOf (t : Tree) (inputs : List String) : Except PlanError (Table String Subject) :=
  inputs.foldlM (fun corpus path => do
    match t.stat ⟨path⟩ with
    | .error e => throw (.input path e)
    | .ok _ =>
      let name := subjectName path
      match corpus.get? name with
      | some existing => throw (.duplicateSubject name existing.source path)
      | none => return corpus.insert name { source := path }) {}

/-- The plans of the machines over a corpus, all with the given seed and created at `now`. -/
def planMachines (seed now : Int) (machines : Table MachineId MachineConfig)
    (corpus : Table String Subject) : Table MachineId Plan :=
  machines.mapValues fun c =>
    { metadata := { seed, createdMs := now }, compilers := c.compilers, corpus,
      mutation := c.mutation }

/-- Plan the machines over the inputs, at time `now`. -/
def planCorpus (t : Tree) (seed now : Int) (machines : Table MachineId MachineConfig)
    (inputs : List String) : Except PlanError (Table MachineId Plan) := do
  return planMachines seed now machines (← corpusOf t inputs)

end Campaign
