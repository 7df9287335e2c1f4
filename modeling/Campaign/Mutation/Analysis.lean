import Campaign.Plan.Basic

/-! An analysis of a plan lists, per status, the subjects with a compilation of that status, and,
per mutant, every compilation that ran under it. A compilation *kills* its mutant when the
mutation was hit at least once and the outcome was flagged.
-/

namespace Campaign

namespace Mutation

instance : Ord Mutant := ⟨fun a b => compare a.id b.id⟩

instance : Std.TransOrd Mutant := inferInstanceAs (Std.TransCmp (compareOn Mutant.id))

/-- One compilation that ran under a mutant. -/
structure SelectionRecord where
  subject : String
  compiler : String
  hits : Nat
  status : Status
  killed : Bool
  deriving DecidableEq, Repr

/-- A compilation kills its mutant when the mutation was hit and the outcome was flagged. -/
def isKill (hits : Nat) (status : Status) : Bool :=
  hits > 0 && status.isFlagged

namespace SelectionRecord

/-- The record as written. -/
def toJson (r : SelectionRecord) : Json :=
  .object [("subject", .string r.subject), ("compiler", .string r.compiler),
    ("hits", .nat r.hits), ("status", r.status.toJson), ("killed", .bool r.killed)]

end SelectionRecord

/-- The compilations of each mutant, in the order they were registered. -/
structure MutantAnalysis where
  selections : Table Mutant (List SelectionRecord) := {}
  deriving Repr

namespace MutantAnalysis

/-- Record a compilation under its mutant. -/
def register (a : MutantAnalysis) (m : Mutant) (subject compiler : String) (hits : Nat)
    (status : Status) : MutantAnalysis :=
  ⟨a.selections.update m [] (· ++ [⟨subject, compiler, hits, status, isKill hits status⟩])⟩

/-- Whether some compilation killed its mutant. -/
def hasKills (a : MutantAnalysis) : Bool :=
  a.selections.values.any fun rs => rs.any (·.killed)

/-- The mutants killed by some compilation, ascending. -/
def killedMutants (a : MutantAnalysis) : List Mutant :=
  (a.selections.entries.filter fun (_, rs) => rs.any (·.killed)).map Prod.fst

/-- Whether no compilation was registered. -/
def isEmpty (a : MutantAnalysis) : Bool := a.selections.isEmpty

/-- The analysis as written: mutants as decimal keys. -/
def toJson (a : MutantAnalysis) : Json :=
  .object [("selections", .object (a.selections.entries.map fun (m, rs) =>
    (toString m.id, .array (rs.map SelectionRecord.toJson))))]

end MutantAnalysis

/-- The findings of a cycle: subjects by status and compilations by mutant. -/
structure Analysis where
  byStatus : Table Status (List String) := {}
  mutation : MutantAnalysis := {}
  deriving Repr

namespace Analysis

/-- The analysis of a plan: its subjects by status, and every compilation that names a mutant,
registered subject by subject and compiler by compiler. -/
def ofPlan (p : Plan) : Analysis :=
  let mutation := p.corpus.entries.foldl
    (fun acc (subject, s) =>
      s.compilations.entries.foldl
        (fun acc (compiler, c) =>
          match c.selection with
          | some sel => acc.register sel.mutant subject compiler sel.hits c.status
          | none => acc)
        acc)
    {}
  ⟨p.subjectsByStatus, mutation⟩

/-- How many subjects were flagged. -/
def flagged (a : Analysis) : Nat := ((a.byStatus.get? .flagged).getD []).length

/-- Subjects by status as written: statuses as keys. -/
def byStatusJson (t : Table Status (List String)) : Json :=
  .object (t.entries.map fun (s, names) => (s.name, Json.strings names))

/-- The analysis as written. -/
def toJson (a : Analysis) : Json :=
  .object [("by_status", byStatusJson a.byStatus), ("mutation", a.mutation.toJson)]

end Analysis

end Mutation

end Campaign
