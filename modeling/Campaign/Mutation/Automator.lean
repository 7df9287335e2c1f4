import Campaign.Mutation.Config

/-! The automator offers the mutants of a configuration one at a time, round robin: it starts with
the first and each rotation moves to the next, wrapping after the last. It needs at least one
mutant, whether or not mutation testing is enabled.
-/

namespace Campaign

namespace Mutation

/-- Why an automator cannot be built. -/
inductive MutationError where
  | noMutants
  deriving DecidableEq, Repr

/-- The wording of a mutation error. -/
def MutationError.message : MutationError → String
  | .noMutants => "mutation configuration selects no mutants"

/-- The round robin over a configuration's mutants. -/
structure Automator where
  mutants : List Mutant
  /-- The place of the mutant under test. -/
  slot : Nat
  /-- Seconds between rotations, when they are timed. -/
  period : Option Nat
  /-- Whether kills rotate the mutant. -/
  killInput : Bool
  deriving Repr

namespace Automator

/-- The automator of a configuration, starting at its first mutant. -/
def ofConfig (c : Config) : Except MutationError Automator :=
  match c.mutants with
  | [] => .error .noMutants
  | ms => .ok ⟨ms, 0, c.auto.changeAfter, c.auto.changeKill⟩

/-- The mutant under test. -/
def current (a : Automator) : Mutant := a.mutants.getD a.slot ⟨0⟩

/-- Move to the next mutant, wrapping after the last. -/
def rotate (a : Automator) : Automator :=
  { a with slot := (a.slot + 1) % a.mutants.length }

/-- The mutant under test and those after `count` rotations, in order. -/
def sequence (a : Automator) : Nat → List Mutant
  | 0 => [a.current]
  | n + 1 => a.current :: a.rotate.sequence n

end Automator

end Mutation

end Campaign
