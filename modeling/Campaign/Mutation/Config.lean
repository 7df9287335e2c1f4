import Campaign.Schema.Shape
import Campaign.Schema.Normal

/-! Mutants and the mutation configuration: half-open ranges of mutant numbers, a range without an
end holding the one at its start, and when the mutant under test changes, by time, by kills or
both.
-/

namespace Campaign

namespace Mutation

/-- A numbered mutant, below `2 ^ 64`. -/
structure Mutant where
  id : Nat
  deriving DecidableEq, Repr, Inhabited

/-- The mutant's text in messages: `mutant N`. -/
def Mutant.display (m : Mutant) : String := "mutant " ++ toString m.id

/-- A mutant is written as its number. -/
def Mutant.toJson (m : Mutant) : Json := .nat m.id

/-- The mutants from `start` up to, but not including, `stop`; one mutant when there is no end. -/
structure Range where
  start : Nat
  stop : Option Nat
  deriving DecidableEq, Repr

namespace Range

/-- How many mutants the range holds; an end at or below the start holds none. -/
def len (r : Range) : Nat :=
  match r.stop with
  | none => 1
  | some e => e - r.start

/-- Whether the range holds no mutant. -/
def isEmpty (r : Range) : Bool := r.len == 0

/-- The first `count` mutants of the range, in ascending order. -/
def firstMutants (r : Range) (count : Nat) : List Mutant :=
  (List.range' r.start (min count r.len)).map Mutant.mk

/-- The numbers `first, first + 1, …, last`; none when `last` is below `first`. -/
def inclusive (first last : Nat) : List Nat := List.range' first (last + 1 - first)

/-- The first and the last mutant of the range. An empty range gives `(1, 0)`, which bounds
nothing, and the last of a range with an end is the one below it. -/
def bounds (r : Range) : Nat × Nat :=
  match r.stop with
  | none => (r.start, r.start)
  | some e => if e > r.start then (r.start, e - 1) else (1, 0)

/-- The mutants of the range, in ascending order. -/
def mutants (r : Range) : List Mutant :=
  (inclusive r.bounds.1 r.bounds.2).map Mutant.mk

/-- Ranges are read as `{"start", "end"?}`. -/
def shape : Shape :=
  .record "Range" [Shape.field "start" Shape.u64, Shape.fieldOr "end" (.optional Shape.u64) .null]

/-- The range of a normal value of `shape`. -/
def ofNormal (j : Json) : Range :=
  ⟨(j.field "start").asNat, (j.field "end").asOption Json.asNat⟩

/-- The range as written: the end is left out when there is none. -/
def toJson (r : Range) : Json :=
  Json.record [("start", some (.nat r.start)), ("end", r.stop.map Json.nat)]

end Range

/-- When the mutant under test changes on its own. -/
structure AutoConfig where
  /-- Seconds after which the next mutant is taken; `0` never. -/
  changeAfterSecs : Nat := 0
  /-- Whether a cycle that kills the mutant moves on to the next. -/
  changeKill : Bool := false
  deriving DecidableEq, Repr

namespace AutoConfig

/-- The period of rotation, when there is one. -/
def changeAfter (a : AutoConfig) : Option Nat :=
  if a.changeAfterSecs > 0 then some a.changeAfterSecs else none

/-- Both fields default. -/
def shape : Shape :=
  .record "AutoConfig"
    [Shape.fieldOr "change_after_secs" Shape.u64 (.nat 0),
     Shape.fieldOr "change_kill" .bool (.bool false)]

/-- The rotation settings of a normal value of `shape`. -/
def ofNormal (j : Json) : AutoConfig :=
  ⟨(j.field "change_after_secs").asNat, (j.field "change_kill").asBool⟩

/-- The settings as written. -/
def toJson (a : AutoConfig) : Json :=
  .object [("change_after_secs", .nat a.changeAfterSecs), ("change_kill", .bool a.changeKill)]

end AutoConfig

/-- Which mutants a campaign tests and how it moves between them. -/
structure Config where
  enabled : Bool := false
  ranges : List Range := []
  auto : AutoConfig := {}
  deriving DecidableEq, Repr

namespace Config

/-- The mutants of all ranges, in order, repeats kept. -/
def mutants (c : Config) : List Mutant :=
  c.ranges.flatMap Range.mutants

/-- How many mutants the ranges hold together. -/
def count (c : Config) : Nat :=
  (c.ranges.map Range.len).foldr (· + ·) 0

/-- Every field defaults. -/
def shape : Shape :=
  .record "Config"
    [Shape.fieldOr "enabled" .bool (.bool false),
     Shape.fieldOr "ranges" (.list Range.shape) (.array []),
     Shape.fieldOr "auto" AutoConfig.shape (AutoConfig.toJson {})]

/-- The configuration of a normal value of `shape`. -/
def ofNormal (j : Json) : Config :=
  ⟨(j.field "enabled").asBool, (j.field "ranges").asList.map Range.ofNormal,
    AutoConfig.ofNormal (j.field "auto")⟩

/-- The configuration as written. -/
def toJson (c : Config) : Json :=
  .object [("enabled", .bool c.enabled), ("ranges", .array (c.ranges.map Range.toJson)),
    ("auto", c.auto.toJson)]

end Config

end Mutation

end Campaign
