import Campaign.Schema.Shape
import Campaign.Schema.Normal

/-! A stage may be carried out by an external program: its path, its arguments and, optionally, a
limit in seconds on how long it may run.
-/

namespace Campaign

/-- How to run the program of a stage. -/
structure CommandSpec where
  program : String
  args : List String := []
  timeoutSecs : Option Nat := none
  deriving DecidableEq, Repr

namespace CommandSpec

/-- The program is required; arguments default to none and the limit to absent. -/
def shape : Shape :=
  .record "CommandSpec"
    [Shape.field "program" Shape.path, Shape.fieldOr "args" (.list Shape.str) (.array []),
     Shape.fieldOr "timeout_secs" (.optional Shape.u64) .null]

/-- The program of a normal value of `shape`. -/
def ofNormal (j : Json) : CommandSpec :=
  ⟨(j.field "program").asString, (j.field "args").asList.map Json.asString,
    (j.field "timeout_secs").asOption Json.asNat⟩

/-- The program as written; an absent limit is left out. -/
def toJson (c : CommandSpec) : Json :=
  Json.record [("program", some (.string c.program)), ("args", some (Json.strings c.args)),
    ("timeout_secs", c.timeoutSecs.map Json.nat)]

end CommandSpec

end Campaign
