import Campaign.Json.Value

/-! A value read by a shape is *normal*: every field of a record is present, in declaration order,
and numbers, strings and lists stand where the shape puts them. The accessors here take such a
value apart; on anything else they give the neutral value of their type, which a normal value
never reaches.
-/

namespace Campaign

namespace Json

/-- The value of a member, `null` when there is none. -/
def field (j : Json) (name : String) : Json :=
  (j.get? name).getD .null

/-- An unsigned integer. -/
def asNat : Json → Nat
  | .number (.uint n) => n
  | _ => 0

/-- A signed integer. -/
def asInt : Json → Int
  | .number (.uint n) => n
  | .number (.sint i) => i
  | _ => 0

/-- A truth value. -/
def asBool : Json → Bool
  | .bool b => b
  | _ => false

/-- A string. -/
def asString : Json → String
  | .string s => s
  | _ => ""

/-- The items of an array. -/
def asList : Json → List Json
  | .array items => items
  | _ => []

/-- The members of an object. -/
def asMembers : Json → List (String × Json)
  | .object ms => ms
  | _ => []

/-- An optional value: `none` for `null`. -/
def asOption {α : Type} (f : Json → α) : Json → Option α
  | .null => none
  | j => some (f j)

/-- An object of the members whose value is given, in order; absent values are left out. -/
def record (ms : List (String × Option Json)) : Json :=
  .object (ms.filterMap fun (k, v) => v.map (k, ·))

end Json

end Campaign
