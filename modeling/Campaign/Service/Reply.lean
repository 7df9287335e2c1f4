import Campaign.Schema.OfValue
import Campaign.Schema.Normal

/-! Each request of the service is a JSON object naming an operation; its answer is one JSON
object. An operation that fails answers `{"error": kind, "message": text}`, with the chain of
causes where the failure has one. A value of the library read from the request by its shape
fails with kind `Json`; a request the service cannot understand fails with `BadRequest`.
-/

namespace Campaign

namespace Service

/-- The answer of an operation, or the failure that ends it. -/
abbrev Answer := Except Json Json

/-- A failure of the given kind. -/
def failure (kind message : String) : Json :=
  .object [("error", .string kind), ("message", .string message)]

/-- A failure of the given kind with its chain of causes. -/
def failureChain (kind message chain : String) : Json :=
  .object [("error", .string kind), ("message", .string message), ("chain", .string chain)]

/-- A request the service cannot understand. -/
def badRequest (message : String) : Json := failure "BadRequest" message

/-- A value of the library that does not fit its shape. -/
def jsonFault (f : Fault) : Json := failure "Json" f.message

/-- Read a request field as a value of the library; a missing field reads as `null`. -/
def read (req : Json) (name : String) (s : Shape) : Except Json Json :=
  (s.ofValue (req.field name)).mapError jsonFault

/-- Read an optional field of a value of the library; `null` and absence give `default`. -/
def readOr (req : Json) (name : String) (s : Shape) (default : Json) : Except Json Json :=
  match req.field name with
  | .null => .ok default
  | v => (s.ofValue v).mapError jsonFault

/-- Read a setting of the request itself; `null` and absence give `default`. -/
def setting (req : Json) (name : String) (s : Shape) (default : Json) : Except Json Json :=
  match req.field name with
  | .null => .ok default
  | v => (s.ofValue v).mapError fun f => badRequest f.message

/-- An unsigned setting of the request. -/
def natSetting (req : Json) (name : String) (default : Nat) : Except Json Nat := do
  return (← setting req name Shape.u64 (.nat default)).asNat

/-- A truth setting of the request. -/
def boolSetting (req : Json) (name : String) (default : Bool) : Except Json Bool := do
  return (← setting req name .bool (.bool default)).asBool

/-- A string setting of the request. -/
def stringSetting (req : Json) (name : String) (default : String) : Except Json String := do
  return (← setting req name Shape.str (.string default)).asString

/-- Read a step named by its member `tag` as one of `variants`, each read as a record of its
fields: the variant's name and its normal value. Faults have kind `Json`. -/
def tagged (tag : String) (variants : List (String × List (String × Shape × Option Json)))
    (j : Json) : Except Json (String × Json) :=
  let names := variants.map (·.1)
  match j with
  | .object _ =>
    match j.get? tag with
    | some (.string s) =>
      match variants.lookup s with
      | some fields => do
        return (s, ← ((Shape.record s fields).ofValue j).mapError jsonFault)
      | none => .error (jsonFault (.mismatch (.unknownVariant s names) none))
    | some v => .error (jsonFault (.mismatch (.invalidType (.ofJson v) "variant identifier") none))
    | none => .error (jsonFault (.mismatch (.missingField tag) none))
  | v => .error (jsonFault (.mismatch (.invalidType (.ofJson v) "internally tagged enum") none))

end Service

end Campaign
