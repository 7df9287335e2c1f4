import Campaign.Json.Value

/-! A shape says what a reader accepts at one place of a JSON document and how it fills what is
missing. Reading by a shape (`Campaign.Schema.OfValue`, `Campaign.Schema.OfText`) yields a
*normal* value: integers checked against their range, optional places `null` when absent,
records as objects with every field in declaration order, and maps with sorted keys. Each
domain type then converts its normal value without any further check.
-/

namespace Campaign

/-- Keys of a map. -/
inductive KeyShape where
  /-- Any string. -/
  | text
  /-- One of a fixed list of names. -/
  | variant (names : List String)
  /-- An unsigned integer written as a string. -/
  | unsigned
  deriving Repr

/-- What a reader accepts at one place. -/
inductive Shape where
  /-- An unsigned integer below `2 ^ 64`, named `u64` or `usize` in faults. -/
  | unsigned (name : String)
  /-- A signed integer in `[-2 ^ 63, 2 ^ 63)`. -/
  | signed
  | bool
  /-- A string; `expected` names it in faults (`a string`, `path string`). -/
  | string (expected : String)
  /-- `null` or the inner shape. -/
  | optional (inner : Shape)
  | list (item : Shape)
  | map (key : KeyShape) (value : Shape)
  /-- A record: its name, and its fields with their defaults. -/
  | record (name : String) (fields : List (String × Shape × Option Json))
  /-- A name out of a fixed list, also accepted as a one-member object `{"name": null}`. -/
  | variant (names : List String)
  /-- Any JSON value. -/
  | any
  deriving Repr

namespace Shape

/-- The usual string. -/
def str : Shape := .string "a string"

/-- A path, written as a string. -/
def path : Shape := .string "path string"

/-- A 64-bit unsigned integer. -/
def u64 : Shape := .unsigned "u64"

/-- A machine-word unsigned integer. -/
def usize : Shape := .unsigned "usize"

/-- A required field. -/
def field (name : String) (s : Shape) : String × Shape × Option Json := (name, s, none)

/-- A field with a default. -/
def fieldOr (name : String) (s : Shape) (d : Json) : String × Shape × Option Json :=
  (name, s, some d)

/-- The wording of what a shape expects, in faults. -/
def expecting : Shape → String
  | .unsigned n => n
  | .signed => "i64"
  | .bool => "a boolean"
  | .string e => e
  | .optional _ => "option"
  | .list _ => "a sequence"
  | .map _ _ => "a map"
  | .record n _ => "struct " ++ n
  | .variant _ => "variant identifier"
  | .any => "any valid JSON value"

end Shape

end Campaign
