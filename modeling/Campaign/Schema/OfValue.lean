import Campaign.Schema.Shape
import Campaign.Schema.Fault

/-! `Shape.ofValue` checks an already parsed value against a shape and returns its normal value,
visiting members in the value's (key) order and reporting missing fields after all members, in
declaration order; its faults carry no position. A record may also be given as an array of its
fields, missing trailing fields taking their defaults, and a name out of a list as a one-member
object whose value is `null`.
-/

namespace Campaign

namespace Shape

/-- The order of map keys: names by their place in the list, numbers by value, text as text. -/
def keyRank (names : List String) (k : String) : Nat :=
  names.idxOf k

/-- Whether key `a` sorts before key `b`. -/
def keyBefore : KeyShape → String → String → Bool
  | .text, a, b => decide (a < b)
  | .variant names, a, b => keyRank names a < keyRank names b
  | .unsigned, a, b => (a.toNat?.getD 0) < (b.toNat?.getD 0)

/-- Insert a member by key order, replacing a member of the same key. -/
def insertKey (ks : KeyShape) (k : String) (v : Json) :
    List (String × Json) → List (String × Json)
  | [] => [(k, v)]
  | (k', v') :: rest =>
    if k = k' then (k, v) :: rest
    else if keyBefore ks k k' then (k, v) :: (k', v') :: rest
    else (k', v') :: insertKey ks k v rest

/-- The wording of what a record read from an array expects. -/
def elementsExpected (name : String) (count : Nat) : String :=
  "struct " ++ name ++ " with " ++ toString count ++ " element" ++
    (if count = 1 then "" else "s")

/-- A field's value when it is missing: its default, `null` when optional, else a fault. -/
def missingValue (name : String) (s : Shape) (d : Option Json) : Except Mismatch Json :=
  match d, s with
  | some v, _ => .ok v
  | none, .optional _ => .ok .null
  | none, _ => .error (.missingField name)

/-- Check a map key. -/
def ofKey : KeyShape → String → Except Fault String
  | .text, k => .ok k
  | .variant names, k =>
    if names.contains k then .ok k else .error (.mismatch (.unknownVariant k names) none)
  | .unsigned, k =>
    match k.toNat? with
    | some n => if n < Nat.pow 2 64 then .ok (toString n)
      else .error (.mismatch (.invalidValue (.str k) "u64") none)
    | none => .error (.mismatch (.invalidType (.str k) "u64") none)

/-- A mismatch without position. -/
def fault {α : Type} (m : Mismatch) : Except Fault α := .error (.mismatch m none)

/-- Complete the fields read with defaults, in declaration order. -/
def ofFill (fields : List (String × Shape × Option Json)) (found : List (String × Json)) :
    Except Fault Json := do
  let vs ← fields.mapM fun (f, s, d) =>
    match found.lookup f with
    | some v => .ok (f, v)
    | none =>
      match missingValue f s d with
      | .ok v => .ok (f, v)
      | .error m => fault m
  return .object vs

mutual
/-- Read a parsed value by a shape. -/
def ofValue : Shape → Json → Except Fault Json
  | .unsigned name, j =>
    match j with
    | .number (.uint n) => .ok (.number (.uint n))
    | .number (.sint i) => fault (.invalidValue (.signed i) name)
    | j => fault (.invalidType (.ofJson j) name)
  | .signed, j =>
    match j with
    | .number (.uint n) =>
      if n < Nat.pow 2 63 then .ok (.number (.uint n)) else fault (.invalidValue (.unsigned n) "i64")
    | .number (.sint i) => .ok (.number (.sint i))
    | j => fault (.invalidType (.ofJson j) "i64")
  | .bool, j =>
    match j with
    | .bool b => .ok (.bool b)
    | j => fault (.invalidType (.ofJson j) "a boolean")
  | .string e, j =>
    match j with
    | .string s => .ok (.string s)
    | j => fault (.invalidType (.ofJson j) e)
  | .optional inner, j =>
    match j with
    | .null => .ok .null
    | j => ofValue inner j
  | .list item, j =>
    match j with
    | .array items => do return .array (← ofItems item items)
    | j => fault (.invalidType (.ofJson j) "a sequence")
  | .map key value, j =>
    match j with
    | .object ms => do return .object (← ofEntries key value ms [])
    | j => fault (.invalidType (.ofJson j) "a map")
  | .record name fields, j =>
    match j with
    | .object ms => do
      let found ← ofMembers fields ms []
      ofFill fields found
    | .array items => do
      let vs ← ofFieldItems name fields.length 0 fields items
      if items.length > fields.length then
        fault (.invalidLength items.length "fewer elements in array")
      else .ok (.object vs)
    | j => fault (.invalidType (.ofJson j) ("struct " ++ name))
  | .variant names, j =>
    match j with
    | .string s => if names.contains s then .ok (.string s) else fault (.unknownVariant s names)
    | .object [(k, v)] =>
      if !names.contains k then fault (.unknownVariant k names)
      else match v with
        | .null => .ok (.string k)
        | v => fault (.invalidType (.ofJson v) "unit")
    | .object _ => fault (.invalidValue .map "map with a single key")
    | j => fault (.invalidType (.ofJson j) "string or map")
  | .any, j => .ok j
termination_by s j => (sizeOf j, sizeOf s)

/-- Read the items of an array. -/
def ofItems (item : Shape) : List Json → Except Fault (List Json)
  | [] => .ok []
  | j :: rest => do
    let v ← ofValue item j
    let vs ← ofItems item rest
    return v :: vs
termination_by js => (sizeOf js, 0)

/-- Read the members of a map, keeping them in key order. -/
def ofEntries (key : KeyShape) (value : Shape) :
    List (String × Json) → List (String × Json) → Except Fault (List (String × Json))
  | [], acc => .ok acc
  | (k, v) :: rest, acc => do
    let k ← ofKey key k
    let v ← ofValue value v
    ofEntries key value rest (insertKey key k v acc)
termination_by ms => (sizeOf ms, 0)

/-- Read the members of an object as record fields; unknown members are ignored. -/
def ofMembers (fields : List (String × Shape × Option Json)) :
    List (String × Json) → List (String × Json) → Except Fault (List (String × Json))
  | [], acc => .ok acc
  | (k, v) :: rest, acc =>
    match fields.lookup k with
    | some (s, _) =>
      if (acc.lookup k).isSome then fault (.duplicateField k)
      else do
        let v ← ofValue s v
        ofMembers fields rest (acc ++ [(k, v)])
    | none => ofMembers fields rest acc
termination_by ms => (sizeOf ms, 0)

/-- Read the elements of an array as record fields in declaration order. -/
def ofFieldItems (name : String) (count index : Nat) :
    List (String × Shape × Option Json) → List Json → Except Fault (List (String × Json))
  | [], _ => .ok []
  | (f, s, d) :: rest, j :: more => do
    let v ← ofValue s j
    let vs ← ofFieldItems name count (index + 1) rest more
    return (f, v) :: vs
  | (f, _, d) :: rest, [] =>
    match d with
    | some v => do
      let vs ← ofFieldItems name count (index + 1) rest []
      return (f, v) :: vs
    | none => fault (.invalidLength index (elementsExpected name count))
termination_by fs js => (sizeOf js, sizeOf fs)
end

end Shape

end Campaign
