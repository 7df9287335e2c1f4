import Campaign.Float.Binary64

/-! JSON values, with each number in exactly one class: unsigned below `2 ^ 64`, negative not below
`-2 ^ 63`, or binary64. Objects the reader builds keep their members sorted by key, and objects
built for output keep the order given.
-/

namespace Campaign

/-- A JSON number. -/
inductive Number where
  /-- An integer `0 ≤ n < 2 ^ 64`. -/
  | uint (n : Nat)
  /-- An integer `-2 ^ 63 ≤ i < 0`. -/
  | sint (i : Int)
  /-- A finite binary64 value. -/
  | float (f : Binary64)
  deriving DecidableEq, Repr, Inhabited

/-- A JSON value. -/
inductive Json where
  | null
  | bool (b : Bool)
  | number (n : Number)
  | string (s : String)
  | array (items : List Json)
  | object (members : List (String × Json))
  deriving Repr, Inhabited

namespace Number

/-- Two to the sixty-fourth: the bound of unsigned integers. -/
def wordLimit : Nat := Nat.pow 2 64

/-- Two to the sixty-third: the bound of the magnitude of negative integers. -/
def signedLimit : Nat := Nat.pow 2 63

/-- The number of an integer, when it has an integer class. -/
def ofInt? (i : Int) : Option Number :=
  if 0 ≤ i then
    if i.toNat < wordLimit then some (.uint i.toNat) else none
  else if i.natAbs ≤ signedLimit then some (.sint i) else none

end Number

namespace Json

/-- A natural number as JSON (the caller keeps it below `2 ^ 64`). -/
def nat (n : Nat) : Json := .number (.uint n)

/-- An integer as JSON: non-negative ones are unsigned, negative ones signed. -/
def int (i : Int) : Json :=
  if 0 ≤ i then .number (.uint i.toNat) else .number (.sint i)

/-- An optional value, `null` when absent. -/
def opt {α : Type} (f : α → Json) : Option α → Json
  | some a => f a
  | none => .null

/-- A list of strings. -/
def strings (xs : List String) : Json := .array (xs.map .string)

/-- The member of an object with the given key. -/
def get? (j : Json) (key : String) : Option Json :=
  match j with
  | .object ms => ms.lookup key
  | _ => none

/-- Insert a member into a key-sorted member list, replacing a member of the same key. -/
def insertSorted (k : String) (v : Json) : List (String × Json) → List (String × Json)
  | [] => [(k, v)]
  | (k', v') :: rest =>
    if k < k' then (k, v) :: (k', v') :: rest
    else if k = k' then (k, v) :: rest
    else (k', v') :: insertSorted k v rest

/-- Sort members by key, a later member replacing an earlier one of the same key. -/
def sortMembers (ms : List (String × Json)) : List (String × Json) :=
  ms.foldl (fun acc (k, v) => insertSorted k v acc) []

/-- A member found by key is smaller than the member list. -/
theorem sizeOf_lookup_lt (k : String) : ∀ (ms : List (String × Json)) (v : Json),
    ms.lookup k = some v → sizeOf v < sizeOf ms
  | [], _, h => by simp at h
  | (a, b) :: rest, v, h => by
    rw [List.lookup_cons] at h
    split at h
    · cases h; simp; omega
    · have := sizeOf_lookup_lt k rest v h; simp; omega

/-- Whether the value is `null`. -/
def isNull : Json → Bool
  | .null => true
  | _ => false

end Json

end Campaign
