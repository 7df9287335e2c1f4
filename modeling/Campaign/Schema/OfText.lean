import Campaign.Json.Cursor
import Campaign.Schema.OfValue

/-! `Shape.ofText` reads a text by a shape in one pass and stops at the first fault in reading
order, so a wrong value reported early wins over a syntax fault further on. A scalar of the
wrong kind is reported after it, an array or object of the wrong kind before its bracket, a
missing field after the closing bracket and a repeated or unknown name after that name; members
no field names are skipped with their syntax checked, and the text nests at most 127 deep.
-/

namespace Campaign

namespace Scan

/-- Open one level of nesting, before reading the bracket. -/
def enter : Scan Unit := do
  let c ← get
  if c.depth ≤ 1 then failAhead .recursionLimitExceeded
  set { c with depth := c.depth - 1 }

/-- Close one level of nesting. -/
def leave : Scan Unit := modify fun c => { c with depth := c.depth + 1 }

/-- Report what the next value is, read as far as needed, as a value of the wrong kind. -/
def wrongKind {α : Type} (expected : String) : Scan α := do
  match ← peekSkip with
  | some 'n' => eat; ident "ull".toList; mismatch (.invalidType .unit expected)
  | some 't' => eat; ident "rue".toList; mismatch (.invalidType (.bool true) expected)
  | some 'f' => eat; ident "alse".toList; mismatch (.invalidType (.bool false) expected)
  | some '-' => eat; let n ← number true; mismatch (.invalidType (.ofNumber n) expected)
  | some '"' => eat; let s ← string; mismatch (.invalidType (.str s) expected)
  | some '[' => mismatch (.invalidType .seq expected)
  | some '{' => mismatch (.invalidType .map expected)
  | some ch =>
    if isDigit ch then do
      let n ← number false
      mismatch (.invalidType (.ofNumber n) expected)
    else failAhead .expectedSomeValue
  | none => failAhead .expectedSomeValue

/-- Whether another element follows in an array; `first` when none was read yet. -/
def hasElement (first : Bool) : Scan Bool := do
  match ← peekSkip with
  | none => failAhead .eofWhileParsingList
  | some ']' => return false
  | some ch =>
    if first then return true
    else if ch = ',' then
      eat
      match ← peekSkip with
      | some ']' => failAhead .trailingComma
      | some _ => return true
      | none => failAhead .eofWhileParsingValue
    else failAhead .expectedListCommaOrEnd

/-- Close an array after its last wanted element. -/
def endList : Scan Unit := do
  match ← peekSkip with
  | some ']' => eat
  | some ',' =>
    eat
    match ← peekSkip with
    | some ']' => failAhead .trailingComma
    | _ => failAhead .trailingCharacters
  | some _ => failAhead .expectedListCommaOrEnd
  | none => failAhead .eofWhileParsingList

/-- Whether another member follows in an object; `first` when none was read yet. -/
def hasMember (first : Bool) : Scan Bool := do
  match ← peekSkip with
  | none => failAhead .eofWhileParsingObject
  | some '}' => return false
  | some ch =>
    if first then
      if ch = '"' then return true else failAhead .keyMustBeAString
    else if ch = ',' then
      eat
      match ← peekSkip with
      | some '"' => return true
      | some '}' => failAhead .trailingComma
      | some _ => failAhead .keyMustBeAString
      | none => failAhead .eofWhileParsingValue
    else failAhead .expectedObjectCommaOrEnd

/-- Read the colon between a key and its value. -/
def colon : Scan Unit := do
  match ← peekSkip with
  | some ':' => eat
  | some _ => failAhead .expectedColon
  | none => failAhead .eofWhileParsingObject

/-- Close an object after its last member. -/
def endObject : Scan Unit := do
  match ← peekSkip with
  | some '}' => eat
  | some ',' => failAhead .trailingComma
  | some _ => failAhead .trailingCharacters
  | none => failAhead .eofWhileParsingObject

/-- Read a member's key, its quote not yet read. -/
def key : Scan String := do
  eat
  string

/-- Read a number that a key holds between quotes. -/
def numericKey : Scan Nat := do
  eat
  match ← peek with
  | some ch =>
    if isDigit ch || ch = '-' then pure () else fail .expectedNumericKey
  | none => fail .expectedNumericKey
  let n ← match ← peek with
    | some '-' => do eat; number true
    | _ => number false
  match ← peek with
  | some '"' => eat
  | _ => failAhead .expectedDoubleQuote
  match n with
  | .uint v => return v
  | .sint i => mismatch (.invalidValue (.signed i) "u64")
  | .float f => mismatch (.invalidType (.float f) "u64")

mutual
/-- Skip one value, checking its syntax. -/
def skipValue : Nat → Scan Unit
  | 0 => failAhead .recursionLimitExceeded
  | fuel + 1 => do
    match ← peekSkip with
    | none => failAhead .eofWhileParsingValue
    | some 'n' => eat; ident "ull".toList
    | some 't' => eat; ident "rue".toList
    | some 'f' => eat; ident "alse".toList
    | some '-' => eat; skipNumber
    | some '"' => eat; skipString
    | some '[' => eat; skipItems fuel false
    | some '{' => eat; skipMembers fuel false
    | some ch => if isDigit ch then skipNumber else failAhead .expectedSomeValue

/-- Skip the rest of an array; `afterValue` once an element was read. -/
def skipItems : Nat → Bool → Scan Unit
  | 0, _ => failAhead .recursionLimitExceeded
  | fuel + 1, afterValue => do
    match ← peekSkip with
    | none => failAhead .eofWhileParsingList
    | some ']' => eat
    | some ch =>
      if afterValue then
        if ch = ',' then do eat; skipValue fuel; skipItems fuel true
        else failAhead .expectedListCommaOrEnd
      else do skipValue fuel; skipItems fuel true

/-- Skip the rest of an object; `afterValue` once a member was read. -/
def skipMembers : Nat → Bool → Scan Unit
  | 0, _ => failAhead .recursionLimitExceeded
  | fuel + 1, afterValue => do
    match ← peekSkip with
    | none => failAhead .eofWhileParsingObject
    | some '}' => eat
    | some ch =>
      if afterValue then
        if ch = ',' then do eat; skipMember fuel; skipMembers fuel true
        else failAhead .expectedObjectCommaOrEnd
      else do skipMember fuel; skipMembers fuel true

/-- Skip a key, its colon and its value. -/
def skipMember : Nat → Scan Unit
  | 0 => failAhead .recursionLimitExceeded
  | fuel + 1 => do
    match ← peekSkip with
    | some '"' => eat; skipString
    | some _ => failAhead .keyMustBeAString
    | none => failAhead .eofWhileParsingObject
    match ← peekSkip with
    | some ':' => eat
    | some _ => failAhead .expectedColon
    | none => failAhead .eofWhileParsingObject
    skipValue fuel
end

end Scan

namespace Shape

open Scan

/-- Read an unsigned integer named `name`. -/
def textUnsigned (name : String) : Scan Json := do
  let n ← match ← peekSkip with
    | none => failAhead .eofWhileParsingValue
    | some '-' => do eat; number true
    | some ch => if isDigit ch then number false else wrongKind name
  match n with
  | .uint v => return .number (.uint v)
  | .sint i => mismatch (.invalidValue (.signed i) name)
  | .float f => mismatch (.invalidType (.float f) name)

/-- Read a signed 64-bit integer. -/
def textSigned : Scan Json := do
  let n ← match ← peekSkip with
    | none => failAhead .eofWhileParsingValue
    | some '-' => do eat; number true
    | some ch => if isDigit ch then number false else wrongKind "i64"
  match n with
  | .uint v =>
    if v < Nat.pow 2 63 then return .number (.uint v)
    else mismatch (.invalidValue (.unsigned v) "i64")
  | .sint i => return .number (.sint i)
  | .float f => mismatch (.invalidType (.float f) "i64")

/-- Read a boolean. -/
def textBool : Scan Json := do
  match ← peekSkip with
  | none => failAhead .eofWhileParsingValue
  | some 't' => eat; ident "rue".toList; return .bool true
  | some 'f' => eat; ident "alse".toList; return .bool false
  | some _ => wrongKind "a boolean"

/-- Read a string. -/
def textString (expected : String) : Scan Json := do
  match ← peekSkip with
  | none => failAhead .eofWhileParsingValue
  | some '"' => eat; return .string (← Scan.string)
  | some _ => wrongKind expected

/-- Read a name out of a list, given as a string. -/
def textName (names : List String) : Scan String := do
  match ← peekSkip with
  | none => failAhead .eofWhileParsingValue
  | some '"' =>
    eat
    let s ← Scan.string
    if names.contains s then return s else mismatch (.unknownVariant s names)
  | some _ => wrongKind "variant identifier"

/-- Read `null` as the value of a name given in an object. -/
def textUnit : Scan Unit := do
  match ← peekSkip with
  | none => failAhead .eofWhileParsingValue
  | some 'n' => eat; ident "ull".toList
  | some _ => wrongKind "unit"

/-- Read a name out of a list, as a string or as a one-member object. -/
def textVariant (names : List String) : Scan Json := do
  match ← peekSkip with
  | some '{' =>
    enter
    eat
    let s ← textName names
    colon
    textUnit
    leave
    match ← peekSkip with
    | some '}' => eat; return .string s
    | some _ => fail .expectedSomeValue
    | none => fail .eofWhileParsingObject
  | some '"' => return .string (← textName names)
  | some _ => failAhead .expectedSomeValue
  | none => failAhead .eofWhileParsingValue

/-- Read a map key. -/
def textKey : KeyShape → Scan String
  | .text => key
  | .variant names => textName names
  | .unsigned => do return toString (← numericKey)

mutual
/-- Read a value of a shape. -/
def textValue : Nat → Shape → Scan Json
  | 0, _ => failAhead .recursionLimitExceeded
  | fuel + 1, s =>
    match s with
    | .unsigned name => textUnsigned name
    | .signed => textSigned
    | .bool => textBool
    | .string e => textString e
    | .optional inner => do
      match ← peekSkip with
      | some 'n' => eat; ident "ull".toList; return .null
      | _ => textValue fuel inner
    | .list item => do
      match ← peekSkip with
      | none => failAhead .eofWhileParsingValue
      | some '[' =>
        enter; eat
        let items ← textItems fuel item true []
        leave
        endList
        return .array items
      | some _ => wrongKind "a sequence"
    | .map k v => do
      match ← peekSkip with
      | none => failAhead .eofWhileParsingValue
      | some '{' =>
        enter; eat
        let ms ← textEntries fuel k v true []
        leave
        endObject
        return .object ms
      | some _ => wrongKind "a map"
    | .record name fields => do
      match ← peekSkip with
      | none => failAhead .eofWhileParsingValue
      | some '[' =>
        enter; eat
        let vs ← textFieldItems fuel name fields.length 0 true fields
        leave
        endList
        return .object vs
      | some '{' =>
        enter; eat
        let found ← textMembers fuel fields true []
        leave
        endObject
        match ofFill fields found with
        | .ok v => return v
        | .error (.mismatch m _) => mismatch m
        | .error f => throw f
      | some _ => wrongKind ("struct " ++ name)
    | .variant names => textVariant names
    | .any => textAny fuel

/-- Read any value. -/
def textAny : Nat → Scan Json
  | 0 => failAhead .recursionLimitExceeded
  | fuel + 1 => do
    match ← peekSkip with
    | none => failAhead .eofWhileParsingValue
    | some 'n' => eat; ident "ull".toList; return .null
    | some 't' => eat; ident "rue".toList; return .bool true
    | some 'f' => eat; ident "alse".toList; return .bool false
    | some '-' => eat; return .number (← number true)
    | some '"' => eat; return .string (← Scan.string)
    | some '[' =>
      enter; eat
      let items ← textItems fuel .any true []
      leave
      endList
      return .array items
    | some '{' =>
      enter; eat
      let ms ← textEntries fuel .text .any true []
      leave
      endObject
      return .object ms
    | some ch =>
      if isDigit ch then return .number (← number false) else failAhead .expectedSomeValue

/-- Read the elements of an array. -/
def textItems : Nat → Shape → Bool → List Json → Scan (List Json)
  | 0, _, _, _ => failAhead .recursionLimitExceeded
  | fuel + 1, item, first, acc => do
    if ← hasElement first then
      let v ← textValue fuel item
      textItems fuel item false (v :: acc)
    else return acc.reverse

/-- Read the members of a map in key order, a later member replacing an earlier one. -/
def textEntries : Nat → KeyShape → Shape → Bool → List (String × Json) →
    Scan (List (String × Json))
  | 0, _, _, _, _ => failAhead .recursionLimitExceeded
  | fuel + 1, k, v, first, acc => do
    if ← hasMember first then
      let key ← textKey k
      colon
      let value ← textValue fuel v
      textEntries fuel k v false (insertKey k key value acc)
    else return acc

/-- Read the members of an object as record fields; unknown members are skipped. -/
def textMembers : Nat → List (String × Shape × Option Json) → Bool →
    List (String × Json) → Scan (List (String × Json))
  | 0, _, _, _ => failAhead .recursionLimitExceeded
  | fuel + 1, fields, first, acc => do
    if ← hasMember first then
      let k ← key
      match fields.lookup k with
      | some (s, _) =>
        if (acc.lookup k).isSome then mismatch (.duplicateField k)
        colon
        let v ← textValue fuel s
        textMembers fuel fields false (acc ++ [(k, v)])
      | none =>
        colon
        skipValue fuel
        textMembers fuel fields false acc
    else return acc

/-- Read the elements of an array as record fields in declaration order. -/
def textFieldItems : Nat → String → Nat → Nat → Bool → List (String × Shape × Option Json) →
    Scan (List (String × Json))
  | 0, _, _, _, _, _ => failAhead .recursionLimitExceeded
  | _, _, _, _, _, [] => return []
  | fuel + 1, name, count, index, first, (f, s, d) :: rest => do
    if ← hasElement first then
      let v ← textValue fuel s
      let vs ← textFieldItems fuel name count (index + 1) false rest
      return (f, v) :: vs
    else
      match d with
      | some v =>
        let vs ← textFieldItems fuel name count (index + 1) first rest
        return (f, v) :: vs
      | none =>
        endList
        mismatch (.invalidLength index (elementsExpected name count))
end

/-- Read a whole text by a shape: one value, then only whitespace. -/
def ofText (s : Shape) (text : String) : Except Fault Json :=
  let c := Cursor.ofString text
  let run : Scan Json := do
    let v ← textValue (2 * c.rest.length + 8) s
    match ← peekSkip with
    | some _ => failAhead .trailingCharacters
    | none => return v
  (run.run c).map Prod.fst

end Shape

end Campaign
