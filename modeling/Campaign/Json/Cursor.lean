import Campaign.Schema.Fault

/-! Reading JSON text from a cursor that knows its line and byte, stopping with a `Fault` placed
where the text went wrong. Numbers accumulate into a 64-bit significand and become binary64,
each step rounded once.
-/

namespace Campaign

/-- Unread text and the position reached. -/
structure Cursor where
  rest : List Char
  line : Nat
  column : Nat
  /-- How many more arrays and objects may open. -/
  depth : Nat
  deriving Inhabited

namespace Cursor

/-- A cursor at the start of a text. -/
def ofString (s : String) : Cursor := ⟨s.toList, 1, 0, 128⟩

/-- The position after the characters read. -/
def position (c : Cursor) : Position := ⟨c.line, c.column⟩

/-- The position after the first byte of the next character. -/
def positionAhead (c : Cursor) : Position :=
  match c.rest with
  | [] => c.position
  | '\n' :: _ => ⟨c.line + 1, 0⟩
  | _ :: _ => ⟨c.line, c.column + 1⟩

/-- Read one character. -/
def advance (c : Cursor) : Cursor :=
  match c.rest with
  | [] => c
  | ch :: rest =>
    if ch = '\n' then { c with rest := rest, line := c.line + 1, column := 0 }
    else { c with rest := rest, column := c.column + ch.utf8Size }

end Cursor

/-- Reading from a cursor. -/
abbrev Scan := StateT Cursor (Except Fault)

namespace Scan

/-- Stop with a syntax fault after the characters read. -/
def fail {α : Type} (code : SyntaxCode) : Scan α := do
  throw (.malformed code (← get).position)

/-- Stop with a syntax fault after the next character. -/
def failAhead {α : Type} (code : SyntaxCode) : Scan α := do
  throw (.malformed code (← get).positionAhead)

/-- Stop with a mismatch placed after the characters read. -/
def mismatch {α : Type} (m : Mismatch) : Scan α := do
  throw (.mismatch m (some (← get).position))

/-- Give a position to an unpositioned fault of `x`: the position reached when it stopped. -/
def placed {α : Type} (x : Scan α) : Scan α := fun c =>
  match x c with
  | .ok r => .ok r
  | .error f => .error (f.placeAt c.position)

/-- The next character, unread. -/
def peek : Scan (Option Char) := do
  return (← get).rest.head?

/-- Read one character. -/
def eat : Scan Unit := modify Cursor.advance

/-- Read and return the next character. -/
def next : Scan (Option Char) := do
  let c ← peek
  eat
  return c

/-- Whether a character is JSON whitespace. -/
def isBlank (c : Char) : Bool := c = ' ' || c = '\n' || c = '\t' || c = '\r'

/-- Skip whitespace in a list of characters, counting what was skipped. -/
def skipBlanks (c : Cursor) : Cursor :=
  let rec go (rest : List Char) (line column : Nat) : List Char × Nat × Nat :=
    match rest with
    | ch :: more =>
      if ch = '\n' then go more (line + 1) 0
      else if isBlank ch then go more line (column + 1)
      else (rest, line, column)
    | [] => ([], line, column)
  let (rest, line, column) := go c.rest c.line c.column
  { c with rest := rest, line := line, column := column }

/-- Skip whitespace and look at the next character. -/
def peekSkip : Scan (Option Char) := do
  modify skipBlanks
  peek

/-- Read the rest of a keyword whose first letter was read. -/
def ident (word : List Char) : Scan Unit := do
  for w in word do
    match ← next with
    | none => fail .eofWhileParsingValue
    | some ch => if ch ≠ w then fail .expectedSomeIdent

/-- Value of a hexadecimal digit. -/
def hexValue (c : Char) : Option Nat :=
  if '0' ≤ c ∧ c ≤ '9' then some (c.toNat - '0'.toNat)
  else if 'a' ≤ c ∧ c ≤ 'f' then some (c.toNat - 'a'.toNat + 10)
  else if 'A' ≤ c ∧ c ≤ 'F' then some (c.toNat - 'A'.toNat + 10)
  else none

/-- Read the four hex digits of a `\u` escape; all four are read before they are checked. -/
def hexEscape : Scan Nat := do
  let c ← get
  match c.rest with
  | a :: b :: d :: e :: _ =>
    eat; eat; eat; eat
    match hexValue a, hexValue b, hexValue d, hexValue e with
    | some w, some x, some y, some z => return ((w * 16 + x) * 16 + y) * 16 + z
    | _, _, _, _ => fail .invalidEscape
  | _ =>
    set { c with rest := [], column := c.column + c.rest.foldl (fun (n : Nat) (ch : Char) => n + ch.utf8Size) 0 }
    fail .eofWhileParsingString

/-- Read a `\u` escape (its `u` already read): a code unit, or a pair of surrogates. -/
def unicodeEscape : Scan Char := do
  let n ← hexEscape
  if 0xDC00 ≤ n ∧ n ≤ 0xDFFF then fail .loneLeadingSurrogateInHexEscape
  if n < 0xD800 ∨ 0xDBFF < n then return Char.ofNat n
  match ← peek with
  | some '\\' => eat
  | some _ => eat; fail .unexpectedEndOfHexEscape
  | none => fail .eofWhileParsingString
  match ← peek with
  | some 'u' => eat
  | some _ => eat; fail .unexpectedEndOfHexEscape
  | none => fail .eofWhileParsingString
  let m ← hexEscape
  if m < 0xDC00 ∨ 0xDFFF < m then fail .loneLeadingSurrogateInHexEscape
  return Char.ofNat ((((n - 0xD800) * 1024) ||| (m - 0xDC00)) + 0x10000)

/-- Read one escape (its backslash already read). -/
def escape : Scan Char := do
  match ← next with
  | none => fail .eofWhileParsingString
  | some '"' => return '"'
  | some '\\' => return '\\'
  | some '/' => return '/'
  | some 'b' => return Char.ofNat 8
  | some 'f' => return Char.ofNat 12
  | some 'n' => return '\n'
  | some 'r' => return '\r'
  | some 't' => return '\t'
  | some 'u' => unicodeEscape
  | some _ => fail .invalidEscape

/-- Read the characters of a string up to its closing quote (the opening one already read),
with at most `fuel` steps. -/
def stringBody : Nat → List Char → Scan String
  | 0, acc => return String.ofList acc.reverse
  | fuel + 1, acc => do
    match ← next with
    | none => fail .eofWhileParsingString
    | some '"' => return String.ofList acc.reverse
    | some '\\' => stringBody fuel ((← escape) :: acc)
    | some ch =>
      if ch.toNat < 0x20 then fail .controlCharacterWhileParsingString
      else stringBody fuel (ch :: acc)

/-- Read a string, its opening quote already read. -/
def string : Scan String := do
  stringBody ((← get).rest.length + 1) []

/-- Whether a character is a decimal digit. -/
def isDigit (c : Char) : Bool := '0' ≤ c && c ≤ '9'

/-- The numeric value of a decimal digit. -/
def digitValue (c : Char) : Nat := c.toNat - '0'.toNat

/-- Read the decimal digits that follow, as a list. -/
def digits : Scan (List Char) := do
  let c ← get
  let ds := c.rest.takeWhile isDigit
  set { c with rest := c.rest.drop ds.length, column := c.column + ds.length }
  return ds

/-- The largest 64-bit unsigned integer. -/
def wordMax : Nat := Nat.pow 2 64 - 1

/-- Binary64 of a significand scaled by a power of ten, rounding at each of the two steps;
`none` when the result leaves the finite range. -/
def scaleByTen (neg : Bool) (significand : Nat) (exponent : Int) : Option Binary64 := do
  let f ← Binary64.ofNat significand
  let rec shrink : Nat → Binary64 → Int → Option Binary64
    | 0, f, _ => some f
    | fuel + 1, f, e =>
      if e.natAbs ≤ 308 then do
        let p ← Binary64.powTen e.natAbs
        if 0 ≤ e then Binary64.mul f p else Binary64.div f p
      else if f.isZero then some f
      else if 0 ≤ e then none
      else do
        let p ← Binary64.powTen 308
        shrink fuel (← Binary64.div f p) (e + 308)
  let r ← shrink 8 f exponent
  return { r with neg := neg }

/-- The float of a significand and exponent, or the range fault. -/
def float (neg : Bool) (significand : Nat) (exponent : Int) : Scan Number :=
  match scaleByTen neg significand exponent with
  | some f => return .float f
  | none => fail .numberOutOfRange

/-- Saturate an exponent to 32 signed bits. -/
def saturate (e : Int) : Int := max (-(Int.pow 2 31)) (min e (Int.pow 2 31 - 1))

/-- The index in `ds` of the digit at which an exponent that starts as `v` exceeds 32 signed
bits, if it does. -/
def overflowAt (v : Nat) : List Char → Nat → Option Nat
  | [], _ => none
  | d :: ds, i =>
    let w := v * 10 + digitValue d
    if w > Nat.pow 2 31 - 1 then some i else overflowAt w ds (i + 1)

/-- Read an exponent (its `e` not yet read) and make the float. -/
def exponentPart (neg : Bool) (significand : Nat) (start : Int) : Scan Number := do
  eat
  let positive ← match ← peek with
    | some '+' => do eat; pure true
    | some '-' => do eat; pure false
    | _ => pure true
  match ← next with
  | none => fail .eofWhileParsingValue
  | some ch =>
    if !isDigit ch then fail .invalidNumber
    let c0 ← get
    let more ← digits
    match overflowAt (digitValue ch) more 0 with
    | some i =>
      -- infinity is refused where the exponent overflows; anything else is a zero
      if significand ≠ 0 ∧ positive then
        throw (.malformed .numberOutOfRange ⟨c0.line, c0.column + i + 1⟩)
      return .float { Binary64.zero with neg := neg }
    | none =>
      let value : Int := (ch :: more).foldl (fun n d => n * 10 + digitValue d) 0
      float neg significand (saturate (if positive then start + value else start - value))

/-- Read a fraction (its point already seen) and what follows. -/
def fraction (neg : Bool) (significand : Nat) (start : Int) : Scan Number := do
  eat
  let ds ← digits
  if ds.isEmpty then
    match ← peek with
    | some _ => failAhead .invalidNumber
    | none => failAhead .eofWhileParsingValue
  -- digits that would overflow the significand are read but ignored
  let (sig, used) := ds.foldl (fun (acc : Nat × Nat × Bool) d =>
    if acc.2.2 then acc else
    let v := acc.1 * 10 + digitValue d
    if v > wordMax then (acc.1, acc.2.1, true) else (v, acc.2.1 + 1, false)) (significand, 0, false)
    |> fun (s, u, _) => (s, u)
  let e := start - used
  match ← peek with
  | some 'e' | some 'E' => exponentPart neg sig e
  | _ => float neg sig e

/-- Read what follows the integer digits of a number. -/
def numberTail (neg : Bool) (significand : Nat) (exponent : Int) (isFloat : Bool) :
    Scan Number := do
  match ← peek with
  | some '.' => fraction neg significand exponent
  | some 'e' | some 'E' => exponentPart neg significand exponent
  | _ =>
    if isFloat then float neg significand exponent
    else if !neg then return .uint significand
    else if significand = 0 then return .float { Binary64.zero with neg := true }
    else if significand ≤ Nat.pow 2 63 then return .sint (-(significand : Int))
    else float neg significand 0

/-- Read a number, its sign already read: `neg` tells whether it was a minus. -/
def number (neg : Bool) : Scan Number := do
  match ← next with
  | none => fail .eofWhileParsingValue
  | some '0' =>
    match ← peek with
    | some ch => if isDigit ch then failAhead .invalidNumber else numberTail neg 0 0 false
    | none => numberTail neg 0 0 false
  | some ch =>
    if !isDigit ch then fail .invalidNumber
    let more ← digits
    -- accumulate while the significand fits 64 bits; later digits only scale it
    let (sig, used) := more.foldl (fun (acc : Nat × Nat × Bool) d =>
      if acc.2.2 then acc else
      let v := acc.1 * 10 + digitValue d
      if v > wordMax then (acc.1, acc.2.1, true) else (v, acc.2.1 + 1, false))
      (digitValue ch, 0, false) |> fun (s, u, _) => (s, u)
    let extra := more.length - used
    numberTail neg sig extra (extra > 0)

/-- Skip a number in a value that is being ignored: its syntax is checked, not its range. -/
def skipNumber : Scan Unit := do
  match ← next with
  | some '0' =>
    match ← peek with
    | some ch => if isDigit ch then failAhead .invalidNumber
    | none => pure ()
  | some ch => if isDigit ch then discard digits else fail .invalidNumber
  | none => fail .invalidNumber
  match ← peek with
  | some '.' =>
    eat
    let ds ← digits
    if ds.isEmpty then failAhead .invalidNumber
    match ← peek with
    | some 'e' | some 'E' => skipExponent
    | _ => pure ()
  | some 'e' | some 'E' => skipExponent
  | _ => pure ()
where
  skipExponent : Scan Unit := do
    eat
    match ← peek with
    | some '+' | some '-' => eat
    | _ => pure ()
    match ← next with
    | some ch => if isDigit ch then discard digits else fail .invalidNumber
    | none => fail .invalidNumber

/-- Skip a string in a value that is being ignored (its opening quote already read). -/
def skipString : Scan Unit := discard string

end Scan

end Campaign
