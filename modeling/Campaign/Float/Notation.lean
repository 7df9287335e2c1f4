import Campaign.Float.Shortest

/-! Fixed, scientific and general notation of binary64 values, each digit string rounded once
from the exact value, a half going to the even neighbour. Text is read as a number the way
the system reads a decimal, rounded to the nearest binary64 value.
-/

namespace Campaign

namespace Binary64

/-- A number as formatted output prints it. -/
inductive Printed where
  /-- A finite value: its sign and its magnitude as the fraction `num / den`. -/
  | finite (neg : Bool) (num den : Nat)
  | infinite (neg : Bool)
  | notANumber (neg : Bool)
  deriving DecidableEq, Repr

/-- Round the fraction `num / den` to a whole number, a half going to the even neighbour. -/
def roundHalfEven (num den : Nat) : Nat :=
  let q := num / den
  let r := num % den
  if 2 * r > den || (2 * r == den && q % 2 == 1) then q + 1 else q

/-- The digits of `n`, with zeros in front up to `width` digits. -/
def padDigits (n width : Nat) : String :=
  let s := toString n
  String.ofList (List.replicate (width - s.length) '0') ++ s

/-- The magnitude `num / den` with `prec` digits after the point; the point is left out when
no digit follows it, unless `point`. -/
def fixedText (num den prec : Nat) (point : Bool) : String :=
  let n := roundHalfEven (num * Nat.pow 10 prec) den
  let s := padDigits n (prec + 1)
  let whole := String.ofList (s.toList.take (s.length - prec))
  let frac := String.ofList (s.toList.drop (s.length - prec))
  if prec == 0 then whole ++ (if point then "." else "") else whole ++ "." ++ frac

/-- The `prec + 1` significant digits of the magnitude `num / den`, as a whole number, and its
decimal exponent after rounding. Zero has the exponent `0`. -/
def scientificParts (num den prec : Nat) : Nat × Int :=
  if num == 0 then (0, 0)
  else
    let x := floorLog10 num den
    let (p, q) := powTenFraction (x - prec)
    let n := roundHalfEven (num * q) (den * p)
    if n ≥ Nat.pow 10 (prec + 1) then (n / 10, x + 1) else (n, x)

/-- The magnitude `num / den` in scientific notation with `prec` digits after the point. -/
def scientificText (num den prec : Nat) (point upper : Bool) : String :=
  let (n, x) := scientificParts num den prec
  let s := (padDigits n (prec + 1)).toList
  let mant := String.ofList (s.take 1) ++ (if prec > 0 || point then "." else "") ++
    String.ofList (s.drop 1)
  let exp := (if x < 0 then "-" else "+") ++ padDigits x.natAbs 2
  mant ++ (if upper then "E" else "e") ++ exp

/-- Text without the zeros that end its fraction, and without a point that ends it. -/
def stripFraction (s : String) : String :=
  if s.contains '.' then
    let cs := (s.toList.reverse.dropWhile (· == '0'))
    String.ofList (match cs with
      | '.' :: rest => rest
      | _ => cs).reverse
  else s

/-- The magnitude `num / den` in general notation with `prec` significant digits (`0` counts
as `1`); trailing zeros stay when `alt`. -/
def generalText (num den prec : Nat) (alt upper : Bool) : String :=
  let p := if prec == 0 then 1 else prec
  let (_, x) := scientificParts num den (p - 1)
  if x < p && x ≥ -4 then
    let t := fixedText num den (p - 1 - x).toNat alt
    if alt then t else stripFraction t
  else
    let t := scientificText num den (p - 1) alt upper
    if alt then t
    else match t.splitOn (if upper then "E" else "e") with
      | [mant, exp] => stripFraction mant ++ (if upper then "E" else "e") ++ exp
      | _ => t

/-- The value of digits in a base (at most sixteen). -/
def digitsValue (base : Nat) (ds : List Char) : Nat :=
  ds.foldl (fun v d =>
    let x := if d.isDigit then d.toNat - '0'.toNat else d.toLower.toNat - 'a'.toNat + 10
    v * base + x) 0

/-- A signed exponent after its letter: its value and what follows it; without digits there
is no exponent, and the letter is not read. -/
def exponentOf (letter : Char) (cs : List Char) : Int × List Char :=
  match cs with
  | e :: more =>
    if e.toLower == letter then
      let (eneg, digits) := match more with
        | '-' :: ds => (true, ds)
        | '+' :: ds => (false, ds)
        | ds => (false, ds)
      let ds := digits.takeWhile Char.isDigit
      if ds.isEmpty then (0, cs)
      else ((if eneg then -(digitsValue 10 ds : Int) else digitsValue 10 ds), digits.drop ds.length)
    else (0, cs)
  | [] => (0, cs)

/-- Digits of a base with an optional point between them: those before it, those after it,
and what follows. -/
def pointed (isDigit : Char → Bool) (cs : List Char) : List Char × List Char × List Char :=
  let whole := cs.takeWhile isDigit
  let rest := cs.drop whole.length
  match rest with
  | '.' :: more =>
    let frac := more.takeWhile isDigit
    (whole, frac, more.drop frac.length)
  | _ => (whole, [], rest)

/-- The value `num / den` of a sign, rounded to binary64. -/
def printedOf (neg : Bool) (num den : Nat) : Printed :=
  match round neg num den with
  | some b =>
    let (n, d) := b.toFraction
    .finite neg n d
  | none => .infinite neg

/-- A number read from text as the system reads a decimal: its value, whether any of the text
was read, and whether all of it was. Hexadecimal digits after `0x` have a binary exponent
after `p`. -/
def readDecimal (s : String) : Printed × Bool × Bool :=
  let cs := s.toList.dropWhile fun c => c == ' ' || c == '\t' || c == '\n'
  let (neg, body) := match cs with
    | '-' :: rest => (true, rest)
    | '+' :: rest => (false, rest)
    | _ => (false, cs)
  let lower := String.ofList (body.map Char.toLower)
  if lower.startsWith "infinity" then (.infinite neg, true, body.length == 8)
  else if lower.startsWith "inf" then (.infinite neg, true, body.length == 3)
  else if lower.startsWith "nan" then (.notANumber neg, true, body.length == 3)
  else
    let hex := match body with
      | '0' :: x :: more =>
        if x == 'x' || x == 'X' then
          let (whole, frac, rest) := pointed Char.isHexDigit more
          if whole.isEmpty && frac.isEmpty then none else some (whole, frac, rest)
        else none
      | _ => none
    match hex with
    | some (whole, frac, rest) =>
      let (exp, rest) := exponentOf 'p' rest
      let num := digitsValue 16 (whole ++ frac)
      let e := exp - 4 * frac.length
      let printed := if 0 ≤ e then printedOf neg (num * Nat.pow 2 e.toNat) 1
        else printedOf neg num (Nat.pow 2 (-e).toNat)
      (printed, true, rest.isEmpty)
    | none =>
      let (whole, frac, rest) := pointed Char.isDigit body
      if whole.isEmpty && frac.isEmpty then (.finite neg 0 1, false, false)
      else
        let (exp, rest) := exponentOf 'e' rest
        let (p, q) := powTenFraction (exp - frac.length)
        (printedOf neg (digitsValue 10 (whole ++ frac) * p) q, true, rest.isEmpty)

end Binary64

end Campaign
