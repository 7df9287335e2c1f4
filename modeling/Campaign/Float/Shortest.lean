import Campaign.Float.Binary64

/-! The fewest significant decimal digits that read back as the same binary64 value, found by
exact fractions on `Nat`, and their rendering the way JSON numbers are written by the
serialiser this library reproduces.
-/

namespace Campaign

namespace Binary64

/-- The number of decimal digits of `n` less one: the greatest `t` with `10 ^ t ≤ n` when
`n` is positive. -/
def log10 (n : Nat) : Nat := (Nat.toDigits 10 n).length - 1

/-- The greatest `t` with `10 ^ t ≤ num / den`, for positive `num` and `den`. -/
def floorLog10 (num den : Nat) : Int :=
  if den ≤ num then
    -- `10 ^ t ≤ num / den` iff `10 ^ t ≤ num / den` rounded down, for `t ≥ 0`
    (log10 (num / den) : Int)
  else
    -- the least `s > 0` with `den ≤ num * 10 ^ s`, negated
    -((log10 ((den - 1) / num) + 1 : Nat) : Int)

/-- `10 ^ k` as a fraction, for any integer `k`. -/
def powTenFraction (k : Int) : Nat × Nat :=
  if 0 ≤ k then (Nat.pow 10 k.toNat, 1) else (1, Nat.pow 10 (-k).toNat)

/-- Decimal digits of a positive natural number, most significant first. -/
def digitsOf (n : Nat) : List Nat :=
  (Nat.toDigits 10 n).map (fun c => c.toNat - '0'.toNat)

/-- A decimal `digits × 10 ^ (point - digits.length)`: `point` is the number of digits before
the decimal point in positional notation. -/
structure Decimal where
  digits : List Nat
  point : Int
  deriving DecidableEq, Repr

/-- Compare `a / b` with `c / d` for positive denominators. -/
def fracLe (a b c d : Nat) : Bool := a * d ≤ c * b

/-- Compare `a / b < c / d` for positive denominators. -/
def fracLt (a b c d : Nat) : Bool := a * d < c * b

/-- The two ends of the rounding interval of a positive value, as fractions with a common
denominator: reals strictly between them round to the value. -/
def roundingInterval (x : Binary64) : (Nat × Nat) × Nat :=
  -- work in units of a quarter of the last bit: `x = 4 * mant` quarters
  let (p, q) := powTwo (x.exp - 2)
  let v := 4 * x.mant
  let lowGap := if x.mant = Nat.pow 2 52 ∧ x.exp > minExp then 1 else 2
  (((v - lowGap) * p, (v + 2) * p), q)

/-- Whether the fraction `n / d` rounds to the positive value `x`. -/
def readsBack (x : Binary64) (n d : Nat) : Bool :=
  let ((lo, hi), q) := roundingInterval x
  if x.mant % 2 = 0 then fracLe lo q n d && fracLe n d hi q
  else fracLt lo q n d && fracLt n d hi q

/-- Strip trailing zero digits, moving nothing: the point stays where it was. -/
def trimZeros (ds : List Nat) : List Nat :=
  (ds.reverse.dropWhile (· = 0)).reverse

/-- The candidate with `count` significant digits nearest below and above a positive value,
as `(digit value, exponent of its last digit)`. -/
def neighbours (x : Binary64) (count : Nat) : List (Nat × Int) :=
  let (n, d) := x.toFraction
  let k := floorLog10 n d - (count : Int) + 1
  let (p, q) := powTenFraction k
  -- `x / 10 ^ k = n * q / (d * p)`
  let lo := (n * q) / (d * p)
  [(lo, k), (lo + 1, k)]

/-- The distance between `x` and `m * 10 ^ k`, as a fraction with a positive denominator. -/
def distance (x : Binary64) (m : Nat) (k : Int) : Nat × Nat :=
  let (n, d) := x.toFraction
  let (p, q) := powTenFraction k
  -- `m * p / q` against `n / d`
  let a := m * p * d
  let b := n * q
  (if a ≤ b then b - a else a - b, q * d)

/-- The first digit count from `1` to `17` whose grid holds a decimal that reads back. -/
def shortestLoop (x : Binary64) : Nat → Nat → Option (Nat × Int)
  | 0, _ => none
  | fuel + 1, count =>
    let hits := (neighbours x count).filter fun (m, k) =>
      let (p, q) := powTenFraction k
      readsBack x (m * p) q
    match hits with
    | [] => shortestLoop x fuel (count + 1)
    | [h] => some h
    | h₁ :: h₂ :: _ =>
      let (a, b) := distance x h₁.1 h₁.2
      let (c, d) := distance x h₂.1 h₂.2
      if fracLe a b c d then some h₁ else some h₂

/-- The shortest decimal that reads back as the positive value `x`; for zero, the digit `0`. -/
def shortest (x : Binary64) : Decimal :=
  if x.mant = 0 then ⟨[0], 1⟩ else
  match shortestLoop x 17 1 with
  | some (m, k) =>
    let ds := digitsOf m
    ⟨trimZeros ds, (ds.length : Int) + k⟩
  | none =>
    -- seventeen digits always suffice; this branch is never taken
    let (n, d) := x.toFraction
    let ds := digitsOf (n / d)
    ⟨trimZeros ds, ds.length⟩

/-- How a decimal is laid out as text. -/
structure Layout where
  /-- Least exponent written positionally (exponent of the first digit). -/
  minPositional : Int
  /-- Greatest exponent written positionally. -/
  maxPositional : Int
  /-- Mark before the exponent. -/
  mark : String
  /-- Whether a non-negative exponent carries a `+`. -/
  plusSign : Bool

/-- JSON numbers: positional from `1e-5` to below `1e16`, `e+`/`e-` exponents otherwise. -/
def jsonLayout : Layout := ⟨-5, 15, "e", true⟩

/-- The text of a list of decimal digits. -/
def digitText (ds : List Nat) : String :=
  String.ofList (ds.map fun d => Char.ofNat ('0'.toNat + d))

/-- Lay out a decimal. -/
def Decimal.render (layout : Layout) (dec : Decimal) : String :=
  let ds := if dec.digits.isEmpty then [0] else dec.digits
  let x := dec.point - 1
  if layout.minPositional ≤ x ∧ x ≤ layout.maxPositional then
    if 0 ≤ x then
      let whole := dec.point.toNat
      let intPart := ds.take whole ++ List.replicate (whole - ds.length) 0
      let frac := ds.drop whole
      digitText intPart ++ "." ++ (if frac.isEmpty then "0" else digitText frac)
    else
      "0." ++ String.ofList (List.replicate (-dec.point).toNat '0') ++ digitText ds
  else
    let first := digitText (ds.take 1)
    let rest := ds.drop 1
    let mant := if rest.isEmpty then first else first ++ "." ++ digitText rest
    let sign := if x < 0 then "-" else if layout.plusSign then "+" else ""
    mant ++ layout.mark ++ sign ++ toString x.natAbs

/-- The text of a finite value in a given layout. -/
def renderWith (layout : Layout) (x : Binary64) : String :=
  (if x.neg then "-" else "") ++ (shortest { x with neg := false }).render layout

/-- The JSON text of a finite value. -/
def render (x : Binary64) : String := renderWith jsonLayout x

end Binary64

end Campaign
