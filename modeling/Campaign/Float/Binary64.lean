/-! A finite IEEE 754 binary64 value is a sign and a magnitude `mant * 2 ^ exp`. The values here
are kept canonical: a normal value has `2 ^ 52 ≤ mant < 2 ^ 53`, a subnormal one has
`mant < 2 ^ 52` and the least exponent `-1074`, and zero is the subnormal with `mant = 0`.

Every operation is exact rational arithmetic on `Nat` followed by one rounding to the nearest
value, ties to the even mantissa (`Binary64.round`), so the results are those of the hardware
operations without using any floating point of the host.
-/

namespace Campaign

/-- A finite binary64 value `(-1) ^ neg * mant * 2 ^ exp`. -/
structure Binary64 where
  neg : Bool
  mant : Nat
  exp : Int
  deriving DecidableEq, Repr, Inhabited

namespace Binary64

/-- Number of mantissa bits, the hidden one included. -/
def precision : Nat := 53

/-- The least exponent of the mantissa's last bit (that of the subnormals). -/
def minExp : Int := -1074

/-- The greatest exponent of the mantissa's last bit. -/
def maxExp : Int := 971

/-- Positive zero. -/
def zero : Binary64 := ⟨false, 0, minExp⟩

/-- True for both zeros. -/
def isZero (x : Binary64) : Bool := x.mant == 0

/-- The value with its sign flipped. -/
def negate (x : Binary64) : Binary64 := { x with neg := !x.neg }

/-- `2 ^ k` scaled into a numerator and a denominator, for any integer `k`. -/
def powTwo (k : Int) : Nat × Nat :=
  if 0 ≤ k then (Nat.pow 2 k.toNat, 1) else (1, Nat.pow 2 (-k).toNat)

/-- The magnitude as the exact fraction `num / den`. -/
def toFraction (x : Binary64) : Nat × Nat :=
  let (p, q) := powTwo x.exp
  (x.mant * p, q)

/-- The greatest `t` with `2 ^ t ≤ num / den`, for positive `num` and `den`. -/
def floorLog2 (num den : Nat) : Int :=
  let t : Int := (Nat.log2 num : Int) - (Nat.log2 den : Int)
  let (p, q) := powTwo t
  -- `2 ^ t ≤ num / den` iff `den * p ≤ num * q`; otherwise the answer is one less.
  if den * p ≤ num * q then t else t - 1

/-- Round the positive fraction `num / den` to binary64, ties to even; `none` when the result
exceeds the largest finite value. A zero numerator gives zero. -/
def round (neg : Bool) (num den : Nat) : Option Binary64 :=
  if num = 0 ∨ den = 0 then some { zero with neg := neg } else
  let e : Int := max (floorLog2 num den - 52) minExp
  -- the exact scaled value `num / den / 2 ^ e` is `n / d`
  let (p, q) := powTwo e
  let n := num * q
  let d := den * p
  let m := n / d
  let r := n % d
  let up := 2 * r > d ∨ (2 * r = d ∧ m % 2 = 1)
  let m := if up then m + 1 else m
  let (m, e) := if m = Nat.pow 2 53 then (Nat.pow 2 52, e + 1) else (m, e)
  if e > maxExp then none else some ⟨neg, m, e⟩

/-- The binary64 value nearest to a natural number (`none` beyond the finite range). -/
def ofNat (n : Nat) : Option Binary64 := round false n 1

/-- Correctly rounded product. -/
def mul (x y : Binary64) : Option Binary64 :=
  let (a, b) := x.toFraction
  let (c, d) := y.toFraction
  round (x.neg != y.neg) (a * c) (b * d)

/-- Correctly rounded quotient; the divisor must not be zero. -/
def div (x y : Binary64) : Option Binary64 :=
  let (a, b) := x.toFraction
  let (c, d) := y.toFraction
  if c = 0 then none else round (x.neg != y.neg) (a * d) (b * c)

/-- The binary64 value nearest to `10 ^ k`. -/
def powTen (k : Nat) : Option Binary64 := ofNat (Nat.pow 10 k)

end Binary64

end Campaign
