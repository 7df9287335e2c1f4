/-! A duration is a whole number of nanoseconds. Its text takes the largest unit among seconds,
milliseconds, microseconds and nanoseconds that leaves a whole part of at least one, and
writes the rest as a decimal fraction without trailing zeros: `0ns`, `1ms`, `1.5s`, `3600s`.
-/

namespace Campaign

/-- A span of time in nanoseconds. -/
structure Duration where
  nanos : Nat
  deriving DecidableEq, Repr, Inhabited

namespace Duration

/-- Nanoseconds in a second. -/
def nanosPerSec : Nat := 1000000000

/-- Nanoseconds in a millisecond. -/
def nanosPerMilli : Nat := 1000000

/-- Nanoseconds in a microsecond. -/
def nanosPerMicro : Nat := 1000

/-- A whole number of seconds. -/
def ofSecs (s : Nat) : Duration := ⟨s * nanosPerSec⟩

/-- A whole number of milliseconds. -/
def ofMillis (ms : Nat) : Duration := ⟨ms * nanosPerMilli⟩

/-- The digits of `frac / (10 * unit)` onwards: one digit per place while a remainder is
left. -/
def fractionDigits (frac unit : Nat) : Nat → List Char
  | 0 => []
  | fuel + 1 =>
    if frac = 0 || unit = 0 then []
    else
      Char.ofNat ('0'.toNat + frac / unit) :: fractionDigits (frac % unit) (unit / 10) fuel

/-- A whole part, then the fraction `frac / (10 * unit)` when it is not zero, then the unit. -/
def decimal (whole frac unit : Nat) (suffix : String) : String :=
  let digits := fractionDigits frac unit 9
  toString whole ++ (if digits.isEmpty then "" else "." ++ String.ofList digits) ++ suffix

/-- The text of a duration. -/
def render (d : Duration) : String :=
  let secs := d.nanos / nanosPerSec
  let sub := d.nanos % nanosPerSec
  if secs > 0 then decimal secs sub (nanosPerSec / 10) "s"
  else if sub ≥ nanosPerMilli then
    decimal (sub / nanosPerMilli) (sub % nanosPerMilli) (nanosPerMilli / 10) "ms"
  else if sub ≥ nanosPerMicro then
    decimal (sub / nanosPerMicro) (sub % nanosPerMicro) (nanosPerMicro / 10) "µs"
  else decimal sub 0 1 "ns"

end Duration

end Campaign
