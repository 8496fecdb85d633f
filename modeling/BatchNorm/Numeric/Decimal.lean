import BatchNorm.Numeric.Exact

/-!
# Decimal digits of a binary number

A positive number is given as a quotient `a / b` of natural numbers, and its
decimal forms are found on the grids `10 ^ e`, in exact arithmetic.

* `Decimal.ofQuotient` keeps a given count of significant digits, rounded to
  nearest, ties to even.
* `Decimal.shortest` is the shortest decimal which rounds back to a given
  binary64 number, and the nearest of those.
-/

set_option autoImplicit false

namespace BatchNorm

/-- The decimal number `digits * 10 ^ exponent`. -/
structure Decimal where
  /-- The digits, read as one natural number. -/
  digits : Nat
  /-- The power of ten that the last digit counts. -/
  exponent : Int
deriving DecidableEq, Repr

/-- How many decimal digits a natural number has; zero has none. -/
def decimalLength (n : Nat) : Nat :=
  if n = 0 then 0 else decimalLength (n / 10) + 1
termination_by n
decreasing_by omega

namespace Decimal

/-- The power of ten which the first digit of `a / b` counts: the `k` with
`10 ^ k ≤ a / b < 10 ^ (k + 1)`. -/
def leadingExponent (a b : Nat) : Int :=
  if b ≤ a then (decimalLength (a / b) : Int) - 1
  else -(decimalLength ((b + a - 1) / a - 1) : Int)

/-- The factors `(u, v)` that bring `a / b * 10 ^ shift` to `(a * u) / (b * v)`. -/
def scaling : Int → Nat × Nat
  | .ofNat n => (Nat.pow 10 n, 1)
  | .negSucc n => (1, Nat.pow 10 (n + 1))

/-- The positive number `a / b` with `places` significant digits, rounded to
nearest, ties to even. -/
def ofQuotient (places a b : Nat) : Decimal :=
  let shift := (places : Int) - 1 - leadingExponent a b
  let (u, v) := scaling shift
  ⟨Exact.divideHalfEven (a * u) (b * v), -shift⟩

/-- The numbers which round to one binary64 number, as quotients over a common
divisor: `low / divisor` to `high / divisor` with the number itself between. -/
structure Neighbourhood where
  low : Nat
  value : Nat
  high : Nat
  divisor : Nat
  /-- Whether the two ends round to the number as well. -/
  closed : Bool

/-- The neighbourhood of `mantissa * 2 ^ exponent`. It reaches half a unit of
the last place to both sides, and a quarter below the least mantissa of a
binade. The ends tie, so they belong to an even mantissa. -/
def Neighbourhood.ofMantissa (mantissa : Nat) (exponent : Int) : Neighbourhood :=
  let (u, v) := match exponent - 2 with
    | .ofNat n => (Nat.pow 2 n, 1)
    | .negSucc n => (1, Nat.pow 2 (n + 1))
  let below := if mantissa = Nat.pow 2 52 ∧ -1074 < exponent then 1 else 2
  { low := (4 * mantissa - below) * u
    value := 4 * mantissa * u
    high := (4 * mantissa + 2) * u
    divisor := v
    closed := mantissa % 2 = 0 }

/-- The decimal with `places` significant digits which lies in the
neighbourhood, the one nearer to the number if its two neighbours on that grid
both do, and the even one of two equally near. -/
def Neighbourhood.onGrid (n : Neighbourhood) (places : Nat) : Option Decimal :=
  let shift := (places : Int) - 1 - leadingExponent n.value n.divisor
  let (u, v) := scaling shift
  let divisor := n.divisor * v
  let lower := n.value * u / divisor
  let inside (digits : Nat) : Bool :=
    if n.closed then n.low * u ≤ digits * divisor ∧ digits * divisor ≤ n.high * u
    else n.low * u < digits * divisor ∧ digits * divisor < n.high * u
  match inside lower, inside (lower + 1) with
  | true, true => some ⟨Exact.divideHalfEven (n.value * u) divisor, -shift⟩
  | true, false => some ⟨lower, -shift⟩
  | false, true => some ⟨lower + 1, -shift⟩
  | false, false => none

/-- The shortest decimal which rounds back to `mantissa * 2 ^ exponent`.
Seventeen digits always do. -/
def shortest (mantissa : Nat) (exponent : Int) : Decimal :=
  let n := Neighbourhood.ofMantissa mantissa exponent
  match (List.range 16).findSome? fun i => n.onGrid (i + 1) with
  | some d => d
  | none => ofQuotient 17 n.value n.divisor

/-- The same number without zeros at the end of its digits. -/
def trim (d : Decimal) : Decimal :=
  if h : 0 < d.digits ∧ d.digits % 10 = 0 then
    have : d.digits / 10 < d.digits := by omega
    trim ⟨d.digits / 10, d.exponent + 1⟩
  else d
termination_by d.digits

end Decimal

end BatchNorm
