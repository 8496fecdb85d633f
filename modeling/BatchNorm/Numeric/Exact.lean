/-!
# Exact values of floating point numbers

A floating point number is a NaN, an infinity, a signed zero or `± m * 2 ^ e`.
`Exact` is that view of a number. Every conversion between number types goes
through it once: from the source type to the exact value, and from the exact
value, by one rounding, to the target type.

* `Exact.toFloat` and `Exact.toSingle` round to the nearest number of the
  format, ties to the even mantissa, and overflow to an infinity.
* `Exact.truncate` drops the fraction.
* `Exact.roundHalfEven` rounds to the nearest integer, ties to even.
-/

set_option autoImplicit false

namespace BatchNorm

/-- The exact value of a floating point number: a NaN, a signed infinity, a
signed zero, or a sign with a positive mantissa and a power of two. -/
abbrev Exact := Float.Model.UnpackedFloat

namespace Exact

open Float.Model Float.Model.UnpackedFloat

/-- The exact value of a binary64 number. -/
def ofFloat (x : Float) : Exact := x.toModel.unpack

def ofSingle (x : Float32) : Exact := x.toModel.unpack

/-- The exact value of an integer; zero is the positive zero. -/
def ofInt : Int → Exact
  | .ofNat 0 => .zero .positive
  | .ofNat (n + 1) => .finite .positive (n + 1) 0 (Nat.succ_pos n)
  | .negSucc n => .finite .negative (n + 1) 0 (Nat.succ_pos n)

/-- The exact value in the given format: rounded to nearest, ties to even, when
it is a finite number other than zero. -/
def roundTo (format : Format) : Exact → Exact
  | .finite sign mantissa exponent _ => UnpackedFloat.round format sign mantissa exponent
  | other => other

/-- The nearest binary64 number, ties to even. -/
def toFloat (x : Exact) : Float := .ofModel (.pack (x.roundTo .binary64))

/-- The nearest binary32 number, ties to even. -/
def toSingle (x : Exact) : Float32 := .ofModel (.pack (x.roundTo .binary32))

/-- The integer with the given sign and magnitude. -/
def signed (sign : Sign) (magnitude : Nat) : Int :=
  match sign with
  | .positive => magnitude
  | .negative => -magnitude

/-- The quotient `a / b` rounded to the nearest integer, ties to even. -/
def divideHalfEven (a b : Nat) : Nat :=
  let quotient := a / b
  let twice := 2 * (a % b)
  if twice < b then quotient
  else if b < twice then quotient + 1
  else quotient + quotient % 2

/-- The integer part, fractions dropped. A NaN and the infinities have none;
they give zero. -/
def truncate : Exact → Int
  | .finite sign mantissa (.ofNat e) _ => signed sign (mantissa * Nat.pow 2 e)
  | .finite sign mantissa (.negSucc e) _ => signed sign (mantissa / Nat.pow 2 (e + 1))
  | _ => 0

/-- The nearest integer, ties to even. A NaN and the infinities have none; they
give zero. -/
def roundHalfEven : Exact → Int
  | .finite sign mantissa (.ofNat e) _ => signed sign (mantissa * Nat.pow 2 e)
  | .finite sign mantissa (.negSucc e) _ => signed sign (divideHalfEven mantissa (Nat.pow 2 (e + 1)))
  | _ => 0

/-- Whether the value is zero, of either sign. -/
def isZero : Exact → Bool
  | .zero _ => true
  | _ => false

end Exact

/-- A binary32 number as a binary64 number. Nothing is lost. -/
def widen (x : Float32) : Float := (Exact.ofSingle x).toFloat

/-- The nearest binary32 number to a binary64 number, ties to even; a value
beyond the binary32 range becomes an infinity. -/
def narrow (x : Float) : Float32 := (Exact.ofFloat x).toSingle

/-- Natural numbers as binary64 numbers, rounded to nearest. -/
instance instNatCastFloat : NatCast Float := ⟨Float.ofNat⟩

/-- Number types with a square root. -/
class SquareRoot (α : Type) where
  sqrt : α → α

instance : SquareRoot Float := ⟨Float.sqrt⟩

end BatchNorm
