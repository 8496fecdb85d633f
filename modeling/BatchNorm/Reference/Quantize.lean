import BatchNorm.Element
import BatchNorm.Failure

/-!
# Storing reference values

The reference computes in binary64; a primitive stores binary32 numbers or
signed bytes. A quantized value is saturated first and rounded then, so values
beyond the range stay at its ends and never wrap.

* `IntegerType.saturate` clamps to the range of an integer type.
* `ElementType.round` rounds to the nearest integer, ties to even.
* `Precision.store` is the element that stores a value.
-/

set_option autoImplicit false

namespace BatchNorm

/-- The nearest integer to an exact value, ties to even, with the sign of the
value where it is zero. A NaN and the infinities stay as they are. -/
def Exact.integral : Exact → Exact
  | .finite sign mantissa (.ofNat e) h =>
    .finite sign (mantissa * Nat.pow 2 e) 0 (Nat.mul_pos h (Nat.two_pow_pos e))
  | .finite sign mantissa (.negSucc e) _ =>
    if h : 0 < Exact.divideHalfEven mantissa (Nat.pow 2 (e + 1)) then .finite sign _ 0 h
    else .zero sign
  | other => other

namespace IntegerType

/-- A value clamped to the range of an integer type, whose ends are rounded to
binary32. A NaN, which no integer stands for, becomes zero. -/
def saturate (t : IntegerType) (x : Float32) : Float32 :=
  let least := (Exact.ofInt t.least).toSingle
  let greatest := (Exact.ofInt t.greatest).toSingle
  let x := if x == x then x else 0
  if x < least then least else if greatest < x then greatest else x

end IntegerType

namespace ElementType

/-- The integer type of an element type. -/
def integer? : ElementType → Except Failure IntegerType
  | integer type => .ok type
  | _ => misuse .notAnIntegerType

/-- The element that stores the nearest integer to a value, ties to even. -/
def round (t : ElementType) (x : Exact) : t.Carrier := t.ofExact x.integral

end ElementType

namespace Precision

/-- The element in which a primitive of this precision stores a value. -/
def store : (p : Precision) → Float → p.elementType.Carrier
  | f32, x => narrow x
  | s8, x => ElementType.round .int8 (Exact.ofSingle (IntegerType.saturate .int8 (narrow x)))

/-- The value that is stored, as a binary64 number. -/
def stored (p : Precision) (x : Float) : Float := p.elementType.toFloat (p.store x)

end Precision

end BatchNorm
