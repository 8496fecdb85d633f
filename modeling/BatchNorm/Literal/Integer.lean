import BatchNorm.Failure
import BatchNorm.Text.Integer

/-!
# Literals as integers

Some settings take any literal that can be made an integer: a number drops its
fraction, and a text is read as digits.
-/

set_option autoImplicit false

namespace BatchNorm

namespace Literal

/-- The integer that a literal can be made. -/
def toInteger : Literal → Except Failure Int
  | .int value => .ok value
  | .bool value => .ok (if value then 1 else 0)
  | .float value =>
    match Exact.ofFloat value with
    | .notANumber => misuse .notANumber
    | .infinity _ => misuse .infiniteInteger
    | finite => .ok finite.truncate
  | .text value =>
    match Integer.ofText? value with
    | some n => .ok n
    | none => misuse .malformedNumber
  | _ => misuse .notConvertible

end Literal

end BatchNorm
