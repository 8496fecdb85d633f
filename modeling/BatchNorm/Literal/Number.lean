import BatchNorm.Literal.Integer

/-!
# Literals as numbers

What a literal is as a binary64 number, as a truth value, and as an element of a
buffer.

* `Literal.toFloat` reads a number; the values that have no digits go by name.
* `ElementType.ofLiteral` reads an element of any type.
-/

set_option autoImplicit false

namespace BatchNorm

namespace Literal

/-- The numbers that go by a name. -/
def namedFloats : List (String × Float) :=
  [("nan", 0.0 / 0.0), ("inf", 1.0 / 0.0), ("-inf", -1.0 / 0.0), ("-0.0", -0.0)]

/-- The binary64 number that a literal is. A whole number is rounded, and it is too
large if that leaves the finite numbers. -/
def toFloat : Literal → Except Failure Float
  | .int value =>
    let rounded := (Exact.ofInt value).toFloat
    if rounded.isFinite then .ok rounded else misuse .integerTooLarge
  | .float value => .ok value
  | .bool value => .ok (if value then 1 else 0)
  | .text name =>
    match namedFloats.find? (·.1 = name) with
    | some (_, value) => .ok value
    | none => misuse .malformedNumber
  | _ => misuse .notConvertible

/-- Whether a literal counts as true: all but nothing, zero and what is empty. -/
def isTrue : Literal → Bool
  | .null => false
  | .bool value => value
  | .int value => value != 0
  | .float value => value != 0
  | .text value => !value.isEmpty
  | .list items => !items.isEmpty
  | .record fields => !fields.isEmpty

end Literal

/-- The element that a literal is in a buffer of a type. An integer type takes what
can be made an integer of its range. -/
def ElementType.ofLiteral : (type : ElementType) → Literal → Except Failure type.Carrier
  | .integer t, value => do
    let n ← value.toInteger
    if t.holds n then return t.ofInt n else misuse .integerTooLarge
  | .bool, value => .ok value.isTrue
  | .float32, value => do return narrow (← value.toFloat)
  | .float64, value => value.toFloat

end BatchNorm
