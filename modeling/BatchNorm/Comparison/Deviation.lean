import BatchNorm.Numeric.Exact

/-!
# Deviations

Two values are compared relative to the larger of their magnitudes, and in
absolute terms where that magnitude is below a floor. The definitions hold over
any ordered number type; a value that differs from itself is a NaN, and it is
never near to anything.

* `relativeDeviation a e floor` is `|a - e|` over the scale of the two.
* `nearlyEqual a e epsilon floor` holds if the deviation is at most `epsilon`.
-/

set_option autoImplicit false

namespace BatchNorm

section

variable {α : Type} [Sub α] [Div α] [Zero α] [One α] [LT α] [LE α] [BEq α]
  [DecidableLT α] [DecidableLE α]

/-- The absolute value. It subtracts from zero, so that a negative zero loses
its sign. -/
def magnitude (x : α) : α := if x ≤ 0 then 0 - x else x

/-- The larger of two numbers, or the one that is a NaN. -/
def larger (x y : α) : α :=
  if x == x then
    if y == y then if x < y then y else x else y
  else x

/-- What the deviation of two values is relative to: the larger magnitude, or
one if that is zero or below the floor. -/
def deviationScale (actual expected floor : α) : α :=
  let scale := larger (magnitude actual) (magnitude expected)
  if scale < floor ∨ scale == 0 then 1 else scale

/-- The distance of two values relative to their scale. -/
def relativeDeviation (actual expected floor : α) : α :=
  magnitude (actual - expected) / deviationScale actual expected floor

/-- Whether two values deviate by at most `epsilon`. -/
def nearlyEqual (actual expected epsilon floor : α) : Bool :=
  relativeDeviation actual expected floor ≤ epsilon

end

end BatchNorm
