import BatchNorm.Failure
import BatchNorm.Numeric.PairwiseSum

/-!
# Normalization of one channel

The reference for the forward direction. It works on the values of one channel
and holds over any number type with the operations it names.

* `Statistics.ofValues` is the mean and the population variance of a channel.
* `normalize` is `(x - mean) / sqrt (variance + epsilon)`, followed by the scale
  and the shift where there are any.
-/

set_option autoImplicit false

namespace BatchNorm

structure Statistics (α : Type) where
  mean : α
  variance : α

structure Affine (α : Type) where
  scale : α
  shift : α

section

variable {α : Type} [Add α] [Sub α] [Mul α] [Div α] [Neg α] [Zero α] [NatCast α]

def average (xs : List α) : α := PairwiseSum.total xs / (xs.length : α)

/-- The mean squared distance of some values from a center. -/
def meanSquare (center : α) (xs : List α) : α :=
  PairwiseSum.total (xs.map fun x => (x - center) * (x - center)) / (xs.length : α)

/-- The mean and the population variance of some values. The variance is taken
about the finished mean. -/
def Statistics.ofValues (xs : List α) : Statistics α :=
  let center := average xs
  ⟨center, meanSquare center xs⟩

end

section

variable {α : Type} [Add α] [Sub α] [Mul α] [Div α] [One α] [SquareRoot α]

/-- One over the standard deviation, with `epsilon` added to the variance. -/
def inverseDeviation (variance epsilon : α) : α := 1 / SquareRoot.sqrt (variance + epsilon)

/-- A normalized value under the affine parameters. -/
def Affine.apply (affine : Option (Affine α)) (y : α) : α :=
  match affine with
  | none => y
  | some a => a.scale * y + a.shift

def normalize (xs : List α) (statistics : Statistics α) (epsilon : α)
    (affine : Option (Affine α)) : List α :=
  let inverse := inverseDeviation statistics.variance epsilon
  xs.map fun x => Affine.apply affine ((x - statistics.mean) * inverse)

/-- The normalized values of a channel when the scale and the shift are given
one by one. A shift without a scale is not looked at; a scale without a shift
fails at the first value. -/
def normalizeWith (xs : List α) (statistics : Statistics α) (epsilon : α)
    (scale shift : Option α) : Except Failure (List α) :=
  match scale, shift with
  | none, _ => .ok (normalize xs statistics epsilon none)
  | some scale, some shift => .ok (normalize xs statistics epsilon (some ⟨scale, shift⟩))
  | some _, none => if xs.isEmpty then .ok [] else misuse .scaleWithoutShift

end

end BatchNorm
