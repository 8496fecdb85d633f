import BatchNorm.Comparison.Broadcast
import BatchNorm.Numeric.PairwiseSum

/-!
# Gradients of one channel

The reference for the backward direction: from the values of a channel, the
gradient with respect to its normalized output, and the statistics that the
forward direction used.

* `parameterGradients` are the gradients with respect to scale and shift.
* `inputGradient` is the gradient with respect to the values. Statistics that
  were computed from the values depend on them as well, which adds a
  correction.
-/

set_option autoImplicit false

namespace BatchNorm

structure ParameterGradients (α : Type) where
  diffScale : α
  diffShift : α

section

variable {α : Type} [Add α] [Sub α] [Mul α] [Neg α] [Zero α]

/-- The gradients with respect to scale and shift. -/
def parameterGradients (xs grads : List α) (mean inverse : α) :
    Except Failure (ParameterGradients α) := do
  let products ← broadcast (fun x g => (x - mean) * g) xs grads
  return ⟨inverse * PairwiseSum.total products, PairwiseSum.total grads⟩

end

section

variable {α : Type} [Add α] [Sub α] [Mul α] [Div α] [NatCast α]

/-- What the statistics of `count` values add to the gradient at a value `x`. -/
def correction (count : Nat) (mean inverse : α) (parameters : ParameterGradients α) (x : α) : α :=
  parameters.diffShift / (count : α) +
    (x - mean) * parameters.diffScale * inverse / (count : α)

/-- The gradient with respect to the values of a channel. It is corrected when
the statistics were computed from the values; that needs at least one value. -/
def inputGradient (xs grads : List α) (mean inverse : α) (parameters : ParameterGradients α)
    (gamma : α) (computed : Bool) : Except Failure (List α) := do
  let corrected ←
    if computed then
      if xs.isEmpty then misuse .divisionByZero
      else broadcastInto (fun g x => g - correction xs.length mean inverse parameters x) grads xs
    else pure grads
  return corrected.map (· * (gamma * inverse))

end

end BatchNorm
