import BatchNorm.Proofs.Numeric.ExactSum
import BatchNorm.Proofs.Outcome
import BatchNorm.Reference.Gradient
import BatchNorm.Reference.Statistics
import Mathlib.Algebra.BigOperators.Field
import Mathlib.Algebra.BigOperators.Fin
import Mathlib.Tactic.Ring

/-!
# The reference in exact arithmetic

A channel of `n` values is a function on `Fin n`. Over a field the pairwise sums of the
reference are plain sums over `Fin n`, and each of its formulas becomes one about such
sums. The gradients of a channel exist: no step of theirs fails.
-/

set_option autoImplicit false

namespace BatchNorm

theorem zipWith_ofFn {α β γ : Type} {n : ℕ} (f : α → β → γ) (a : Fin n → α) (b : Fin n → β) :
    List.zipWith f (List.ofFn a) (List.ofFn b) = List.ofFn fun j => f (a j) (b j) := by
  refine List.ext_getElem (by simp) ?_
  intro j hj _
  simp

variable {K : Type} [Field K] {n : ℕ}

/-! ## Statistics -/

theorem total_ofFn (x : Fin n → K) : PairwiseSum.total (List.ofFn x) = ∑ j, x j := by
  rw [PairwiseSum.total_eq_sum, List.sum_ofFn]

theorem average_ofFn (x : Fin n → K) : average (List.ofFn x) = (∑ j, x j) / n := by
  rw [average, total_ofFn, List.length_ofFn]

theorem meanSquare_ofFn (center : K) (x : Fin n → K) :
    meanSquare center (List.ofFn x) = (∑ j, (x j - center) * (x j - center)) / n := by
  rw [meanSquare, List.map_ofFn, total_ofFn, List.length_ofFn]
  rfl

/-- The values of a channel cancel out around their average. -/
theorem sum_sub_average [CharZero K] (x : Fin n → K) : ∑ j, (x j - average (List.ofFn x)) = 0 := by
  rcases Nat.eq_zero_or_pos n with rfl | hn
  · rfl
  · have hn : (n : K) ≠ 0 := Nat.cast_ne_zero.mpr hn.ne'
    rw [Finset.sum_sub_distrib, Finset.sum_const, Finset.card_univ, Fintype.card_fin, nsmul_eq_mul,
      average_ofFn, mul_div_cancel₀ _ hn, sub_self]

/-! ## Gradients -/

theorem parameterGradients_ofFn (x g : Fin n → K) (mean inverse : K) :
    parameterGradients (List.ofFn x) (List.ofFn g) mean inverse =
      .ok ⟨inverse * ∑ j, (x j - mean) * g j, ∑ j, g j⟩ := by
  rw [parameterGradients, broadcast_of_length_eq _ (by simp), ok_bind, zipWith_ofFn, total_ofFn,
    total_ofFn]
  rfl

/-- Statistics that were supplied leave the gradient as it is, up to its factor. -/
theorem inputGradient_ofFn_supplied (x g : Fin n → K) (mean inverse : K)
    (parameters : ParameterGradients K) (gamma : K) :
    inputGradient (List.ofFn x) (List.ofFn g) mean inverse parameters gamma false =
      .ok (List.ofFn fun j => g j * (gamma * inverse)) := by
  simp only [inputGradient, Bool.false_eq_true, if_false, pure_eq_ok, ok_bind, List.map_ofFn]
  rfl

/-- Statistics that were computed correct the gradient at each value. -/
theorem inputGradient_ofFn_computed (hn : 0 < n) (x g : Fin n → K) (mean inverse : K)
    (parameters : ParameterGradients K) (gamma : K) :
    inputGradient (List.ofFn x) (List.ofFn g) mean inverse parameters gamma true =
      .ok (List.ofFn fun j =>
        (g j - correction n mean inverse parameters (x j)) * (gamma * inverse)) := by
  have hvalues : (List.ofFn x).isEmpty = false := by
    rw [List.isEmpty_eq_false_iff, ne_eq, List.ofFn_eq_nil_iff]
    exact hn.ne'
  simp only [inputGradient, hvalues, if_true, Bool.false_eq_true, if_false,
    broadcastInto_of_length_eq _ (List.length_ofFn.trans List.length_ofFn.symm), zipWith_ofFn,
    List.length_ofFn, ok_bind, pure_eq_ok, List.map_ofFn]
  rfl

/-- The corrected gradient as a form in two directions, which treats them alike: what one
has in common with the constants and with the deviations from the mean is taken out of
the other. -/
theorem sum_corrected_mul (x g v : Fin n → K) (mean inverse factor : K) :
    ∑ j, (g j - correction n mean inverse ⟨inverse * ∑ j, (x j - mean) * g j, ∑ j, g j⟩ (x j)) *
        (factor * inverse) * v j =
      factor * inverse * (∑ j, g j * v j - (∑ j, g j) * (∑ j, v j) / n -
        inverse ^ 2 * (∑ j, (x j - mean) * g j) * (∑ j, (x j - mean) * v j) / n) := by
  generalize hscale : ∑ j, (x j - mean) * g j = a
  generalize hshift : ∑ j, g j = b
  calc ∑ j, (g j - correction n mean inverse ⟨inverse * a, b⟩ (x j)) * (factor * inverse) * v j
      = ∑ j, (factor * inverse * (g j * v j) - factor * inverse * b / n * v j -
          factor * inverse * (inverse ^ 2 * a / n) * ((x j - mean) * v j)) := by
        refine Finset.sum_congr rfl fun j _ => ?_
        rw [correction]
        ring
    _ = _ := by
        rw [Finset.sum_sub_distrib, Finset.sum_sub_distrib, ← Finset.mul_sum, ← Finset.mul_sum,
          ← Finset.mul_sum]
        ring

end BatchNorm
