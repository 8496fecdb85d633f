import BatchNorm.Proofs.Reference.ExactChannel
import Mathlib.Algebra.Module.LinearMap.Defs
import Mathlib.Algebra.Module.Pi
import Mathlib.Data.Matrix.Mul

/-!
# The backward direction as a linear map

In exact arithmetic, the gradient with respect to the input of a channel is a linear
function of the gradient with respect to its normalized output, whatever the mean, the
factor and one over the standard deviation are that the backward direction was given. It
is self-adjoint: each direction sees as much of the other (`dotProduct_inputMap_comm`).

With the mean of the values itself, the correction takes out of the gradient what it has in
common with the constants (`sum_inputMap_computed`). Of its share in the deviations from the
mean, only what `epsilon` adds to the variance is left (`dotProduct_inputMap_computed`).
-/

set_option autoImplicit false

namespace BatchNorm

variable {K : Type} [Field K] {n : ℕ}

/-- What `parameterGradients` gives for the gradient `u` of a channel. -/
def parametersOf (x : Fin n → K) (mean inverse : K) (u : Fin n → K) : ParameterGradients K :=
  ⟨inverse * ∑ j, (x j - mean) * u j, ∑ j, u j⟩

theorem parametersOf_add (x : Fin n → K) (mean inverse : K) (u v : Fin n → K) :
    parametersOf x mean inverse (u + v) =
      ⟨(parametersOf x mean inverse u).diffScale + (parametersOf x mean inverse v).diffScale,
        (parametersOf x mean inverse u).diffShift + (parametersOf x mean inverse v).diffShift⟩ := by
  simp only [parametersOf, Pi.add_apply, mul_add, Finset.sum_add_distrib]

theorem parametersOf_smul (x : Fin n → K) (mean inverse a : K) (u : Fin n → K) :
    parametersOf x mean inverse (a • u) =
      ⟨a * (parametersOf x mean inverse u).diffScale,
        a * (parametersOf x mean inverse u).diffShift⟩ := by
  simp only [parametersOf, Pi.smul_apply, smul_eq_mul, Finset.mul_sum, mul_left_comm _ a]

/-- The gradient with respect to the input as a function of the one with respect to the
normalized output: the parameter gradients of the latter go into its correction. -/
def inputMap (x : Fin n → K) (mean inverse gamma : K) (computed : Bool) :
    (Fin n → K) →ₗ[K] (Fin n → K) where
  toFun u j :=
    (u j - if computed then correction n mean inverse (parametersOf x mean inverse u) (x j) else 0) *
      (gamma * inverse)
  map_add' u v := by
    funext j
    simp only [parametersOf_add, correction, Pi.add_apply]
    split_ifs <;> ring
  map_smul' a u := by
    funext j
    simp only [parametersOf_smul, correction, Pi.smul_apply, smul_eq_mul, RingHom.id_apply]
    split_ifs <;> ring

section

variable (x u v : Fin n → K) (mean inverse gamma : K)

theorem inputMap_supplied :
    inputMap x mean inverse gamma false u = fun j => u j * (gamma * inverse) := by
  funext j
  exact congrArg (· * (gamma * inverse)) (sub_zero (u j))

/-- Both steps of the backward direction together are the map. -/
theorem gradients_eq_inputMap (hn : 0 < n) (computed : Bool) :
    parameterGradients (List.ofFn x) (List.ofFn u) mean inverse =
        .ok (parametersOf x mean inverse u) ∧
      inputGradient (List.ofFn x) (List.ofFn u) mean inverse (parametersOf x mean inverse u) gamma
        computed = .ok (List.ofFn (inputMap x mean inverse gamma computed u)) := by
  refine ⟨parameterGradients_ofFn x u mean inverse, ?_⟩
  cases computed with
  | false => rw [inputGradient_ofFn_supplied, inputMap_supplied]
  | true => rw [inputGradient_ofFn_computed hn]; rfl

/-- The map as a form in two directions. -/
theorem inputMap_computed_dotProduct :
    inputMap x mean inverse gamma true u ⬝ᵥ v =
      gamma * inverse * (∑ j, u j * v j - (∑ j, u j) * (∑ j, v j) / n -
        inverse ^ 2 * (∑ j, (x j - mean) * u j) * (∑ j, (x j - mean) * v j) / n) :=
  sum_corrected_mul x u v mean inverse gamma

/-- **Self-adjoint.** -/
theorem dotProduct_inputMap_comm (computed : Bool) :
    inputMap x mean inverse gamma computed u ⬝ᵥ v =
      u ⬝ᵥ inputMap x mean inverse gamma computed v := by
  cases computed with
  | false =>
      rw [inputMap_supplied, inputMap_supplied]
      exact Finset.sum_congr rfl fun j _ => by ring
  | true =>
      have hproducts : ∑ j, u j * v j = ∑ j, v j * u j :=
        Finset.sum_congr rfl fun j _ => mul_comm _ _
      rw [dotProduct_comm u, inputMap_computed_dotProduct, inputMap_computed_dotProduct, hproducts]
      ring

end

/-! ## The mean of the values -/

section

variable [CharZero K] (hn : 0 < n) (x u : Fin n → K) (inverse gamma : K)

include hn

/-- With the mean of the values, the gradient with respect to the input cancels out. -/
theorem sum_inputMap_computed :
    ∑ j, inputMap x (average (List.ofFn x)) inverse gamma true u j = 0 := by
  have hn : (n : K) ≠ 0 := Nat.cast_ne_zero.mpr hn.ne'
  have hones : ∑ j, inputMap x (average (List.ofFn x)) inverse gamma true u j =
      inputMap x (average (List.ofFn x)) inverse gamma true u ⬝ᵥ fun _ => 1 :=
    Finset.sum_congr rfl fun j _ => (mul_one _).symm
  have hcount : ∑ _j : Fin n, (1 : K) = n := by
    rw [Finset.sum_const, Finset.card_univ, Fintype.card_fin, nsmul_eq_mul, mul_one]
  rw [hones, inputMap_computed_dotProduct]
  simp only [mul_one, sum_sub_average, mul_zero, hcount, mul_div_cancel_right₀ _ hn, sub_self,
    zero_div]

/-- In the direction of the deviations, the correction leaves what the square of `inverse`
lacks to one over the variance. -/
theorem dotProduct_inputMap_computed :
    ∑ j, (x j - average (List.ofFn x)) *
        inputMap x (average (List.ofFn x)) inverse gamma true u j =
      gamma * (1 - inverse ^ 2 * meanSquare (average (List.ofFn x)) (List.ofFn x)) *
        (parametersOf x (average (List.ofFn x)) inverse u).diffScale := by
  have hn : (n : K) ≠ 0 := Nat.cast_ne_zero.mpr hn.ne'
  have hdeviations : ∑ j, (x j - average (List.ofFn x)) *
        inputMap x (average (List.ofFn x)) inverse gamma true u j =
      inputMap x (average (List.ofFn x)) inverse gamma true u ⬝ᵥ
        fun j => x j - average (List.ofFn x) :=
    Finset.sum_congr rfl fun j _ => mul_comm _ _
  have hscale : ∑ j, u j * (x j - average (List.ofFn x)) =
      ∑ j, (x j - average (List.ofFn x)) * u j :=
    Finset.sum_congr rfl fun j _ => mul_comm _ _
  rw [hdeviations, inputMap_computed_dotProduct, sum_sub_average, hscale, meanSquare_ofFn,
    parametersOf]
  ring

end

/-! ## Both together -/

/-- **The backward direction is self-adjoint.** Take a channel with values and any mean, any
inverse deviation and any factor. The gradient with respect to the input, computed with the
parameter gradients, is a linear function of the gradient with respect to the normalized
output, and it is self-adjoint. If the statistics were computed and the mean is that of the
values, it adds up to zero; if the inverse deviation is that of the values as well, its
product with the deviations is what `epsilon` leaves of the gradient with respect to the
scale. -/
theorem input_gradient_selfAdjoint [CharZero K] (xs : List K) (hnonempty : xs ≠ [])
    (mean inverse gamma : K) (computed : Bool) :
    ∃ B : (Fin xs.length → K) →ₗ[K] (Fin xs.length → K),
      (∀ u v, ∑ i, B u i * v i = ∑ i, u i * B v i) ∧
      ∀ u, ∃ parameters,
        parameterGradients xs (List.ofFn u) mean inverse = .ok parameters ∧
        inputGradient xs (List.ofFn u) mean inverse parameters gamma computed =
          .ok (List.ofFn (B u)) ∧
        (computed = true → mean = xs.sum / xs.length →
          ∑ i, B u i = 0 ∧
          ∀ epsilon, inverse ^ 2 * ((xs.map fun x => (x - mean) ^ 2).sum / xs.length + epsilon) = 1 →
            ∑ i, (xs[i] - mean) * B u i = gamma * epsilon * inverse ^ 2 * parameters.diffScale) := by
  have hn : 0 < xs.length := List.length_pos_iff.mpr hnonempty
  have hvalues : List.ofFn xs.get = xs := List.ofFn_get xs
  refine ⟨inputMap xs.get mean inverse gamma computed,
    fun u v => dotProduct_inputMap_comm xs.get u v mean inverse gamma computed, fun u => ?_⟩
  obtain ⟨hparameters, hgradient⟩ := gradients_eq_inputMap xs.get u mean inverse gamma hn computed
  rw [hvalues] at hparameters hgradient
  refine ⟨_, hparameters, hgradient, ?_⟩
  rintro rfl hmean
  have haverage : average (List.ofFn xs.get) = mean := by
    rw [hmean, hvalues, average, PairwiseSum.total_eq_sum]
  have hsum := sum_inputMap_computed hn xs.get u inverse gamma
  have hproduct := dotProduct_inputMap_computed hn xs.get u inverse gamma
  rw [haverage] at hsum hproduct
  refine ⟨hsum, fun epsilon hinverse => hproduct.trans ?_⟩
  have hvariance : meanSquare mean (List.ofFn xs.get) =
      (xs.map fun x => (x - mean) ^ 2).sum / xs.length := by
    rw [hvalues, meanSquare, PairwiseSum.total_eq_sum]
    simp only [pow_two]
  have hepsilon : 1 - inverse ^ 2 * meanSquare mean (List.ofFn xs.get) = epsilon * inverse ^ 2 := by
    rw [hvariance, ← hinverse]
    ring
  rw [hepsilon, mul_assoc gamma epsilon]

theorem input_gradient_selfAdjoint_threeValues :
    [0, 1, (5 : ℚ)] ≠ [] ∧ ∃ B : (Fin 3 → ℚ) →ₗ[ℚ] (Fin 3 → ℚ),
      (∀ u v, ∑ i, B u i * v i = ∑ i, u i * B v i) ∧
      ∀ u, ∃ parameters,
        parameterGradients [0, 1, 5] (List.ofFn u) 2 (1 / 3) = .ok parameters ∧
        inputGradient [0, 1, 5] (List.ofFn u) 2 (1 / 3) parameters 7 true =
          .ok (List.ofFn (B u)) ∧
        ∑ i, B u i = 0 ∧
        ∑ i, ([0, 1, (5 : ℚ)][i] - 2) * B u i =
          7 * (13 / 3) * (1 / 3) ^ 2 * parameters.diffScale := by
  have hnonempty : [0, 1, (5 : ℚ)] ≠ [] := List.cons_ne_nil _ _
  obtain ⟨B, hsymmetric, hgradients⟩ :=
    input_gradient_selfAdjoint [0, 1, (5 : ℚ)] hnonempty 2 (1 / 3) 7 true
  refine ⟨hnonempty, B, hsymmetric, fun u => ?_⟩
  obtain ⟨parameters, hparameters, hgradient, hcomputed⟩ := hgradients u
  obtain ⟨hsum, hproduct⟩ := hcomputed rfl (by norm_num)
  exact ⟨parameters, hparameters, hgradient, hsum, hproduct (13 / 3) (by norm_num)⟩

end BatchNorm
