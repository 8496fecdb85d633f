import BatchNorm.Proofs.Reference.Derivative

/-!
# Moments of a channel

In exact arithmetic the two passes over a channel give its mean and its population
variance. The second pass takes the squares about the finished mean; about any other
center they come out larger (`meanSquare_ofFn_eq`), so the variance is also the mean of the
squares less the square of the mean, and it is zero for equal values only. The normalized
values have the mean zero, and their squares add up to the share that the variance has in
the variance with `epsilon` (`channel_moments`).
-/

set_option autoImplicit false

namespace BatchNorm

section

variable {K : Type} [Field K] {n : ℕ}

/-! ## The two passes -/

section

variable [CharZero K]

/-- The squares about a center, in terms of those about zero. -/
theorem meanSquare_ofFn_eq (hn : 0 < n) (x : Fin n → K) (center : K) :
    meanSquare center (List.ofFn x) = (∑ j, x j ^ 2) / n - average (List.ofFn x) ^ 2 +
      (average (List.ofFn x) - center) ^ 2 := by
  have hn : (n : K) ≠ 0 := Nat.cast_ne_zero.mpr hn.ne'
  have hsquares : ∑ j, (x j - center) * (x j - center) =
      ∑ j, x j ^ 2 - 2 * center * ∑ j, x j + n * center ^ 2 := by
    calc ∑ j, (x j - center) * (x j - center)
        = ∑ j, (x j ^ 2 - 2 * center * x j + center ^ 2) :=
          Finset.sum_congr rfl fun j _ => by ring
      _ = _ := by
          rw [Finset.sum_add_distrib, Finset.sum_sub_distrib, ← Finset.mul_sum, Finset.sum_const,
            Finset.card_univ, Fintype.card_fin, nsmul_eq_mul]
  rw [meanSquare_ofFn, average_ofFn, hsquares]
  field_simp
  ring

theorem average_of_forall_eq (hn : 0 < n) {x : Fin n → K} {a : K} (h : ∀ j, x j = a) :
    average (List.ofFn x) = a := by
  have hn : (n : K) ≠ 0 := Nat.cast_ne_zero.mpr hn.ne'
  rw [average_ofFn, Finset.sum_congr rfl fun j _ => h j, Finset.sum_const, Finset.card_univ,
    Fintype.card_fin, nsmul_eq_mul, mul_div_cancel_left₀ _ hn]

end

section

variable [LinearOrder K] [IsStrictOrderedRing K]

theorem meanSquare_nonneg (center : K) (x : Fin n → K) : 0 ≤ meanSquare center (List.ofFn x) := by
  rw [meanSquare_ofFn]
  exact div_nonneg (Finset.sum_nonneg fun j _ => mul_self_nonneg _) n.cast_nonneg

/-- The squares about a center are zero if all values are at the center. -/
theorem meanSquare_eq_zero_iff (hn : 0 < n) (center : K) (x : Fin n → K) :
    meanSquare center (List.ofFn x) = 0 ↔ ∀ j, x j = center := by
  have hn : (n : K) ≠ 0 := Nat.cast_ne_zero.mpr hn.ne'
  rw [meanSquare_ofFn, div_eq_zero_iff, or_iff_left hn, Finset.sum_mul_self_eq_zero_iff]
  simp only [Finset.mem_univ, forall_true_left, sub_eq_zero]

theorem variance_eq_zero_iff (hn : 0 < n) (x : Fin n → K) :
    meanSquare (average (List.ofFn x)) (List.ofFn x) = 0 ↔ ∀ i j, x i = x j := by
  rw [meanSquare_eq_zero_iff hn]
  constructor
  · intro h i j
    rw [h i, h j]
  · intro h j
    exact (average_of_forall_eq hn fun i => h i j).symm

end

/-! ## Normalized values -/

theorem normalize_ofFn [SquareRoot K] (x : Fin n → K) (statistics : Statistics K) (epsilon : K) :
    normalize (List.ofFn x) statistics epsilon none = List.ofFn fun j =>
      (x j - statistics.mean) * inverseDeviation statistics.variance epsilon := by
  rw [normalize, List.map_ofFn]
  rfl

theorem sum_normalized [CharZero K] (x : Fin n → K) (inverse : K) :
    ∑ j, (x j - average (List.ofFn x)) * inverse = 0 := by
  rw [← Finset.sum_mul, sum_sub_average, zero_mul]

theorem sum_sq_normalized [CharZero K] (hn : 0 < n) (x : Fin n → K) (center inverse : K) :
    ∑ j, ((x j - center) * inverse) ^ 2 =
      n * meanSquare center (List.ofFn x) * inverse ^ 2 := by
  have hn : (n : K) ≠ 0 := Nat.cast_ne_zero.mpr hn.ne'
  rw [meanSquare_ofFn, mul_div_cancel₀ _ hn, Finset.sum_mul]
  exact Finset.sum_congr rfl fun j _ => by ring

/-! ## Both together -/

/-- **Moments.** Over an ordered field, the pairwise recursion ends for every list and with
nothing but its sum. For a channel with values, the statistics are the mean and the
population variance; the variance is the mean of the squares less the square of the mean,
it is not negative, and it is zero exactly if all values are equal. Where one over the
standard deviation is what its name says, the normalized values add up to zero and their
squares to the number of values times the variance over the variance with `epsilon`. -/
theorem channel_moments [LinearOrder K] [IsStrictOrderedRing K] [SquareRoot K] (xs : List K)
    (hnonempty : xs ≠ []) :
    (∀ (ys : List K) (r : K), PairwiseSum.Computes ys r ↔ r = ys.sum) ∧
    let s := Statistics.ofValues xs
    let count : K := xs.length
    s.mean = xs.sum / count ∧
    s.variance = (xs.map fun x => (x - s.mean) ^ 2).sum / count ∧
    s.variance = (xs.map fun x => x ^ 2).sum / count - s.mean ^ 2 ∧
    0 ≤ s.variance ∧
    (s.variance = 0 ↔ ∀ x ∈ xs, ∀ y ∈ xs, x = y) ∧
    ∀ epsilon, 0 < s.variance + epsilon →
      let inverse := inverseDeviation s.variance epsilon
      0 < inverse → inverse ^ 2 * (s.variance + epsilon) = 1 →
        let out := normalize xs s epsilon none
        out.sum = 0 ∧
          (out.map fun y => y ^ 2).sum = count * s.variance / (s.variance + epsilon) := by
  -- the values are a function on their indices
  obtain ⟨n, x, rfl⟩ : ∃ (n : ℕ) (x : Fin n → K), xs = List.ofFn x :=
    ⟨_, xs.get, (List.ofFn_get xs).symm⟩
  have hn : 0 < n := by
    rw [ne_eq, List.ofFn_eq_nil_iff] at hnonempty
    exact Nat.pos_of_ne_zero hnonempty
  refine ⟨fun ys r => ?_, ?_⟩
  · rw [PairwiseSum.computes_iff, PairwiseSum.sum_eq_sum]
  intro s count
  have hcount : count = n := congrArg Nat.cast List.length_ofFn
  have hvariance : s.variance = meanSquare (average (List.ofFn x)) (List.ofFn x) := rfl
  have hmean : s.mean = average (List.ofFn x) := rfl
  simp only [hcount, hvariance, hmean, List.map_ofFn, List.sum_ofFn, List.forall_mem_ofFn_iff,
    Function.comp_apply]
  refine ⟨average_ofFn x, ?_, ?_, meanSquare_nonneg _ x, variance_eq_zero_iff hn x, ?_⟩
  · rw [meanSquare_ofFn]
    simp only [pow_two]
  · rw [meanSquare_ofFn_eq hn, sub_self]
    ring
  · intro epsilon hpos _ hinverse
    rw [normalize_ofFn, List.map_ofFn, List.sum_ofFn, List.sum_ofFn, eq_div_iff hpos.ne', hmean,
      hvariance]
    refine ⟨sum_normalized x _, ?_⟩
    simp only [Function.comp_apply]
    rw [sum_sq_normalized hn, mul_assoc, hinverse, mul_one]

end

/-- In real arithmetic, one over the standard deviation is what its name says. -/
theorem inverseDeviation_spec {variance epsilon : ℝ} (h : 0 < variance + epsilon) :
    0 < inverseDeviation variance epsilon ∧
      inverseDeviation variance epsilon ^ 2 * (variance + epsilon) = 1 := by
  have hroot : 0 < √(variance + epsilon) := Real.sqrt_pos.mpr h
  refine ⟨one_div_pos.mpr hroot, ?_⟩
  show (1 / √(variance + epsilon)) ^ 2 * (variance + epsilon) = 1
  rw [div_pow, Real.sq_sqrt h.le, one_pow, one_div, inv_mul_cancel₀ h.ne']

theorem channel_moments_threeValues :
    let s := Statistics.ofValues [0, 1, (5 : ℝ)]
    let out := normalize [0, 1, 5] s 2 none
    0 < s.variance + 2 ∧ out.sum = 0 ∧
      (out.map fun y => y ^ 2).sum = 3 * s.variance / (s.variance + 2) := by
  intro s out
  obtain ⟨_, _, _, _, hnonneg, _, hout⟩ := channel_moments [0, 1, (5 : ℝ)] (by simp)
  have hpos : 0 < s.variance + 2 := by
    have hnonneg : 0 ≤ s.variance := hnonneg
    linarith
  obtain ⟨hinverse, hsquare⟩ := inverseDeviation_spec hpos
  have hmoments := hout 2 hpos hinverse hsquare
  exact ⟨hpos, hmoments.1, by simpa using hmoments.2⟩

end BatchNorm
