import BatchNorm.Proofs.Numeric.RoundedSum
import BatchNorm.Reference.Statistics

/-!
# Channels of binary32 numbers

The reference computes in binary64 what is given in binary32, and the range is wide enough:
neither the sums of a channel that a memory holds nor the squares of its deviations overflow
(`within_average`, `meanSquare_bounds`). The squares do not underflow either. So the variance
is positive if two values differ (`two_pow_le_variance`). If all are the same it is zero, as
long as their sum is exact (`valueOf_variance_of_const`).

One over the root of a positive number is a number (`inverseDeviation_of_pos`), while one over
the root of zero is an infinity, and zero times it is none (`isNaN_mul_inverseDeviation`).
-/

set_option autoImplicit false

namespace BatchNorm

open Exact
open Float.Model (Format UnpackedFloat)

/-! ## Statistics -/

section

variable {xs : List Float} {center x : Float}

theorem within_average (hxs : ∀ x ∈ xs, IsSingle x) (hpos : 0 < xs.length)
    (hlt : xs.length < 2 ^ 64) : Within (ofFloat (average xs)) (2 ^ (212 : Int)) := by
  have htotal : Within (ofFloat (PairwiseSum.total xs)) (2 ^ (128 + 84 : Int)) :=
    (PairwiseSum.addedUp_total hlt).within (by decide) (by decide) fun x hx => (hxs x hx).within
  exact within_div_count hpos hlt htotal (by decide) (by decide)

theorem within_deviation (hx : IsSingle x) (hcenter : Within (ofFloat center) (2 ^ (212 : Int))) :
    Within (ofFloat (x - center)) (2 ^ (213 : Int)) := by
  refine (Float.rounds_sub hx.isFinite hcenter.isFinite).within_two_pow (by decide) (by decide) ?_
  calc |valueOf x - valueOf center| ≤ |valueOf x| + |valueOf center| := abs_sub _ _
    _ ≤ 2 ^ (128 : Int) + 2 ^ (212 : Int) := add_le_add hx.within.abs_le hcenter.abs_le
    _ ≤ 2 ^ (213 : Int) := by norm_num

/-- The square of a deviation neither overflows nor underflows. -/
theorem square_bounds (hx : Within (ofFloat x) (2 ^ (213 : Int))) :
    Within (ofFloat (x * x)) (2 ^ (426 : Int)) ∧ 0 ≤ valueOf (x * x) ∧
      (2 ^ (-150 : Int) ≤ |valueOf x| → 2 ^ (-300 : Int) ≤ valueOf (x * x)) := by
  have hrounds := Float.rounds_mul hx.isFinite hx.isFinite
  have hwithin : Within (ofFloat (x * x)) (2 ^ (426 : Int)) := by
    refine hrounds.within_two_pow (by decide) (by decide) ?_
    calc |valueOf x * valueOf x| = |valueOf x| * |valueOf x| := abs_mul _ _
      _ ≤ 2 ^ (213 : Int) * 2 ^ (213 : Int) :=
          mul_le_mul hx.abs_le hx.abs_le (abs_nonneg _) (by positivity)
      _ = 2 ^ (426 : Int) := (zpow_add₀ two_ne_zero _ _).symm
  refine ⟨hwithin, hrounds.nonneg hwithin.isFinite (mul_self_nonneg _), fun hlarge => ?_⟩
  refine hrounds.two_pow_le hwithin.isFinite (by decide) (by decide) ?_
  calc (2 : ℚ) ^ (-300 : Int) = 2 ^ (-150 : Int) * 2 ^ (-150 : Int) :=
        zpow_add₀ two_ne_zero (-150) (-150)
    _ ≤ |valueOf x| * |valueOf x| := mul_le_mul hlarge hlarge (by positivity) (abs_nonneg _)
    _ = valueOf x * valueOf x := abs_mul_abs_self _

/-- A deviation that is not small is not rounded to a small one. -/
theorem two_pow_le_abs_sub (hx : IsSingle x) (hcenter : Within (ofFloat center) (2 ^ (212 : Int)))
    (hlarge : 2 ^ (-150 : Int) ≤ |valueOf x - valueOf center|) :
    2 ^ (-150 : Int) ≤ |valueOf (x - center)| := by
  have hrounds := Float.rounds_sub hx.isFinite hcenter.isFinite
  have hfinite := (within_deviation hx hcenter).isFinite
  rcases le_abs.mp hlarge with hle | hle
  · exact (hrounds.two_pow_le hfinite (by decide) (by decide) hle).trans (le_abs_self _)
  · have hneg := hrounds.le_neg_two_pow hfinite (by decide) (by decide) (le_neg_of_le_neg hle)
    exact (le_neg_of_le_neg hneg).trans (neg_le_abs _)

/-- **The mean square** of the deviations is a number from zero up. It is positive if one of
the deviations is not small. -/
theorem meanSquare_bounds (hxs : ∀ x ∈ xs, IsSingle x) (hpos : 0 < xs.length)
    (hlt : xs.length < 2 ^ 64) (hcenter : Within (ofFloat center) (2 ^ (212 : Int))) :
    Within (ofFloat (meanSquare center xs)) (2 ^ (510 : Int)) ∧
      0 ≤ valueOf (meanSquare center xs) ∧
      ((∃ x ∈ xs, 2 ^ (-150 : Int) ≤ |valueOf x - valueOf center|) →
        2 ^ (-364 : Int) ≤ valueOf (meanSquare center xs)) := by
  have hsquares : ∀ y ∈ xs.map fun x => (x - center) * (x - center),
      Within (ofFloat y) (2 ^ (426 : Int)) ∧ 0 ≤ valueOf y := by
    intro y hy
    obtain ⟨x, hx, rfl⟩ := List.mem_map.mp hy
    have hbounds := square_bounds (within_deviation (hxs x hx) hcenter)
    exact ⟨hbounds.1, hbounds.2.1⟩
  have hlength : (xs.map fun x => (x - center) * (x - center)).length = xs.length :=
    List.length_map _
  have htree := PairwiseSum.addedUp_total (hlength.trans_lt hlt)
  have htotal : Within _ (2 ^ (426 + 84 : Int)) :=
    htree.within (by decide) (by decide) fun y hy => (hsquares y hy).1
  obtain ⟨hnonneg, hle⟩ := htree.le_valueOf (by decide) (by decide)
    (fun y hy => (hsquares y hy).1) fun y hy => (hsquares y hy).2
  have hquotient := within_div_count hpos hlt htotal (by decide) (by decide)
  refine ⟨hquotient, div_count_nonneg hpos hlt htotal.isFinite hquotient.isFinite hnonneg, ?_⟩
  rintro ⟨x, hx, hlarge⟩
  have hdeviation := two_pow_le_abs_sub (hxs x hx) hcenter hlarge
  have hsquare := (square_bounds (within_deviation (hxs x hx) hcenter)).2.2 hdeviation
  exact two_pow_le_div_count hpos hlt htotal.isFinite hquotient.isFinite (by decide) (by decide)
    (hsquare.trans (hle _ (List.mem_map.mpr ⟨x, hx, rfl⟩)))

/-- **The variance** of two values that differ. -/
theorem two_pow_le_variance (hxs : ∀ x ∈ xs, IsSingle x) (hlt : xs.length < 2 ^ 64) {y z : Float}
    (hy : y ∈ xs) (hz : z ∈ xs) (hdiffer : y < z) :
    2 ^ (-364 : Int) ≤ valueOf (Statistics.ofValues xs).variance := by
  have hpos := List.length_pos_of_mem hy
  refine (meanSquare_bounds hxs hpos hlt (within_average hxs hpos hlt)).2.2 ?_
  rw [Float.lt_iff_valueOf (hxs y hy).isFinite (hxs z hz).isFinite] at hdiffer
  have hgap := (hxs y hy).two_pow_le_sub (hxs z hz) hdiffer
  -- one of the two is at least half of their distance away from the mean
  have hhalves : (2 : ℚ) ^ (-149 : Int) = 2 ^ (-150 : Int) + 2 ^ (-150 : Int) := by norm_num
  by_contra hnone
  push Not at hnone
  have hlow := (abs_lt.mp (hnone y hy)).1
  have hhigh := (abs_lt.mp (hnone z hz)).2
  linarith

/-- The variance of equal values is zero, and their mean is their value. -/
theorem valueOf_variance_of_const (hpos : 0 < xs.length) (hle : xs.length ≤ 2 ^ 29)
    (hx : IsSingle x) (hxs : ∀ y ∈ xs, y.isFinite = true ∧ valueOf y = valueOf x) :
    ((average xs).isFinite = true ∧ valueOf (average xs) = valueOf x) ∧
      (Statistics.ofValues xs).variance.isFinite = true ∧
      valueOf (Statistics.ofValues xs).variance = 0 := by
  obtain ⟨hcount, hvalue⟩ := count_exact hpos hle
  have hlt : xs.length < 2 ^ 64 := by omega
  have hnonzero : (xs.length : ℚ) ≠ 0 := Nat.cast_ne_zero.mpr hpos.ne'
  have hmean : (average xs).isFinite = true ∧ valueOf (average xs) = valueOf x := by
    obtain ⟨htotal, hsum⟩ := (PairwiseSum.addedUp_total hlt).eq_card_mul hxs
      fun n hn => hx.representable_mul (hn.trans hle)
    have hrounds := Float.rounds_div htotal hcount (hvalue.trans_ne hnonzero)
    rw [hsum, hvalue, Multiset.coe_card, mul_div_cancel_left₀ _ hnonzero] at hrounds
    exact hrounds.exact hx.representable
  have hsquares : ∀ y ∈ xs.map fun x => (x - average xs) * (x - average xs),
      y.isFinite = true ∧ valueOf y = 0 := by
    intro y hy
    obtain ⟨z, hz, rfl⟩ := List.mem_map.mp hy
    obtain ⟨hfinite, hsame⟩ := hxs z hz
    have hdifference := Float.rounds_sub hfinite hmean.1
    rw [hsame, hmean.2, sub_self] at hdifference
    obtain ⟨hdeviation, hnone⟩ := hdifference.eq_zero
    have hproduct := Float.rounds_mul hdeviation hdeviation
    rw [valueOf, hnone, mul_zero] at hproduct
    exact hproduct.eq_zero
  have hlength : (xs.map fun x => (x - average xs) * (x - average xs)).length = xs.length :=
    List.length_map _
  obtain ⟨htotal, hsum⟩ := (PairwiseSum.addedUp_total (hlength.trans_lt hlt)).eq_card_mul hsquares
    fun n _ => by
      rw [mul_zero, abs_zero]
      exact representable_zero (by decide)
  have hrounds := Float.rounds_div htotal hcount (hvalue.trans_ne hnonzero)
  rw [hsum, mul_zero, zero_div] at hrounds
  exact ⟨hmean, hrounds.eq_zero⟩

end

/-! ## One over the standard deviation -/

section

variable {x y variance epsilon : Float}

theorem Float.pos_of_le_extended {q : ℚ} (hq : 0 < q) (hx : x.isNaN = false)
    (hle : ((q : ℝ) : EReal) ≤ extended (ofFloat x)) : 0 < x := by
  rw [Float.lt_iff_extended rfl hx, ofFloat_zero, extended_zero]
  refine lt_of_lt_of_le ?_ hle
  exact_mod_cast hq

/-- What is not negative is the infinity or a number from zero up. -/
theorem Float.nonneg_cases (hx : x.isNaN = false) (hnot : ¬ x < 0) :
    ofFloat x = .infinity .positive ∨ x.isFinite = true ∧ 0 ≤ valueOf x := by
  change (ofFloat x).isNaN = false at hx
  rw [Float.lt_iff_extended hx rfl, ofFloat_zero, extended_zero, not_lt] at hnot
  show _ ∨ (ofFloat x).isFinite = true ∧ 0 ≤ toRat (ofFloat x)
  generalize ofFloat x = x at hx hnot
  have hplace : x.isFinite = true → 0 ≤ toRat x := by
    intro hfinite
    rw [extended_of_isFinite hfinite] at hnot
    exact_mod_cast hnot
  cases x with
  | infinity s =>
      cases s with
      | positive => exact Or.inl rfl
      | negative => exact absurd hnot (not_le.mpr EReal.bot_lt_zero)
  | notANumber => exact absurd hx nofun
  | zero s => exact Or.inr ⟨rfl, hplace rfl⟩
  | finite s m e hm => exact Or.inr ⟨rfl, hplace rfl⟩

/-- A sum is positive if none of its terms is negative and one of them is positive. -/
theorem Float.add_pos (hx : x.isFinite = true) (hnonneg : 0 ≤ valueOf x) (hy : y.isNaN = false)
    (hnot : ¬ y < 0) (hpos : 0 < valueOf x ∨ 0 < y) : 0 < x + y := by
  rcases Float.nonneg_cases hy hnot with hinfinity | ⟨hfinite, hge⟩
  · have hsum : ofFloat (x + y) = .infinity .positive := by
      rw [ofFloat_add, hinfinity]
      change (ofFloat x).isFinite = true at hx
      cases hvalue : ofFloat x with
      | infinity s => exact absurd (hvalue ▸ hx) nofun
      | notANumber => exact absurd (hvalue ▸ hx) nofun
      | zero s => exact repacked_infinity .positive
      | finite s m e hm => exact repacked_infinity .positive
    rw [Float.lt_iff, hsum]
    rfl
  · have hrounds := Float.rounds_add hx hfinite
    rcases hpos with hpos | hpos
    · exact Float.pos_of_le_extended hpos hrounds.isNaN
        (hrounds.le_extended (representable_abs_ofFloat hx) (le_add_of_nonneg_right hge))
    · have hvalue : 0 < valueOf y := (Float.lt_iff_valueOf rfl hfinite).mp hpos
      exact Float.pos_of_le_extended hvalue hrounds.isNaN
        (hrounds.le_extended (representable_abs_ofFloat hfinite) (le_add_of_nonneg_left hnonneg))

/-- **No division by zero** where the variance and epsilon are not both zero. -/
theorem inverseDeviation_of_pos (h : 0 < variance + epsilon) :
    0 < SquareRoot.sqrt (variance + epsilon) ∧
      Within (ofFloat (inverseDeviation variance epsilon)) (2 ^ (537 : Int)) := by
  have hroot := atLeast_sqrt_of_pos h
  refine ⟨?_, within_one_div (by decide) (by decide) hroot⟩
  exact Float.pos_of_le_extended (by positivity) hroot.le_extended.1 hroot.le_extended.2

theorem exists_ofFloat_zero (hx : x.isFinite = true) (hvalue : valueOf x = 0) :
    ∃ s, ofFloat x = .zero s := by
  have hzero := (isZero_iff_toRat (x := ofFloat x) hx).mpr hvalue
  generalize ofFloat x = x at hzero
  cases x with
  | zero s => exact ⟨s, rfl⟩
  | _ => exact absurd hzero nofun

/-- Where they are both zero, no number comes of it: zero times the infinity. -/
theorem isNaN_mul_inverseDeviation (hx : x.isFinite = true) (hvalue : valueOf x = 0)
    (hsum : (variance + epsilon).isFinite = true) (hzero : valueOf (variance + epsilon) = 0) :
    (x * inverseDeviation variance epsilon).isNaN = true := by
  obtain ⟨s, hs⟩ := exists_ofFloat_zero hx hvalue
  obtain ⟨s', hs'⟩ := exists_ofFloat_zero hsum hzero
  have hroot : ofFloat (Float.sqrt (variance + epsilon)) = .zero s' := by
    rw [ofFloat_sqrt, hs']
    exact repacked_zero s'
  have hinverse : ofFloat (inverseDeviation variance epsilon) = .infinity (.positive / s') := by
    show ofFloat (1 / Float.sqrt (variance + epsilon)) = _
    rw [ofFloat_div, hroot]
    exact repacked_infinity _
  show (ofFloat (x * inverseDeviation variance epsilon)).isNaN = true
  rw [ofFloat_mul, hs, hinverse, isNaN_repacked]
  rfl

end

/-! ## Normalized values -/

section

variable {xs : List Float} {epsilon x : Float}

/-- **Normalized values are numbers** where the divisor is no zero. -/
theorem within_normalized (hxs : ∀ x ∈ xs, IsSingle x) (hlt : xs.length < 2 ^ 64) (hx : x ∈ xs)
    (hpos : 0 < (Statistics.ofValues xs).variance + epsilon) :
    Within (ofFloat ((x - (Statistics.ofValues xs).mean) *
      inverseDeviation (Statistics.ofValues xs).variance epsilon)) (2 ^ (750 : Int)) := by
  have hdeviation := within_deviation (hxs x hx) (within_average hxs (List.length_pos_of_mem hx) hlt)
  have hinverse := (inverseDeviation_of_pos hpos).2
  refine (Float.rounds_mul hdeviation.isFinite hinverse.isFinite).within_two_pow (by decide)
    (by decide) ?_
  rw [abs_mul]
  calc |valueOf (x - average xs)| * |valueOf (inverseDeviation _ epsilon)|
      ≤ 2 ^ (213 : Int) * 2 ^ (537 : Int) :=
        mul_le_mul hdeviation.abs_le hinverse.abs_le (abs_nonneg _) (by positivity)
    _ = 2 ^ (750 : Int) := (zpow_add₀ two_ne_zero _ _).symm

/-- The normalized values of a channel of equal values are none without an epsilon. -/
theorem isNaN_normalized_of_const (hle : xs.length ≤ 2 ^ 29) (hsingle : IsSingle x)
    (hxs : ∀ y ∈ xs, y.isFinite = true ∧ valueOf y = valueOf x)
    (hepsilon : epsilon.isFinite = true) (hzero : valueOf epsilon = 0) {y : Float} (hy : y ∈ xs) :
    ((Statistics.ofValues xs).variance + epsilon == 0) = true ∧
      ((y - (Statistics.ofValues xs).mean) *
        inverseDeviation (Statistics.ofValues xs).variance epsilon).isNaN = true := by
  obtain ⟨⟨hmean, hcenter⟩, hvariance, hnone⟩ :=
    valueOf_variance_of_const (List.length_pos_of_mem hy) hle hsingle hxs
  obtain ⟨hfinite, hvalue⟩ := hxs y hy
  have hsum := Float.rounds_add hvariance hepsilon
  rw [hnone, hzero, add_zero] at hsum
  have hdeviation := Float.rounds_sub hfinite hmean
  rw [hvalue, hcenter, sub_self] at hdeviation
  exact ⟨(Float.beq_zero_iff_valueOf hsum.eq_zero.1).mpr hsum.eq_zero.2,
    isNaN_mul_inverseDeviation hdeviation.eq_zero.1 hdeviation.eq_zero.2 hsum.eq_zero.1
      hsum.eq_zero.2⟩

end

end BatchNorm
