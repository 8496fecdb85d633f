import BatchNorm.Proofs.Comparison.EqualValues
import BatchNorm.Proofs.Numeric.Sign

/-!
# Laws of the comparison

The comparison of two binary64 values treats them alike, whatever the floor and the
largest deviation allowed are: it does not matter which of them is the expected one, nor
whether both are negated. The deviation of finite values is a number, since their scale is
finite and no zero. As soon as one value is an infinity or a NaN, neither the distance nor
the scale is finite, and the deviation is a NaN. So nothing is near to an infinity, not even
the same infinity (`comparison_laws`).
-/

set_option autoImplicit false

namespace BatchNorm

open Exact
open Float.Model (UnpackedFloat)

variable {a e floor : Float}

/-! ## Magnitudes -/

theorem ofFloat_magnitude (x : Float) : ofFloat (magnitude x) = (ofFloat x).abs := by
  unfold magnitude
  split
  · rename_i h
    rw [Float.le_iff, ofFloat_zero] at h
    rw [ofFloat_sub, ofFloat_zero, zero_sub_eq_abs _ h, repacked_abs, repacked_ofFloat]
  · rename_i h
    rw [Float.le_iff, ofFloat_zero] at h
    exact (abs_eq_self h).symm

theorem isFinite_magnitude (x : Float) : (magnitude x).isFinite = x.isFinite := by
  show (ofFloat (magnitude x)).isFinite = (ofFloat x).isFinite
  rw [ofFloat_magnitude, isFinite_abs]

theorem magnitude_neg (x : Float) : magnitude (-x) = magnitude x := by
  apply ofFloat_injective
  rw [ofFloat_magnitude, ofFloat_magnitude, ofFloat_neg, Exact.abs_neg]

theorem magnitude_sub_comm (x y : Float) : magnitude (x - y) = magnitude (y - x) := by
  apply ofFloat_injective
  rw [ofFloat_magnitude, ofFloat_magnitude, ofFloat_sub, ofFloat_sub, ← repacked_abs,
    ← repacked_abs, Exact.abs_sub_comm]

theorem magnitude_neg_sub_neg (x y : Float) : magnitude (-x - -y) = magnitude (x - y) := by
  apply ofFloat_injective
  rw [ofFloat_magnitude, ofFloat_magnitude, ofFloat_sub, ofFloat_sub, ← repacked_abs,
    ← repacked_abs, ofFloat_neg, ofFloat_neg, abs_sub_neg_neg]

theorem magnitude_trichotomy {x y : Float} (hx : x.isNaN = false) (hy : y.isNaN = false) :
    (magnitude x < magnitude y ∧ ¬ magnitude y < magnitude x) ∨
      (magnitude y < magnitude x ∧ ¬ magnitude x < magnitude y) ∨ magnitude x = magnitude y := by
  obtain ⟨o, ho⟩ := exists_compare ((isNaN_abs (ofFloat x)).trans hx)
    ((isNaN_abs (ofFloat y)).trans hy)
  have hswap := compare_swap (ofFloat x).abs (ofFloat y).abs
  rw [ho] at hswap
  simp only [Float.lt_iff, ofFloat_magnitude, UnpackedFloat.lt, ho, hswap]
  cases o with
  | lt => exact Or.inl ⟨rfl, nofun⟩
  | gt => exact Or.inr (Or.inl ⟨rfl, nofun⟩)
  | eq =>
      refine Or.inr (Or.inr (ofFloat_injective ?_))
      rw [ofFloat_magnitude, ofFloat_magnitude, eq_of_compare_abs ho]

theorem larger_magnitude_comm (x y : Float) :
    larger (magnitude x) (magnitude y) = larger (magnitude y) (magnitude x) := by
  have hnan : ∀ z : Float, magnitude z ≠ .nan → z.isNaN = false := by
    intro z hz
    rw [← isNaN_magnitude, Float.isNaN_eq_decide_eq_nan]
    exact decide_eq_false hz
  unfold larger
  by_cases hx : magnitude x = .nan
  · by_cases hy : magnitude y = .nan
    · rw [hx, hy]
    · simp [hx, hy]
  by_cases hy : magnitude y = .nan
  · simp [hx, hy]
  rw [if_pos (Float.beq_self_iff.mpr hx), if_pos (Float.beq_self_iff.mpr hy),
    if_pos (Float.beq_self_iff.mpr hy), if_pos (Float.beq_self_iff.mpr hx)]
  rcases magnitude_trichotomy (hnan x hx) (hnan y hy) with ⟨hlt, hnot⟩ | ⟨hlt, hnot⟩ | heq
  · rw [if_pos hlt, if_neg hnot]
  · rw [if_neg hnot, if_pos hlt]
  · rw [heq]

/-! ## The scale -/

theorem deviationScale_comm (a e floor : Float) :
    deviationScale a e floor = deviationScale e a floor := by
  unfold deviationScale
  rw [larger_magnitude_comm]

theorem isFinite_deviationScale (ha : a.isFinite = true) (he : e.isFinite = true) :
    (deviationScale a e floor).isFinite = true := by
  unfold deviationScale
  dsimp only
  split
  · rfl
  · rcases larger_eq_or (magnitude a) (magnitude e) with h | h
    · rw [h, isFinite_magnitude, ha]
    · rw [h, isFinite_magnitude, he]

theorem not_magnitude_lt (h : a.isFinite = false) : ¬ magnitude a < floor := by
  rw [Float.lt_iff, ofFloat_magnitude, not_abs_lt (x := ofFloat a) h]
  exact Bool.false_ne_true

theorem larger_magnitude_of_not_isFinite (h : a.isFinite = false) :
    ∃ z : Float, z.isFinite = false ∧ larger (magnitude a) (magnitude e) = magnitude z := by
  unfold larger
  split
  · split
    · exact ⟨a, h, if_neg (not_magnitude_lt h)⟩
    · rename_i hnan
      refine ⟨e, Bool.eq_false_iff.mpr fun hfinite => hnan ?_, rfl⟩
      exact beq_self_of_isFinite ((isFinite_magnitude e).trans hfinite)
  · exact ⟨a, h, rfl⟩

/-- No floor is above the magnitude of a value that is not finite. -/
theorem not_isFinite_deviationScale (h : a.isFinite = false) :
    (deviationScale a e floor).isFinite = false := by
  obtain ⟨z, hz, hlarger⟩ := larger_magnitude_of_not_isFinite (e := e) h
  have hzero : (magnitude z == 0) = false := by
    rw [Float.beq_zero]
    exact not_isZero ((isFinite_magnitude z).trans hz)
  unfold deviationScale
  rw [hlarger, if_neg (not_or.mpr ⟨not_magnitude_lt hz, Bool.eq_false_iff.mp hzero⟩)]
  exact (isFinite_magnitude z).trans hz

/-! ## The deviation -/

theorem relativeDeviation_comm (a e floor : Float) :
    relativeDeviation a e floor = relativeDeviation e a floor := by
  unfold relativeDeviation
  rw [magnitude_sub_comm, deviationScale_comm]

theorem relativeDeviation_neg (a e floor : Float) :
    relativeDeviation (-a) (-e) floor = relativeDeviation a e floor := by
  simp only [relativeDeviation, deviationScale, magnitude_neg_sub_neg, magnitude_neg]

theorem isNaN_relativeDeviation (a e floor : Float) :
    (relativeDeviation a e floor).isNaN =
      (UnpackedFloat.div .binary64 (ofFloat (magnitude (a - e)))
        (ofFloat (deviationScale a e floor))).isNaN := by
  show (ofFloat (relativeDeviation a e floor)).isNaN = _
  rw [relativeDeviation, ofFloat_div, isNaN_repacked]

theorem isNaN_relativeDeviation_of_not_isFinite (h : a.isFinite = false) :
    (relativeDeviation a e floor).isNaN = true := by
  rw [isNaN_relativeDeviation]
  refine isNaN_div_of_not_isFinite _ ?_ (not_isFinite_deviationScale h)
  rw [ofFloat_magnitude, isFinite_abs, ofFloat_sub]
  exact not_isFinite_repacked (not_isFinite_sub _ _ h)

theorem isNaN_relativeDeviation_of_isFinite (ha : a.isFinite = true) (he : e.isFinite = true) :
    (relativeDeviation a e floor).isNaN = false := by
  rw [isNaN_relativeDeviation]
  refine isNaN_div_of_isFinite _ ?_ (isFinite_deviationScale ha he) ?_
  · rw [ofFloat_magnitude, isNaN_abs, ofFloat_sub, isNaN_repacked]
    exact isNaN_sub_of_isFinite _ ha he
  · rw [← Float.beq_zero]
    exact deviationScale_ne_zero

theorem isNaN_relativeDeviation_iff (a e floor : Float) :
    (relativeDeviation a e floor).isNaN = true ↔ a.isFinite = false ∨ e.isFinite = false := by
  constructor
  · intro hnan
    by_contra hfinite
    rw [not_or, Bool.not_eq_false, Bool.not_eq_false] at hfinite
    rw [isNaN_relativeDeviation_of_isFinite hfinite.1 hfinite.2] at hnan
    exact Bool.false_ne_true hnan
  · rintro (h | h)
    · exact isNaN_relativeDeviation_of_not_isFinite h
    · rw [relativeDeviation_comm]
      exact isNaN_relativeDeviation_of_not_isFinite h

theorem isFinite_of_nearlyEqual {epsilon : Float} (h : nearlyEqual a e epsilon floor = true) :
    a.isFinite = true ∧ e.isFinite = true := by
  have hle : relativeDeviation a e floor ≤ epsilon := of_decide_eq_true h
  have hfinite : ¬ (a.isFinite = false ∨ e.isFinite = false) := fun hnot =>
    Float.not_le_of_isNaN ((isNaN_relativeDeviation_iff a e floor).mpr hnot) epsilon hle
  rwa [not_or, Bool.not_eq_false, Bool.not_eq_false] at hfinite

/-! ## All of them -/

/-- **Laws of the comparison.** For all binary64 values, floors and largest deviations, the
infinities, the NaNs and negative numbers among them: the deviation is the same in both
orders and after both values are negated. What it is relative to is no zero. It is a NaN
exactly if a value is an infinity or a NaN, and a zero for equal finite values. So being
near is symmetric, equal finite values are near if the largest deviation is not negative,
and values that are near are finite. -/
theorem comparison_laws (a e floor epsilon : Float) :
    relativeDeviation a e floor = relativeDeviation e a floor ∧
    relativeDeviation a e floor = relativeDeviation (-a) (-e) floor ∧
    (deviationScale a e floor == 0) = false ∧
    ((relativeDeviation a e floor).isNaN = true ↔ a.isFinite = false ∨ e.isFinite = false) ∧
    ((a == e) = true → e.isFinite = true → (relativeDeviation a e floor == 0) = true) ∧
    nearlyEqual a e epsilon floor = nearlyEqual e a epsilon floor ∧
    ((a == e) = true → e.isFinite = true → 0 ≤ epsilon → nearlyEqual a e epsilon floor = true) ∧
    (nearlyEqual a e epsilon floor = true → a.isFinite = true ∧ e.isFinite = true) := by
  refine ⟨relativeDeviation_comm a e floor, (relativeDeviation_neg a e floor).symm,
    deviationScale_ne_zero, isNaN_relativeDeviation_iff a e floor, relativeDeviation_beq_zero, ?_,
    nearlyEqual_of_beq, isFinite_of_nearlyEqual⟩
  unfold nearlyEqual
  rw [relativeDeviation_comm]

/-- The two zeros are near under a floor that is an infinity. -/
theorem comparison_laws_zeros :
    ((-0.0 : Float) == 0) = true ∧ (0 : Float).isFinite = true ∧ (0 : Float) ≤ 0 ∧
      nearlyEqual (-0.0 : Float) 0 0 (1 / 0) = true ∧
      nearlyEqual (0 : Float) (-0.0) 0 (1 / 0) = true := by
  have hequal : ((-0.0 : Float) == 0) = true := by decide +kernel
  have hfinite : (0 : Float).isFinite = true := by decide +kernel
  have hnonneg : (0 : Float) ≤ 0 := by decide +kernel
  obtain ⟨_, _, _, _, _, hcomm, hnear, _⟩ := comparison_laws (-0.0) 0 (1 / 0) 0
  have hzeros := hnear hequal hfinite hnonneg
  exact ⟨hequal, hfinite, hnonneg, hzeros, hcomm ▸ hzeros⟩

end BatchNorm
