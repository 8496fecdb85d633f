import BatchNorm.Comparison.Deviation
import Mathlib.Algebra.Order.Field.Basic
import Mathlib.Tactic.Linarith

/-!
# Deviations in exact arithmetic

Over an ordered field the deviation of two numbers is their distance, taken relative to the
larger of their absolute values where that reaches the floor (`deviationScale_eq`). A bound
of one or more can therefore be exceeded at or above the floor only
(`floor_le_of_nearlyEqual_eq_false`).
-/

set_option autoImplicit false

namespace BatchNorm

variable {K : Type} [LinearOrder K]

theorem magnitude_eq_abs [AddCommGroup K] [IsOrderedAddMonoid K] [DecidableLE K] (x : K) :
    magnitude x = |x| := by
  unfold magnitude
  split
  · rename_i h
    rw [zero_sub, abs_of_nonpos h]
  · rename_i h
    exact (abs_of_nonneg (not_le.mp h).le).symm

theorem larger_eq_max [BEq K] [LawfulBEq K] [DecidableLT K] (x y : K) : larger x y = max x y := by
  unfold larger
  rw [if_pos (beq_self_eq_true x), if_pos (beq_self_eq_true y)]
  split
  · rename_i h
    exact (max_eq_right h.le).symm
  · rename_i h
    exact (max_eq_left (not_lt.mp h)).symm

section

variable [Field K] [BEq K] [DecidableLT K] [DecidableLE K] {a e epsilon floor : K}

theorem nearlyEqual_eq_false_iff :
    nearlyEqual a e epsilon floor = false ↔ epsilon < relativeDeviation a e floor := by
  rw [nearlyEqual, decide_eq_false_iff_not, not_le]

variable [LawfulBEq K] [IsStrictOrderedRing K]

theorem deviationScale_eq (a e floor : K) :
    deviationScale a e floor =
      if max |a| |e| < floor ∨ max |a| |e| = 0 then 1 else max |a| |e| := by
  simp only [deviationScale, magnitude_eq_abs, larger_eq_max, beq_iff_eq]

theorem nearlyEqual_eq_false_iff_of_floor_le (hpos : 0 < floor) (hfloor : floor ≤ max |a| |e|) :
    nearlyEqual a e epsilon floor = false ↔ epsilon * max |a| |e| < |a - e| := by
  have hmax : 0 < max |a| |e| := lt_of_lt_of_le hpos hfloor
  rw [nearlyEqual_eq_false_iff, relativeDeviation, magnitude_eq_abs, deviationScale_eq,
    if_neg (not_or.mpr ⟨not_lt.mpr hfloor, hmax.ne'⟩), lt_div_iff₀ hmax]

/-- A deviation of more than one is found at or above the floor only. -/
theorem floor_le_of_nearlyEqual_eq_false (hepsilon : 1 ≤ epsilon) (hfloor : 2 * floor ≤ 1)
    (h : nearlyEqual a e epsilon floor = false) : floor ≤ max |a| |e| := by
  by_contra hscale
  have hscale := not_le.mp hscale
  rw [nearlyEqual_eq_false_iff, relativeDeviation, magnitude_eq_abs, deviationScale_eq,
    if_pos (Or.inl hscale), div_one] at h
  -- below the floor both numbers are near zero, and no two of them are one apart
  have hdistance := abs_sub a e
  have hleft := le_max_left |a| |e|
  have hright := le_max_right |a| |e|
  linarith

end

end BatchNorm
