import BatchNorm.Comparison.Deviation
import BatchNorm.Proofs.Numeric.Special

/-!
# Equal values are near

In binary64 the scale of a comparison is never a zero, whatever the floor is, and it is a
NaN only if one of the values is (`deviationScale_ne_zero`, `isNaN_deviationScale`). So
equal finite values deviate by a zero, also where both are zero or the floor is an
infinity, a NaN or negative, and they are near under every `epsilon` that is not negative
(`nearlyEqual_of_beq`).
-/

set_option autoImplicit false

namespace BatchNorm

open Exact

theorem beq_self_of_isFinite {x : Float} (h : x.isFinite = true) : (x == x) = true := by
  have hfinite : (ofFloat x).isFinite = true := h
  show (ofFloat x).beq (ofFloat x) = true
  cases hx : ofFloat x with
  | zero s => rfl
  | finite s m e hm =>
      have hsame : (compare e e).then (compare m m) = .eq := by simp
      cases s with
      | positive => exact congrArg (some · == some Ordering.eq) hsame
      | negative => exact congrArg (fun o => some (Ordering.swap o) == some .eq) hsame
  | infinity s =>
      rw [hx] at hfinite
      exact absurd hfinite Bool.false_ne_true
  | notANumber =>
      rw [hx] at hfinite
      exact absurd hfinite Bool.false_ne_true

theorem isNaN_of_isFinite {x : Float} (h : x.isFinite = true) : x.isNaN = false := by
  have hfinite : (ofFloat x).isFinite = true := h
  show (ofFloat x).isNaN = false
  cases hx : ofFloat x with
  | zero s => rfl
  | finite s m e hm => rfl
  | infinity s => rfl
  | notANumber =>
      rw [hx] at hfinite
      exact absurd hfinite Bool.false_ne_true

/-- A value that equals a finite one is no NaN. -/
theorem isNaN_of_beq {x y : Float} (h : (x == y) = true) : x.isNaN = false := by
  have hcompare : (ofFloat x).compare (ofFloat y) = some .eq := eq_of_beq h
  show (ofFloat x).isNaN = false
  cases hx : ofFloat x with
  | zero s => rfl
  | finite s m e hm => rfl
  | infinity s => rfl
  | notANumber =>
      rw [hx] at hcompare
      exact absurd hcompare (Option.some_ne_none _).symm

/-! ## The scale of a comparison -/

section

variable {x y actual expected floor : Float}

theorem isNaN_magnitude (x : Float) : (magnitude x).isNaN = x.isNaN := by
  unfold magnitude
  split
  · exact isNaN_zero_sub x
  · rfl

theorem magnitude_beq_zero (h : (x == 0) = true) : (magnitude x == 0) = true := by
  unfold magnitude
  split
  · exact zero_sub_beq_zero h
  · exact h

theorem larger_eq_or (x y : Float) : larger x y = x ∨ larger x y = y := by
  unfold larger
  split
  · split
    · split
      · exact Or.inr rfl
      · exact Or.inl rfl
    · exact Or.inr rfl
  · exact Or.inl rfl

theorem isNaN_larger (hx : x.isNaN = false) (hy : y.isNaN = false) :
    (larger x y).isNaN = false := by
  rcases larger_eq_or x y with h | h
  · rwa [h]
  · rwa [h]

/-- A scale that is a zero or below the floor gives way to one. -/
theorem deviationScale_ne_zero : (deviationScale actual expected floor == 0) = false := by
  unfold deviationScale
  dsimp only
  split
  · rfl
  · rename_i hscale
    exact Bool.eq_false_iff.mpr fun hzero => hscale (Or.inr hzero)

theorem isNaN_deviationScale (ha : actual.isNaN = false) (he : expected.isNaN = false) :
    (deviationScale actual expected floor).isNaN = false := by
  unfold deviationScale
  dsimp only
  split
  · rfl
  · exact isNaN_larger ((isNaN_magnitude actual).trans ha) ((isNaN_magnitude expected).trans he)

/-! ## Equal values -/

theorem relativeDeviation_beq_zero (h : (actual == expected) = true)
    (hfinite : expected.isFinite = true) : (relativeDeviation actual expected floor == 0) = true :=
  div_beq_zero (magnitude_beq_zero (sub_beq_zero h hfinite)) deviationScale_ne_zero
    (isNaN_deviationScale (isNaN_of_beq h) (isNaN_of_isFinite hfinite))

/-- **Equal values are near.** A value that equals the finite expected one is near to it,
whatever the floor is, if the largest deviation allowed is not negative. -/
theorem nearlyEqual_of_beq {epsilon : Float} (h : (actual == expected) = true)
    (hfinite : expected.isFinite = true) (hepsilon : 0 ≤ epsilon) :
    nearlyEqual actual expected epsilon floor = true :=
  decide_eq_true (le_of_beq_zero (relativeDeviation_beq_zero h hfinite) hepsilon)

end

end BatchNorm
