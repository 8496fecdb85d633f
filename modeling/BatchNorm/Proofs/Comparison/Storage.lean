import BatchNorm.Proofs.Comparison.ExactDeviation
import BatchNorm.Proofs.Comparison.Laws
import BatchNorm.Proofs.Numeric.Arithmetic
import BatchNorm.Run.Config

/-!
# Stored values

A value that is off by no more than its rounding to binary32 is near to the expected one
under every floor from `2 ^ -126` to one and every factor from `2 ^ -24`. The scale of the
two values is at least the size that the error is relative to, on both sides of the floor:
above it the scale is the larger magnitude, below it the scale is one
(`max_le_deviationScale`). That is so in exact arithmetic (`nearlyEqual_of_le_singleError`).
In binary64 the difference and the quotient are rounded, and since the bounds are numbers of
the format they still hold (`Float.nearlyEqual_of_le_singleError`).
-/

set_option autoImplicit false

namespace BatchNorm

open Exact
open Float.Model (Format)

/-! ## Exact arithmetic -/

section

variable {a e floor : ℚ}

theorem max_le_deviationScale (hleast : 2 ^ (-126 : Int) ≤ floor) (hmost : floor ≤ 1) :
    max |e| (2 ^ (-126 : Int)) ≤ deviationScale a e floor := by
  have htiny : (0 : ℚ) < 2 ^ (-126 : Int) := by positivity
  have hexpected := le_max_right |a| |e|
  rw [deviationScale_eq]
  split
  · rename_i hsmall
    rcases hsmall with hbelow | hzero
    · exact max_le (by linarith) (by linarith)
    · exact max_le (by linarith) (by linarith)
  · rename_i hlarge
    have habove := not_lt.mp (not_or.mp hlarge).1
    exact max_le hexpected (by linarith)

theorem relativeDeviation_le (hleast : 2 ^ (-126 : Int) ≤ floor) (hmost : floor ≤ 1)
    (hnear : |a - e| ≤ singleError e) : relativeDeviation a e floor ≤ 2 ^ (-24 : Int) := by
  have hscale := max_le_deviationScale (a := a) (e := e) hleast hmost
  have hpos : 0 < deviationScale a e floor :=
    lt_of_lt_of_le (lt_max_of_lt_right (by positivity)) hscale
  rw [relativeDeviation, magnitude_eq_abs, div_le_iff₀ hpos]
  exact hnear.trans (mul_le_mul_of_nonneg_left hscale (by positivity))

/-- **Storing in binary32**, in exact arithmetic: an error of half a unit is no mismatch. -/
theorem nearlyEqual_of_le_singleError {factor : ℚ} {n : Nat} (hn : 0 < n)
    (hleast : 2 ^ (-126 : Int) ≤ floor) (hmost : floor ≤ 1) (hfactor : 2 ^ (-24 : Int) ≤ factor)
    (hnear : |a - e| ≤ singleError e) : nearlyEqual a e (scaledEpsilon factor n) floor = true := by
  have hpos : (0 : ℚ) ≤ 2 ^ (-24 : Int) := by positivity
  have hepsilon : (2 : ℚ) ^ (-24 : Int) ≤ scaledEpsilon factor n :=
    hfactor.trans (le_mul_of_one_le_right (hpos.trans hfactor) (Nat.one_le_cast.mpr hn))
  exact decide_eq_true ((relativeDeviation_le hleast hmost hnear).trans hepsilon)

end

/-! ## The scale in binary64 -/

section

variable {a e x y floor : Float}

theorem valueOf_magnitude (x : Float) : valueOf (magnitude x) = |valueOf x| := by
  rw [valueOf, ofFloat_magnitude, toRat_abs]
  rfl

theorem valueOf_larger (hx : x.isFinite = true) (hy : y.isFinite = true) :
    valueOf (larger x y) = max (valueOf x) (valueOf y) := by
  unfold larger
  rw [if_pos (beq_self_of_isFinite hx), if_pos (beq_self_of_isFinite hy)]
  split
  · rename_i hlt
    exact (max_eq_right ((Float.lt_iff_valueOf hx hy).mp hlt).le).symm
  · rename_i hlt
    exact (max_eq_left (not_lt.mp (mt (Float.lt_iff_valueOf hx hy).mpr hlt))).symm

/-- The scale of finite values is that of exact arithmetic. -/
theorem valueOf_deviationScale (ha : a.isFinite = true) (he : e.isFinite = true)
    (hfloor : floor.isFinite = true) :
    valueOf (deviationScale a e floor) =
      deviationScale (valueOf a) (valueOf e) (valueOf floor) := by
  have ha : (magnitude a).isFinite = true := (isFinite_magnitude a).trans ha
  have he : (magnitude e).isFinite = true := (isFinite_magnitude e).trans he
  have hfinite : (larger (magnitude a) (magnitude e)).isFinite = true := by
    rcases larger_eq_or (magnitude a) (magnitude e) with h | h
    · rwa [h]
    · rwa [h]
  have hbelow := Float.lt_iff_valueOf hfinite hfloor
  have hzero := Float.beq_zero_iff_valueOf hfinite
  rw [deviationScale_eq, ← valueOf_magnitude, ← valueOf_magnitude, ← valueOf_larger ha he]
  unfold deviationScale
  dsimp only
  split
  · rename_i hone
    rw [if_pos (hone.imp hbelow.mp hzero.mp), valueOf_one]
  · rename_i hone
    rw [if_neg fun h => hone (h.imp hbelow.mpr hzero.mpr)]

end

/-! ## Storing in binary64 arithmetic -/

theorem representable_singleError {e : Float} (he : e.isFinite = true) :
    Representable .binary64 (singleError (valueOf e)) := by
  have hlarger : Representable .binary64 (max |valueOf e| (2 ^ (-126 : Int))) := by
    rcases max_choice |valueOf e| (2 ^ (-126 : Int)) with hmax | hmax
    · rw [hmax]
      exact representable_abs_ofFloat he
    · rw [hmax]
      exact representable_two_pow (by decide) (by decide)
  have hlarge : (2 : ℚ) ^ (Format.binary64.mantissaBits + Format.binary64.minExponent + 24 : Int) ≤
      max |valueOf e| (2 ^ (-126 : Int)) :=
    (zpow_le_zpow_right₀ one_le_two (by decide)).trans (le_max_right _ _)
  have hshare : (2 : ℚ) ^ (-24 : Int) = (2 ^ 24)⁻¹ := by norm_num
  rw [singleError, mul_comm, hshare, ← div_eq_mul_inv]
  exact hlarger.div_two_pow 24 hlarge

section

variable {a e floor : Float}

/-- The rounded deviation has the bound of the exact one. -/
theorem within_relativeDeviation (ha : a.isFinite = true) (he : e.isFinite = true)
    (hfloor : floor.isFinite = true) (hleast : 2 ^ (-126 : Int) ≤ valueOf floor)
    (hmost : valueOf floor ≤ 1) (hnear : |valueOf a - valueOf e| ≤ singleError (valueOf e)) :
    Within (ofFloat (relativeDeviation a e floor)) (2 ^ (-24 : Int)) := by
  have hdistance := (Float.rounds_sub ha he).within (representable_singleError he) hnear
  have hfinite : (magnitude (a - e)).isFinite = true :=
    (isFinite_magnitude (a - e)).trans hdistance.isFinite
  have hscale := max_le_deviationScale (a := valueOf a) (e := valueOf e) hleast hmost
  have hpos : 0 < deviationScale (valueOf a) (valueOf e) (valueOf floor) :=
    lt_of_lt_of_le (lt_max_of_lt_right (by positivity)) hscale
  have hdivisor : valueOf (deviationScale a e floor) ≠ 0 := by
    rw [valueOf_deviationScale ha he hfloor]
    exact hpos.ne'
  refine (Float.rounds_div hfinite (isFinite_deviationScale ha he) hdivisor).within_two_pow
    (by decide) (by decide) ?_
  rw [abs_div, valueOf_magnitude, abs_abs, valueOf_deviationScale ha he hfloor, abs_of_pos hpos,
    div_le_iff₀ hpos]
  exact hdistance.abs_le.trans (mul_le_mul_of_nonneg_left hscale (by positivity))

/-- A factor that is not below `2 ^ -24` allows a deviation of that much for every count. -/
theorem atLeast_scaledEpsilon {factor : Float} {n : Nat} (hn : 0 < n)
    (hfinite : factor.isFinite = true) (hfactor : 2 ^ (-24 : Int) ≤ valueOf factor) :
    AtLeast (2 ^ (-24 : Int)) (ofFloat (scaledEpsilon factor n)) :=
  (AtLeast.finite hfinite hfactor).mul_full (representable_two_pow (by decide) (by decide))
    (by positivity) (atLeast_natCast hn) (full_natCast hn)

/-- **Storing in binary32**, in binary64 arithmetic: an error of half a unit is no
mismatch. -/
theorem Float.nearlyEqual_of_le_singleError {factor : Float} {n : Nat} (hn : 0 < n)
    (ha : a.isFinite = true) (he : e.isFinite = true) (hfloor : floor.isFinite = true)
    (hleast : 2 ^ (-126 : Int) ≤ valueOf floor) (hmost : valueOf floor ≤ 1)
    (hfinite : factor.isFinite = true) (hfactor : 2 ^ (-24 : Int) ≤ valueOf factor)
    (hnear : |valueOf a - valueOf e| ≤ singleError (valueOf e)) :
    nearlyEqual a e (scaledEpsilon factor n) floor = true :=
  decide_eq_true <| le_of_within_of_atLeast
    (within_relativeDeviation ha he hfloor hleast hmost hnear)
    (atLeast_scaledEpsilon hn hfinite hfactor)

/-- The binary32 number that is stored of a number is no further off. -/
theorem widen_narrow_near {e : Float} (h : (narrow e).isFinite = true) :
    (widen (narrow e)).isFinite = true ∧ e.isFinite = true ∧
      |valueOf (widen (narrow e)) - valueOf e| ≤ singleError (valueOf e) := by
  obtain ⟨hwiden, hvalue⟩ := valueOf_widen h
  obtain ⟨hfinite, hnear⟩ := abs_narrow_sub_le h
  rw [hvalue]
  exact ⟨hwiden, hfinite, hnear⟩

end

end BatchNorm
