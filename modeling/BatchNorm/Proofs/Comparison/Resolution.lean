import BatchNorm.Proofs.Comparison.ExactDeviation
import BatchNorm.Proofs.Numeric.Binary32
import BatchNorm.Run.Config

/-!
# What the standard tolerance can see

The deviation that is allowed grows with the number of reduced elements, but no two numbers
deviate by more than two, and only numbers of opposite signs by more than one. Up to
10000 elements some binary32 output is reported whatever is expected; from 20000 on none
is, whatever is expected. In between it depends on the expected value: it must not be so
small that no output above the floor is comparable with it, nor so large that no binary32
number is (`exists_reported_iff`). The arithmetic here is exact.
-/

set_option autoImplicit false

namespace BatchNorm

open Exact Float.Model.UnpackedFloat

/-- The comparison with the standard constants, in exact arithmetic, reports `a` where `e`
is expected. -/
def Reported (s : Shape) (a e : ℚ) : Prop :=
  nearlyEqual a e (scaledEpsilon standardEpsilonFactor s.reductionSize) standardFloor = false

/-- By how much the largest deviation allowed exceeds one. -/
def excess (s : Shape) : ℚ := s.reductionSize / 10000 - 1

/-- The least binary32 number that is not below the standard floor. -/
def leastAboveFloor : ℚ := 10737419 / 2 ^ 30

theorem standardFloor_eq : (standardFloor : ℚ) = 1 / 100 := by norm_num [standardFloor]

theorem scaledEpsilon_standard (s : Shape) :
    scaledEpsilon (standardEpsilonFactor : ℚ) s.reductionSize = excess s + 1 := by
  have hfactor : (standardEpsilonFactor : ℚ) = 1 / 10000 := by norm_num [standardEpsilonFactor]
  rw [scaledEpsilon, hfactor, excess]
  ring

theorem leastAboveFloor_le {x : Exact} (h : Bounded 24 104 x) (hfloor : 1 / 100 ≤ |toRat x|) :
    leastAboveFloor ≤ |toRat x| := by
  cases h with
  | zero s =>
      have hzero : |toRat (.zero s)| = 0 := abs_zero
      rw [hzero] at hfloor
      norm_num at hfloor
  | finite hm he =>
      rename_i s m e hpos
      rw [abs_toRat_finite] at hfloor ⊢
      have hmantissa : (m : ℚ) < 2 ^ 24 := by exact_mod_cast hm
      by_cases hexponent : -30 ≤ e
      · -- the number is a multiple of the last place that the floor has
        obtain ⟨k, hk⟩ := Int.eq_ofNat_of_zero_le (by omega : 0 ≤ e + 30)
        have hplaces : (m : ℚ) * 2 ^ e = (m * 2 ^ k : Nat) / 2 ^ 30 := by
          rw [show e = k + (-30 : ℤ) by omega, zpow_add₀ two_ne_zero, zpow_natCast, zpow_neg]
          push_cast
          norm_num
          ring
        rw [hplaces] at hfloor ⊢
        have hcount : 10737419 ≤ m * 2 ^ k := by
          rw [le_div_iff₀ (by positivity)] at hfloor
          by_contra hlt
          have hle : m * 2 ^ k ≤ 10737418 := by omega
          have hcast : ((m * 2 ^ k : Nat) : ℚ) ≤ 10737418 := by exact_mod_cast hle
          norm_num at hfloor hcast
          linarith
        have hcast : (10737419 : ℚ) ≤ (m * 2 ^ k : Nat) := by exact_mod_cast hcount
        rw [leastAboveFloor]
        exact div_le_div_of_nonneg_right hcast (by positivity)
      · exfalso
        have hpower : (2 : ℚ) ^ e ≤ 2 ^ (-31 : ℤ) := zpow_le_zpow_right₀ one_le_two (by omega)
        have hsmall : (m : ℚ) * 2 ^ e < 2 ^ 24 * 2 ^ (-31 : ℤ) :=
          mul_lt_mul hmantissa hpower (by positivity) (by positivity)
        norm_num at hsmall
        linarith

/-! ## What a report says -/

theorem excess_nonneg {s : Shape} (hn : 10000 ≤ s.reductionSize) : 0 ≤ excess s := by
  have hcast : (10000 : ℚ) ≤ s.reductionSize := by exact_mod_cast hn
  rw [excess]
  linarith

theorem excess_le {s : Shape} (hn : s.reductionSize < 20000) : excess s ≤ 9999 / 10000 := by
  have hle : s.reductionSize ≤ 19999 := by omega
  have hcast : (s.reductionSize : ℚ) ≤ 19999 := by exact_mod_cast hle
  rw [excess]
  linarith

theorem one_le_excess {s : Shape} (hn : 20000 ≤ s.reductionSize) : 1 ≤ excess s := by
  have hcast : (20000 : ℚ) ≤ s.reductionSize := by exact_mod_cast hn
  rw [excess]
  linarith

/-- With 10000 elements or more, an output is reported only if it and the expected value are
comparable: neither is too small beside the other. -/
theorem comparable_of_reported {s : Shape} {a e : ℚ} (hn : 10000 ≤ s.reductionSize)
    (h : Reported s a e) :
    1 / 100 ≤ max |a| |e| ∧ excess s * |a| < |e| ∧ excess s * |e| < |a| := by
  have hexcess := excess_nonneg hn
  rw [Reported, standardFloor_eq, scaledEpsilon_standard] at h
  have hfloor := floor_le_of_nearlyEqual_eq_false (by linarith) (by norm_num) h
  rw [nearlyEqual_eq_false_iff_of_floor_le (by norm_num) hfloor] at h
  have hdistance := abs_sub a e
  have hleft := mul_le_mul_of_nonneg_left (le_max_left |a| |e|) hexcess
  have hright := mul_le_mul_of_nonneg_left (le_max_right |a| |e|) hexcess
  have hactual := le_max_left |a| |e|
  have hexpected := le_max_right |a| |e|
  refine ⟨hfloor, ?_, ?_⟩
  · linarith
  · linarith

theorem lt_of_reported {s : Shape} {a e : ℚ} (h : Reported s a e) : s.reductionSize < 20000 := by
  by_contra hmany
  have hmany := not_lt.mp hmany
  obtain ⟨_, hactual, hexpected⟩ := comparable_of_reported (by omega) h
  have hone := one_le_excess hmany
  have hleft := le_mul_of_one_le_left (abs_nonneg a) hone
  have hright := le_mul_of_one_le_left (abs_nonneg e) hone
  linarith

theorem bounds_of_reported {s : Shape} {x : Exact} {e : ℚ} (hx : Bounded 24 104 x)
    (hn : 10000 ≤ s.reductionSize) (h : Reported s (toRat x) e) :
    excess s * leastAboveFloor < |e| ∧ excess s * |e| < largestSingle := by
  obtain ⟨hfloor, hactual, hexpected⟩ := comparable_of_reported hn h
  constructor
  · rcases le_max_iff.mp hfloor with hfloor | hfloor
    · -- the output is at least the first one above the floor
      have hleast := mul_le_mul_of_nonneg_left (leastAboveFloor_le hx hfloor) (excess_nonneg hn)
      linarith
    · have hleast : excess s * leastAboveFloor ≤ 9999 / 10000 * leastAboveFloor :=
        mul_le_mul_of_nonneg_right (excess_le (lt_of_reported h)) (by norm_num [leastAboveFloor])
      have hsmall : 9999 / 10000 * leastAboveFloor < 1 / 100 := by norm_num [leastAboveFloor]
      linarith
  · exact lt_of_lt_of_le hexpected (abs_toRat_le hx)

/-! ## Outputs of the opposite sign -/

theorem exists_opposite_sign (e : ℚ) : ∃ s : Sign, e = -(signed s 1 * |e|) := by
  rcases le_total 0 e with he | he
  · exact ⟨.negative, by simp [signed, abs_of_nonneg he]⟩
  · exact ⟨.positive, by simp [signed, abs_of_nonpos he]⟩

/-- A comparable output of the opposite sign is reported: it is as far from the expected
value as their magnitudes together. -/
theorem reported_of_comparable {s : Shape} {sign : Sign} {r e : ℚ} (hr : 0 < r)
    (he : e = -(signed sign 1 * |e|)) (hfloor : 1 / 100 ≤ max r |e|)
    (hactual : excess s * r < |e|) (hexpected : excess s * |e| < r) :
    Reported s (signed sign 1 * r) e := by
  have hunit : |(signed sign 1 : ℚ)| = 1 := by
    have habs := abs_signed sign 1
    rwa [Nat.cast_one] at habs
  have hmagnitude : |(signed sign 1 : ℚ) * r| = r := by
    rw [abs_mul, hunit, one_mul, abs_of_pos hr]
  have hdistance : |(signed sign 1 : ℚ) * r - e| = r + |e| := by
    have hsum : (signed sign 1 : ℚ) * r - e = signed sign 1 * (r + |e|) := by
      conv_lhs => rw [he]
      ring
    rw [hsum, abs_mul, hunit, one_mul, abs_of_nonneg (by positivity)]
  rw [Reported, standardFloor_eq, scaledEpsilon_standard,
    nearlyEqual_eq_false_iff_of_floor_le (by norm_num) (by rwa [hmagnitude]), hmagnitude, hdistance]
  rcases max_choice r |e| with hmax | hmax
  · rw [hmax]
    linarith
  · rw [hmax]
    linarith

/-- With fewer than 10000 elements, an output of magnitude one is reported. -/
theorem exists_reported_of_lt {s : Shape} (hn : s.reductionSize < 10000) (e : ℚ) :
    ∃ a : Float32, a.isFinite = true ∧ Reported s (toRat (ofSingle a)) e := by
  obtain ⟨sign, he⟩ := exists_opposite_sign e
  obtain ⟨a, hfinite, ha⟩ := exists_single sign (m := 2 ^ 23) (e := -23) (by norm_num) (by norm_num)
    (by norm_num) (by norm_num)
  have hone : toRat (ofSingle a) = signed sign 1 * 1 := by
    rw [ha]
    norm_num
  have hexcess : excess s < 0 := by
    have hcast : (s.reductionSize : ℚ) < 10000 := by exact_mod_cast hn
    rw [excess]
    linarith
  have hnonneg := abs_nonneg e
  refine ⟨a, hfinite, hone ▸ reported_of_comparable one_pos he ?_ ?_ ?_⟩
  · exact le_max_of_le_left (by norm_num)
  · linarith
  · exact lt_of_le_of_lt (mul_nonpos_of_nonpos_of_nonneg hexcess.le hnonneg) one_pos

/-- With fewer than 20000 elements, some output is reported unless the expected value is too
small or too large. -/
theorem exists_reported_of_bounds {s : Shape} {e : ℚ} (hn : 10000 ≤ s.reductionSize)
    (hmany : s.reductionSize < 20000) (hleast : excess s * leastAboveFloor < |e|)
    (hmost : excess s * |e| < largestSingle) :
    ∃ a : Float32, a.isFinite = true ∧ Reported s (toRat (ofSingle a)) e := by
  obtain ⟨sign, he⟩ := exists_opposite_sign e
  have hnonneg := abs_nonneg e
  have hpositive : 0 < leastAboveFloor := by norm_num [leastAboveFloor]
  have hfloor : 1 / 100 ≤ leastAboveFloor := by norm_num [leastAboveFloor]
  -- the smaller of two numbers is comparable with the larger one
  have hshare : ∀ r, 0 < r → excess s * r < r := by
    intro r hr
    have hle := mul_le_mul_of_nonneg_right (excess_le hmany) hr.le
    linarith
  rcases le_or_gt |e| leastAboveFloor with hsmall | hlarge
  · obtain ⟨a, hfinite, ha⟩ := exists_single sign (m := 10737419) (e := -30) (by norm_num)
      (by norm_num) (by norm_num) (by norm_num)
    have hvalue : toRat (ofSingle a) = signed sign 1 * leastAboveFloor := by
      rw [ha, leastAboveFloor]
      norm_num
    refine ⟨a, hfinite, hvalue ▸ reported_of_comparable hpositive he ?_ hleast ?_⟩
    · exact le_max_of_le_left hfloor
    · have hscaled := mul_le_mul_of_nonneg_left hsmall (excess_nonneg hn)
      exact lt_of_le_of_lt hscaled (hshare _ hpositive)
  have habove : ∀ r, 1 / 100 ≤ max r |e| := fun r => le_max_of_le_right (by linarith)
  rcases lt_or_ge |e| (2 ^ (128 : ℤ)) with hrange | hrange
  · have hnormal : (2 : ℚ) ^ (-126 : ℤ) ≤ |e| := by
      have hpower : (2 : ℚ) ^ (-126 : ℤ) ≤ 1 / 100 := by norm_num
      exact le_trans (le_trans hpower hfloor) hlarge.le
    obtain ⟨a, r, hfinite, ha, hle, hnear⟩ := exists_single_below sign hnormal hrange
    have hclose : 9999 / 10000 * |e| < |e| * (1 - 1 / 2 ^ 23) := by
      rw [mul_comm]
      exact mul_lt_mul_of_pos_left (by norm_num) (by linarith)
    have hr : 0 < r := by linarith
    refine ⟨a, hfinite, ha ▸ reported_of_comparable hr he (habove r) ?_ ?_⟩
    · exact lt_of_lt_of_le (hshare r hr) hle
    · have hle := mul_le_mul_of_nonneg_right (excess_le hmany) hnonneg
      linarith
  · obtain ⟨a, hfinite, ha⟩ := exists_single sign (m := 2 ^ 24 - 1) (e := 104) (by norm_num)
      (by norm_num) (by norm_num) (by norm_num)
    have hvalue : toRat (ofSingle a) = signed sign 1 * largestSingle := by
      rw [ha, largestSingle]
      norm_num
    have hpos : 0 < largestSingle := by norm_num [largestSingle]
    have hle : largestSingle ≤ |e| := by
      have hbound : largestSingle ≤ 2 ^ (128 : ℤ) := by norm_num [largestSingle]
      linarith
    refine ⟨a, hfinite, hvalue ▸ reported_of_comparable hpos he (habove _) ?_ hmost⟩
    exact lt_of_lt_of_le (hshare _ hpos) hle

/-! ## Both together -/

/-- **Resolution.** In exact arithmetic, the standard constants let some binary32 output be
reported exactly in these cases: the shape reduces fewer than 10000 elements, or fewer than
20000 and the expected value is neither too near to zero nor too far beyond the binary32
range. -/
theorem exists_reported_iff (s : Shape) (e : ℚ) :
    (∃ a : Float32, a.isFinite = true ∧ Reported s (toRat (ofSingle a)) e) ↔
      s.reductionSize < 10000 ∨
        (s.reductionSize < 20000 ∧ excess s * leastAboveFloor < |e| ∧
          excess s * |e| < largestSingle) := by
  rcases lt_or_ge s.reductionSize 10000 with hfew | hn
  · exact iff_of_true (exists_reported_of_lt hfew e) (Or.inl hfew)
  · constructor
    · rintro ⟨a, hfinite, h⟩
      exact Or.inr ⟨lt_of_reported h, bounds_of_reported (bounded_ofSingle hfinite) hn h⟩
    · rintro (hfew | ⟨hmany, hleast, hmost⟩)
      · exact absurd hfew (not_lt.mpr hn)
      · exact exists_reported_of_bounds hn hmany hleast hmost

/-- A channel of 10000 values, of which one is expected to be zero. -/
theorem zero_unreported :
    (⟨10000, 1, 1, 1, 1⟩ : Shape).isEmpty = false ∧
      ¬ ∃ a : Float32, a.isFinite = true ∧
        Reported ⟨10000, 1, 1, 1, 1⟩ (toRat (ofSingle a)) 0 := by
  refine ⟨by decide, ?_⟩
  rintro ⟨a, hfinite, h⟩
  obtain ⟨_, hactual, _⟩ := comparable_of_reported (by decide) h
  have hexcess : excess ⟨10000, 1, 1, 1, 1⟩ = 0 := by
    norm_num [excess, Shape.reductionSize, Shape.spatialSize]
  rw [hexcess, zero_mul, abs_zero] at hactual
  exact lt_irrefl 0 hactual

end BatchNorm
