import BatchNorm.Numeric.Exact
import Mathlib

/-!
# Rounding as a division

A finite number is rounded by shifting its mantissa to the unit that the format has for
numbers of its size, with two bits that remember what was dropped. The two bits tell how
the dropped part compares with one half, so the shift is a division to the nearest integer,
ties to even (`roundedMantissa_shift`, `round_eq_settled`). Hence rounding depends on the
value alone and not on how it is written (`round_mul_two_pow`), and it moves a value by at
most half a unit (`abs_nearest_sub_le`).

What comes out has a mantissa and an exponent that go together (`Fits`). Such numbers
survive packing unless they are too large for the format (`unpack_pack_finite`,
`unpack_pack_round`). All of it holds for every format.
-/

set_option autoImplicit false

namespace BatchNorm

namespace Exact

open Float.Model (Format UnpackedFloat totalExponent)
open Float.Model.UnpackedFloat

/-! ## Quotients to the nearest integer -/

theorem divideHalfEven_one (a : Nat) : divideHalfEven a 1 = a := by
  simp [divideHalfEven, Nat.mod_one]

theorem div_le_divideHalfEven (a b : Nat) : a / b ≤ divideHalfEven a b := by
  unfold divideHalfEven
  dsimp only
  split_ifs <;> omega

theorem divideHalfEven_le (a b : Nat) : divideHalfEven a b ≤ a / b + 1 := by
  unfold divideHalfEven
  dsimp only
  split_ifs <;> omega

theorem divideHalfEven_mul_right (a b : Nat) {c : Nat} (hc : 0 < c) :
    divideHalfEven (a * c) (b * c) = divideHalfEven a b := by
  have hlt : ∀ x y : Nat, 2 * (x * c) < y * c ↔ 2 * x < y := by
    intro x y
    rw [← mul_assoc, Nat.mul_lt_mul_right hc]
  have hgt : ∀ x y : Nat, y * c < 2 * (x * c) ↔ y < 2 * x := by
    intro x y
    rw [← mul_assoc, Nat.mul_lt_mul_right hc]
  simp only [divideHalfEven, Nat.mul_div_mul_right _ _ hc, Nat.mul_mod_mul_right, hlt, hgt]

/-- The quotient to the nearest integer depends on the fraction only. -/
theorem divideHalfEven_congr {a b c d : Nat} (hb : 0 < b) (hd : 0 < d) (h : a * d = c * b) :
    divideHalfEven a b = divideHalfEven c d := by
  rw [← divideHalfEven_mul_right a b hd, h, mul_comm b d, divideHalfEven_mul_right c d hb]

/-- The quotient is at most one half away from the nearest integer. -/
theorem abs_divideHalfEven_sub_le (a : Nat) {b : Nat} (hb : 0 < b) :
    |(divideHalfEven a b : ℚ) - a / b| ≤ 1 / 2 := by
  have hdivision := Nat.div_add_mod a b
  have hbound : 2 * (divideHalfEven a b * b) ≤ 2 * a + b ∧ 2 * a ≤ 2 * (divideHalfEven a b * b) + b := by
    have hmod := Nat.mod_lt a hb
    have hcomm : b * (a / b) = a / b * b := Nat.mul_comm _ _
    unfold divideHalfEven
    dsimp only
    split_ifs
    · omega
    · rw [Nat.add_mul]
      omega
    · rcases Nat.mod_two_eq_zero_or_one (a / b) with hparity | hparity
      · rw [hparity, Nat.add_zero]
        omega
      · rw [hparity, Nat.add_mul]
        omega
  have hpos : (0 : ℚ) < b := Nat.cast_pos.mpr hb
  have hle : 2 * ((divideHalfEven a b : ℚ) * b) ≤ 2 * a + b := by exact_mod_cast hbound.1
  have hge : 2 * (a : ℚ) ≤ 2 * (divideHalfEven a b * b) + b := by exact_mod_cast hbound.2
  rw [abs_le, le_sub_iff_add_le, sub_le_iff_le_add]
  constructor
  · rw [add_comm, ← sub_eq_add_neg, sub_le_iff_le_add, div_le_iff₀ hpos]
    linarith
  · rw [← sub_le_iff_le_add', le_div_iff₀ hpos]
    linarith

/-! ## Shifts -/

theorem shiftRightOne_exact (q : Nat) :
    (ExtendedMantissa.ofMantissaAndAccuracy q .exact).shiftRightOne = ⟨q / 2, q % 2 != 0, false⟩ :=
  rfl

theorem shiftRightOne_inexact (q : Nat) (o : Ordering) :
    (ExtendedMantissa.ofMantissaAndAccuracy q (.inexact o)).shiftRightOne =
      ⟨q / 2, q % 2 != 0, true⟩ := by
  cases o <;> rfl

/-- One more place dropped from a fraction `r / d`: the last bit of `q` comes before it. -/
theorem shiftRightOne_ofFraction (q : Nat) {r d : Nat} (h : r < d) :
    (ExtendedMantissa.ofMantissaAndAccuracy q (accuracyOfFraction r d)).shiftRightOne =
      ExtendedMantissa.ofMantissaAndAccuracy (q / 2)
        (accuracyOfFraction (r + d * (q % 2)) (d * 2)) := by
  rcases Nat.eq_zero_or_pos r with rfl | hr
  · rw [accuracyOfFraction, if_pos rfl, shiftRightOne_exact]
    rcases Nat.mod_two_eq_zero_or_one q with hq | hq
    · rw [hq, accuracyOfFraction, if_pos (by omega)]
      rfl
    · rw [hq, accuracyOfFraction, if_neg (by omega), Nat.compare_eq_eq.mpr (by omega)]
      rfl
  · rw [accuracyOfFraction, if_neg hr.ne', shiftRightOne_inexact]
    rcases Nat.mod_two_eq_zero_or_one q with hq | hq
    · rw [hq, accuracyOfFraction, if_neg (by omega), Nat.compare_eq_lt.mpr (by omega)]
      rfl
    · rw [hq, accuracyOfFraction, if_neg (by omega), Nat.compare_eq_gt.mpr (by omega)]
      rfl

theorem shift_ofFraction (a : Nat) {b : Nat} (hb : 0 < b) (k : Nat) :
    ExtendedMantissa.ofMantissaAndAccuracy (a / b) (accuracyOfFraction (a % b) b) >>> k =
      ExtendedMantissa.ofMantissaAndAccuracy (a / (b * 2 ^ k))
        (accuracyOfFraction (a % (b * 2 ^ k)) (b * 2 ^ k)) := by
  show k.repeat ExtendedMantissa.shiftRightOne _ = _
  induction k with
  | zero => rw [Nat.pow_zero, Nat.mul_one, Nat.repeat]
  | succ k ih =>
      have hpos : 0 < b * 2 ^ k := Nat.mul_pos hb (Nat.two_pow_pos k)
      rw [Nat.repeat, ih, shiftRightOne_ofFraction _ (Nat.mod_lt _ hpos), Nat.div_div_eq_div_mul,
        ← Nat.mod_mul, Nat.pow_succ, mul_assoc]

theorem roundedMantissa_ofMantissaAndAccuracy (m : Nat) (acc : Accuracy) :
    (ExtendedMantissa.ofMantissaAndAccuracy m acc).roundedMantissa = acc.roundToNearestEven m := by
  cases acc with
  | exact => rfl
  | inexact o => cases o <;> rfl

theorem roundToNearestEven_ofFraction (a b : Nat) :
    (accuracyOfFraction (a % b) b).roundToNearestEven (a / b) = divideHalfEven a b := by
  unfold accuracyOfFraction divideHalfEven
  dsimp only
  split
  · rename_i hzero
    rw [hzero]
    split_ifs with hlt hgt
    · rfl
    · omega
    · have hb : b = 0 := by omega
      subst hb
      simp [Accuracy.roundToNearestEven]
  · rcases lt_trichotomy (2 * (a % b)) b with hlt | heq | hgt
    · rw [Nat.compare_eq_lt.mpr hlt, if_pos hlt]
      rfl
    · rw [Nat.compare_eq_eq.mpr heq, if_neg (by omega), if_neg (by omega)]
      rfl
    · rw [Nat.compare_eq_gt.mpr hgt, if_neg (by omega), if_pos hgt]
      rfl

theorem roundedMantissa_shift (a : Nat) {b : Nat} (hb : 0 < b) (k : Nat) :
    (ExtendedMantissa.ofMantissaAndAccuracy (a / b) (accuracyOfFraction (a % b) b) >>>
      k).roundedMantissa = divideHalfEven a (b * 2 ^ k) := by
  rw [shift_ofFraction a hb, roundedMantissa_ofMantissaAndAccuracy, roundToNearestEven_ofFraction]

/-! ## Rounding as a division -/

/-- How many units `2 ^ t` are nearest to `a / b * 2 ^ e`, ties to even. -/
def nearest (a b : Nat) (e t : Int) : Nat :=
  divideHalfEven (a * 2 ^ (e - t).toNat) (b * 2 ^ (t - e).toNat)

/-- A magnitude of `r` units, of which one too many may have come about by a carry. -/
def settled (f : Format) (s : Sign) (r : Nat) (t : Int) : Exact :=
  if h : r = 0 then .zero s
  else if r < 2 ^ f.mantissaBits then .finite s r t (Nat.pos_of_ne_zero h)
  else .finite s (2 ^ f.mantissaBitsWithoutImplicit) (t + 1) (Nat.two_pow_pos _)

theorem log2_mul_two_pow {m : Nat} (hm : 0 < m) (k : Nat) : (m * 2 ^ k).log2 = m.log2 + k := by
  rw [Nat.log2_eq_iff (Nat.mul_pos hm (Nat.two_pow_pos k)).ne']
  have hle := Nat.mul_le_mul_right (2 ^ k) (Nat.log2_self_le hm.ne')
  have hlt := Nat.mul_lt_mul_of_pos_right (Nat.lt_log2_self (n := m)) (Nat.two_pow_pos k)
  rw [← Nat.pow_add] at hle hlt
  rw [Nat.add_right_comm]
  exact ⟨hle, hlt⟩

theorem totalExponent_mul_two_pow {m : Nat} (hm : 0 < m) (e : Int) (k : Nat) :
    totalExponent (m * 2 ^ k) (e - k) = totalExponent m e := by
  rw [totalExponent, totalExponent, log2_mul_two_pow hm]
  omega

theorem nearest_mul_two_pow (a : Nat) {b : Nat} (hb : 0 < b) (e t : Int) (k : Nat) :
    nearest (a * 2 ^ k) b (e - k) t = nearest a b e t := by
  have hpos : ∀ i : Nat, 0 < b * 2 ^ i := fun i => Nat.mul_pos hb (Nat.two_pow_pos i)
  refine divideHalfEven_congr (hpos _) (hpos _) ?_
  have hpow : 2 ^ k * 2 ^ (e - k - t).toNat * 2 ^ (t - e).toNat =
      2 ^ (e - t).toNat * 2 ^ (t - (e - k)).toNat := by
    rw [← Nat.pow_add, ← Nat.pow_add, ← Nat.pow_add]
    congr 1
    omega
  calc a * 2 ^ k * 2 ^ (e - k - t).toNat * (b * 2 ^ (t - e).toNat)
      = a * b * (2 ^ k * 2 ^ (e - k - t).toNat * 2 ^ (t - e).toNat) := by ring
    _ = a * 2 ^ (e - t).toNat * (b * 2 ^ (t - (e - k)).toNat) := by
        rw [hpow]
        ring

/-- The value in units. -/
theorem fraction_mul_unit (a b : Nat) (e t : Int) :
    ((a * 2 ^ (e - t).toNat : Nat) : ℚ) / (b * 2 ^ (t - e).toNat : Nat) * 2 ^ t =
      a / b * 2 ^ e := by
  have hpow : (2 : ℚ) ^ (e - t).toNat / 2 ^ (t - e).toNat * 2 ^ t = 2 ^ e := by
    rw [← zpow_natCast, ← zpow_natCast, ← zpow_sub₀ two_ne_zero, ← zpow_add₀ two_ne_zero]
    congr 1
    omega
  push_cast
  rw [mul_div_mul_comm, mul_assoc, hpow]

/-- The value is moved by at most half a unit. -/
theorem abs_nearest_sub_le (a : Nat) {b : Nat} (hb : 0 < b) (e t : Int) :
    |(nearest a b e t : ℚ) * 2 ^ t - a / b * 2 ^ e| ≤ 2 ^ (t - 1) := by
  have hunit : (0 : ℚ) < 2 ^ t := by positivity
  have herror := abs_divideHalfEven_sub_le (a * 2 ^ (e - t).toNat)
    (Nat.mul_pos hb (Nat.two_pow_pos (t - e).toNat))
  calc |(nearest a b e t : ℚ) * 2 ^ t - a / b * 2 ^ e| = |(nearest a b e t : ℚ) -
        (a * 2 ^ (e - t).toNat : Nat) / (b * 2 ^ (t - e).toNat : Nat)| * 2 ^ t := by
        rw [← fraction_mul_unit a b e t, ← sub_mul, abs_mul, abs_of_pos hunit]
    _ ≤ 1 / 2 * 2 ^ t := mul_le_mul_of_nonneg_right herror hunit.le
    _ = 2 ^ (t - 1) := by
        rw [zpow_sub_one₀ two_ne_zero]
        ring

section

variable (f : Format)

theorem minExponent_le_targetExponent (n : Int) : f.minExponent ≤ f.targetExponent n :=
  le_max_right _ _

theorem targetExponent_le {n t : Int} (hn : n ≤ t + f.mantissaBits) (ht : f.minExponent ≤ t) :
    f.targetExponent n ≤ t := by
  rw [Format.targetExponent]
  omega

/-- No more units are left than the mantissa has room for, up to a carry. -/
theorem nearest_le {a b : Nat} {e t : Int}
    (htarget : f.targetExponent (totalExponent (a / b) e) = t) (he : e ≤ t) :
    nearest a b e t ≤ 2 ^ f.mantissaBits := by
  have hunits : (e - t).toNat = 0 := by omega
  rw [nearest, hunits, Nat.pow_zero, Nat.mul_one]
  refine le_trans (divideHalfEven_le _ _) (Nat.succ_le_of_lt ?_)
  rw [← Nat.div_div_eq_div_mul, Nat.div_lt_iff_lt_mul (Nat.two_pow_pos _), ← Nat.pow_add]
  rcases Nat.eq_zero_or_pos (a / b) with hzero | hpos
  · rw [hzero]
    exact Nat.two_pow_pos _
  · have hleast : (a / b).log2 + 1 + e - f.mantissaBits ≤ t := htarget ▸ le_max_left _ _
    rw [← Nat.log2_lt hpos.ne']
    omega

theorem full_nearest {a b : Nat} {e t : Int}
    (htarget : f.targetExponent (totalExponent (a / b) e) = t) (he : e ≤ t) :
    2 ^ f.mantissaBitsWithoutImplicit ≤ nearest a b e t ∨ t = f.minExponent := by
  rw [or_iff_not_imp_right]
  intro hne
  have hexponent : t = (a / b).log2 + 1 + e - (1 + f.mantissaBitsWithoutImplicit : Nat) := by
    rw [← htarget, Format.targetExponent] at hne ⊢
    exact (max_choice _ _).resolve_right hne
  have hpos : a / b ≠ 0 := by
    intro hzero
    rw [hzero, Nat.log2_zero] at hexponent
    have hbits := f.hm
    omega
  have hunits : (e - t).toNat = 0 := by omega
  rw [nearest, hunits, Nat.pow_zero, Nat.mul_one]
  refine le_trans ?_ (div_le_divideHalfEven _ _)
  rw [← Nat.div_div_eq_div_mul, Nat.le_div_iff_mul_le (Nat.two_pow_pos _), ← Nat.pow_add,
    ← Nat.le_log2 hpos]
  omega

/-- A rounded magnitude is not shifted any further, but for a carry. -/
theorem shift_settled (s : Sign) {r : Nat} {t : Int} (hr : r ≤ 2 ^ f.mantissaBits)
    (ht : f.minExponent ≤ t) :
    (let shifted := shiftToTargetExponent f r t .exact
      if h : shifted.1.mantissa = 0 then UnpackedFloat.zero s
      else .finite s shifted.1.mantissa shifted.2 (Nat.pos_of_ne_zero h)) = settled f s r t := by
  unfold settled
  rcases lt_or_eq_of_le hr with hlt | rfl
  · have hlog : r.log2 < f.mantissaBits := by
      rcases Nat.eq_zero_or_pos r with rfl | hpos
      · rw [Nat.log2_zero, Format.mantissaBits]
        omega
      · exact (Nat.log2_lt hpos.ne').mpr hlt
    have hamount : (f.targetExponent (totalExponent r t) - t).toNat = 0 := by
      have hle := targetExponent_le f (n := totalExponent r t) (t := t)
        (by rw [totalExponent]; omega) ht
      omega
    have hshifted : shiftToTargetExponent f r t .exact = (⟨r, false, false⟩, t) := by
      simp only [shiftToTargetExponent, shiftToExponent, hamount]
      exact Prod.ext rfl (add_zero t)
    rw [hshifted]
    dsimp only
    split
    · rfl
    · rfl
  · have htarget : f.targetExponent (totalExponent (2 ^ f.mantissaBits) t) = t + 1 := by
      rw [Format.targetExponent, totalExponent, Nat.log2_two_pow]
      omega
    have hmantissa : 2 ^ f.mantissaBits / 2 = 2 ^ f.mantissaBitsWithoutImplicit := by
      rw [Format.mantissaBits, Nat.pow_add, Nat.pow_one, Nat.mul_div_cancel_left _ two_pos]
    have hshifted : shiftToTargetExponent f (2 ^ f.mantissaBits) t .exact =
        (⟨2 ^ f.mantissaBitsWithoutImplicit, 2 ^ f.mantissaBits % 2 != 0, false⟩, t + 1) := by
      have hone : (t + 1 - t).toNat = 1 := by omega
      simp only [shiftToTargetExponent, shiftToExponent, htarget, hone, ← hmantissa]
      rfl
    have hpos := (Nat.two_pow_pos f.mantissaBitsWithoutImplicit).ne'
    rw [hshifted, dif_neg hpos, dif_neg (Nat.two_pow_pos _).ne', if_neg (lt_irrefl _)]

/-- A quotient whose unit is not below that of its digits is divided once. -/
theorem roundWithAccuracy_ofFraction (s : Sign) {a b : Nat} (hb : 0 < b) {e t : Int}
    (htarget : f.targetExponent (totalExponent (a / b) e) = t) (he : e ≤ t) :
    roundWithAccuracy f s (a / b) e (accuracyOfFraction (a % b) b) =
      settled f s (nearest a b e t) t := by
  have hleast : f.minExponent ≤ t := htarget ▸ minExponent_le_targetExponent f _
  have hunits : (e - t).toNat = 0 := by omega
  have hnearest : nearest a b e t = divideHalfEven a (b * 2 ^ (t - e).toNat) := by
    rw [nearest, hunits, Nat.pow_zero, Nat.mul_one]
  have hfirst : shiftToTargetExponent f (a / b) e (accuracyOfFraction (a % b) b) =
      (ExtendedMantissa.ofMantissaAndAccuracy (a / b) (accuracyOfFraction (a % b) b) >>>
        (t - e).toNat, t) := by
    simp only [shiftToTargetExponent, shiftToExponent, htarget]
    refine Prod.ext rfl ?_
    show e + (t - e).toNat = t
    omega
  rw [← shift_settled f s (nearest_le f htarget he) hleast, hnearest, ← roundedMantissa_shift a hb]
  unfold roundWithAccuracy
  rw [hfirst]

/-- A number as it is before it is shifted to its unit. -/
theorem target_decreased {m : Nat} (hm : 0 < m) {e t : Int}
    (htarget : f.targetExponent (totalExponent m e) = t) :
    f.targetExponent (totalExponent (m * 2 ^ (e - t).toNat / 1) (e - (e - t).toNat)) = t := by
  rw [Nat.div_one, totalExponent_mul_two_pow hm, htarget]

/-- **Rounding.** A number is rounded by one division to the nearest. -/
theorem round_eq_settled (s : Sign) {m : Nat} (hm : 0 < m) {e t : Int}
    (htarget : f.targetExponent (totalExponent m e) = t) :
    UnpackedFloat.round f s m e = settled f s (nearest m 1 e t) t := by
  have hrounded := roundWithAccuracy_ofFraction f s one_pos (target_decreased f hm htarget)
    (by omega)
  rw [nearest_mul_two_pow m one_pos, Nat.div_one, Nat.mod_one] at hrounded
  rw [← hrounded]
  simp only [UnpackedFloat.round, decreaseExponent, htarget, Nat.shiftLeft_eq]
  rfl

/-! ## The value alone -/

theorem round_mul_two_pow (s : Sign) {m : Nat} (hm : 0 < m) (e : Int) (k : Nat) :
    UnpackedFloat.round f s (m * 2 ^ k) (e - k) = UnpackedFloat.round f s m e := by
  rw [round_eq_settled f s hm rfl, round_eq_settled f s (Nat.mul_pos hm (Nat.two_pow_pos k))
    (congrArg f.targetExponent (totalExponent_mul_two_pow hm e k)), nearest_mul_two_pow m one_pos]

theorem exists_signed {i : Int} (hi : i ≠ 0) : ∃ s, i = signed s i.natAbs := by
  rcases lt_or_gt_of_ne hi with h | h
  · exact ⟨.negative, by rw [signed]; omega⟩
  · exact ⟨.positive, by rw [signed]; omega⟩

theorem signed_mul (s : Sign) (m n : Nat) : signed s (m * n) = signed s m * n := by
  cases s with
  | positive => simp [signed]
  | negative => simp [signed]

theorem normalize_signed (s : Sign) {m : Nat} (hm : 0 < m) (e : Int) (z : Sign) :
    UnpackedFloat.normalize f (signed s m) e z = UnpackedFloat.round f s m e := by
  cases s with
  | positive =>
      rw [signed, UnpackedFloat.normalize, Int.compare_eq_gt.mpr (by omega)]
      rfl
  | negative =>
      rw [signed, UnpackedFloat.normalize, Int.compare_eq_lt.mpr (by omega)]
      show UnpackedFloat.round f .negative (- -(m : Int)).toNat e = _
      rw [neg_neg, Int.toNat_natCast]

theorem normalize_mul_two_pow (i : Int) (e : Int) (k : Nat) (z : Sign) :
    UnpackedFloat.normalize f (i * 2 ^ k) (e - k) z = UnpackedFloat.normalize f i e z := by
  by_cases hi : i = 0
  · rw [hi, zero_mul]
    rfl
  · obtain ⟨s, hs⟩ := exists_signed hi
    have hm : 0 < i.natAbs := by omega
    have hscaled : signed s i.natAbs * 2 ^ k = signed s (i.natAbs * 2 ^ k) := by
      rw [signed_mul, Nat.cast_pow, Nat.cast_ofNat]
    rw [hs, hscaled, normalize_signed f s (Nat.mul_pos hm (Nat.two_pow_pos k)),
      normalize_signed f s hm, round_mul_two_pow f s hm]

/-! ## Packing -/

/-- Positive mantissas that the format has room for, and exponents that it has for them. -/
structure Fits (m : Nat) (e : Int) : Prop where
  lt : m < 2 ^ f.mantissaBits
  /-- Only the least exponent goes with a mantissa that is not full. -/
  full : 2 ^ f.mantissaBitsWithoutImplicit ≤ m ∨ e = f.minExponent
  least : f.minExponent ≤ e

theorem unpack_packedInfinity (s : Sign) : unpack f (packedInfinity f s) = .infinity s := by
  simp only [unpack, packedInfinity, unpackExponent_packComponents, unpackMantissa_packComponents,
    unpackSign_packComponents, Sign.ofBitVec_toBitVec]
  rw [if_pos trivial]
  exact if_pos rfl

/-- The exponents from here on are those of infinities. -/
def endExponent : Int := f.exponentBias + 1 - f.mantissaBitsWithoutImplicit

theorem two_pow_exponentBits : 2 ^ f.exponentBits = 2 * (f.exponentBias + 1) := by
  have hpos := Nat.two_pow_pos (f.exponentBits - 1)
  rw [Format.exponentBias, Nat.sub_add_cancel hpos, ← Nat.pow_succ', Nat.succ_eq_add_one,
    Nat.sub_add_cancel f.he]

theorem minExponent_eq :
    f.minExponent = 1 - (f.exponentBias + f.mantissaBitsWithoutImplicit) := by
  have hpos := Nat.two_pow_pos (f.exponentBits - 1)
  rw [Format.minExponent, Format.exponentBias, Format.mantissaBits, Nat.cast_sub hpos]
  push_cast
  ring

theorem unpack_pack_infinity (s : Sign) {m : Nat} {e : Int} (hm : 0 < m)
    (hmost : endExponent f ≤ e) : unpack f (pack f (.finite s m e hm)) = .infinity s := by
  rw [endExponent] at hmost
  rw [pack, if_pos (by rw [two_pow_exponentBits]; omega), unpack_packedInfinity]

theorem toNat_implicit_append {n m : Nat} (hfull : 2 ^ n ≤ m) (hlt : m < 2 ^ (1 + n)) :
    (1#1 ++ BitVec.ofNat n m).toNat = m := by
  have hsub : m - 2 ^ n < 2 ^ n := by
    rw [Nat.pow_add, Nat.pow_one] at hlt
    omega
  have hmod : m % 2 ^ n = m - 2 ^ n := by
    rw [Nat.mod_eq_sub_mod hfull, Nat.mod_eq_of_lt hsub]
  rw [BitVec.toNat_append, BitVec.toNat_ofNat m, hmod, ← Nat.shiftLeft_add_eq_or_of_lt hsub,
    BitVec.toNat_ofNat, Nat.shiftLeft_eq]
  omega

theorem ofNat_ne_ones {w n : Nat} (h : n + 1 < 2 ^ w) : BitVec.ofNat w n ≠ -1#w := by
  intro heq
  have htoNat := congrArg BitVec.toNat heq
  rw [BitVec.toNat_ofNat, Nat.mod_eq_of_lt (by omega), BitVec.neg_one_eq_allOnes,
    BitVec.toNat_allOnes] at htoNat
  omega

theorem ofNat_ne_zero {w n : Nat} (hpos : 0 < n) (h : n < 2 ^ w) : BitVec.ofNat w n ≠ 0#w := by
  intro heq
  have htoNat := congrArg BitVec.toNat heq
  rw [BitVec.toNat_ofNat, Nat.mod_eq_of_lt h, BitVec.toNat_ofNat, Nat.zero_mod] at htoNat
  omega

theorem unpack_normal (s : Sign) {m n : Nat} (hm : 0 < m)
    (hfull : 2 ^ f.mantissaBitsWithoutImplicit ≤ m) (hlt : m < 2 ^ f.mantissaBits) (hn : 0 < n)
    (hmost : n + 1 < 2 ^ f.exponentBits) :
    unpack f (packComponents f s (BitVec.ofNat _ n) (BitVec.ofNat _ m)) =
      .finite s m (n - (f.exponentBias + f.mantissaBitsWithoutImplicit)) hm := by
  have hstored : (BitVec.ofNat f.exponentBits n).toNat = n := by
    rw [BitVec.toNat_ofNat, Nat.mod_eq_of_lt (by omega)]
  simp only [unpack, unpackExponent_packComponents, unpackMantissa_packComponents,
    unpackSign_packComponents, Sign.ofBitVec_toBitVec, if_neg (ofNat_ne_ones hmost),
    if_neg (ofNat_ne_zero hn (Nat.lt_of_succ_lt hmost)), hstored, toNat_implicit_append hfull hlt]

theorem unpack_subnormal (s : Sign) {m : Nat} (hm : 0 < m)
    (hlt : m < 2 ^ f.mantissaBitsWithoutImplicit) :
    unpack f (packComponents f s 0#_ (BitVec.ofNat _ m)) = .finite s m f.minExponent hm := by
  have hstored : (BitVec.ofNat f.mantissaBitsWithoutImplicit m).toNat = m := by
    rw [BitVec.toNat_ofNat, Nat.mod_eq_of_lt hlt]
  have hone : 0#f.exponentBits ≠ -1#_ :=
    ofNat_ne_ones (n := 0) (by rw [two_pow_exponentBits]; omega)
  have hexponent : (((0#f.exponentBits).toNat : Int) -
      (f.exponentBias + f.mantissaBitsWithoutImplicit) + 1) = f.minExponent := by
    rw [minExponent_eq, BitVec.toNat_ofNat, Nat.zero_mod]
    omega
  simp only [unpack, unpackExponent_packComponents, unpackMantissa_packComponents,
    unpackSign_packComponents, Sign.ofBitVec_toBitVec, if_neg hone, if_pos,
    dif_neg (ofNat_ne_zero hm hlt), hexponent, hstored]

/-- A mantissa and an exponent that go together survive packing. -/
theorem unpack_pack_finite (s : Sign) {m : Nat} {e : Int} (hm : 0 < m) (h : Fits f m e)
    (hmost : e < endExponent f) : unpack f (pack f (.finite s m e hm)) = .finite s m e hm := by
  have hleast := h.least
  rw [minExponent_eq] at hleast
  rw [endExponent] at hmost
  simp only [pack]
  rw [if_neg (by rw [two_pow_exponentBits]; omega)]
  rcases le_or_gt (2 ^ f.mantissaBitsWithoutImplicit) m with hfull | hlt
  · have hlog : m.log2 = f.mantissaBitsWithoutImplicit := by
      refine (Nat.log2_eq_iff hm.ne').mpr ⟨hfull, ?_⟩
      rw [Nat.add_comm]
      exact h.lt
    rw [if_pos (by rw [hlog, Nat.add_comm]; rfl),
      unpack_normal f s hm hfull h.lt (by omega) (by rw [two_pow_exponentBits]; omega)]
    congr 1
    omega
  · have hlog := (Nat.log2_lt hm.ne').mpr hlt
    rw [if_neg (by rw [Format.mantissaBits]; omega), unpack_subnormal f s hm hlt,
      h.full.resolve_left (not_le.mpr hlt)]

/-! ## What rounding leaves -/

variable {f} in
theorem Fits.targetExponent_eq {m : Nat} {e : Int} (h : Fits f m e) (hm : 0 < m) :
    f.targetExponent (totalExponent m e) = e := by
  have hlog : m.log2 < f.mantissaBits := (Nat.log2_lt hm.ne').mpr h.lt
  have hleast := h.least
  rw [Format.targetExponent, totalExponent]
  rcases h.full with hfull | hleast
  · have hlog' := (Nat.le_log2 hm.ne').mpr hfull
    rw [Format.mantissaBits] at hlog ⊢
    omega
  · omega

theorem settled_of_fits (s : Sign) {m : Nat} {e : Int} (hm : 0 < m) (h : Fits f m e) :
    settled f s (nearest m 1 e e) e = .finite s m e hm := by
  have hnearest : nearest m 1 e e = m := by
    rw [nearest, sub_self, Int.toNat_zero, Nat.pow_zero, Nat.mul_one, Nat.mul_one,
      divideHalfEven_one]
  rw [hnearest, settled, dif_neg hm.ne', if_pos h.lt]

/-- A number of the format is left as it is. -/
theorem round_of_fits (s : Sign) {m : Nat} {e : Int} (hm : 0 < m) (h : Fits f m e) :
    UnpackedFloat.round f s m e = .finite s m e hm := by
  rw [round_eq_settled f s hm (h.targetExponent_eq hm), settled_of_fits f s hm h]

/-- Further digits that are zeros change nothing. -/
theorem roundWithAccuracy_of_fits (s : Sign) {m : Nat} {e : Int} (hm : 0 < m) (h : Fits f m e)
    (k : Nat) : roundWithAccuracy f s (m * 2 ^ k) (e - k) .exact = .finite s m e hm := by
  have htarget : f.targetExponent (totalExponent (m * 2 ^ k / 1) (e - k)) = e := by
    rw [Nat.div_one, totalExponent_mul_two_pow hm, h.targetExponent_eq hm]
  have hrounded := roundWithAccuracy_ofFraction f s one_pos htarget (by omega)
  rw [nearest_mul_two_pow m one_pos, settled_of_fits f s hm h, Nat.div_one, Nat.mod_one] at hrounded
  exact hrounded

theorem unpack_pack_settled (s : Sign) {r : Nat} {t : Int}
    (hfull : 2 ^ f.mantissaBitsWithoutImplicit ≤ r ∨ t = f.minExponent) (ht : f.minExponent ≤ t) :
    unpack f (pack f (settled f s r t)) = settled f s r t ∨
      unpack f (pack f (settled f s r t)) = .infinity s := by
  have hfinite : ∀ {m : Nat} {e : Int} (hm : 0 < m), Fits f m e →
      unpack f (pack f (.finite s m e hm)) = .finite s m e hm ∨
        unpack f (pack f (.finite s m e hm)) = .infinity s := by
    intro m e hm h
    rcases lt_or_ge e (endExponent f) with hmost | hmost
    · exact Or.inl (unpack_pack_finite f s hm h hmost)
    · exact Or.inr (unpack_pack_infinity f s hm hmost)
  unfold settled
  split_ifs with hzero hlt
  · exact Or.inl unpack_packedZero
  · exact hfinite _ ⟨hlt, hfull, ht⟩
  · refine hfinite _ ⟨?_, Or.inl le_rfl, by omega⟩
    rw [Format.mantissaBits]
    exact Nat.pow_lt_pow_right one_lt_two (by omega)

/-- **Storing a number.** What is stored of a finite number is the nearest multiple of the
unit for its size, unless the format has no room for it. -/
theorem unpack_pack_round (s : Sign) {m : Nat} (hm : 0 < m) {e t : Int}
    (htarget : f.targetExponent (totalExponent m e) = t) :
    unpack f (pack f (UnpackedFloat.round f s m e)) = settled f s (nearest m 1 e t) t ∨
      unpack f (pack f (UnpackedFloat.round f s m e)) = .infinity s := by
  have hfull := full_nearest f (target_decreased f hm htarget) (by omega)
  rw [nearest_mul_two_pow m one_pos] at hfull
  rw [round_eq_settled f s hm htarget]
  exact unpack_pack_settled f s hfull (htarget ▸ minExponent_le_targetExponent f _)

end

end Exact

end BatchNorm
