import BatchNorm.Proofs.Comparison.Laws
import BatchNorm.Proofs.Numeric.Bounds

/-!
# Comparing integers

Integers of up to 53 bits are binary64 numbers, and their differences are taken without an
error (`sub_ofInt`, `toFloat_sub`). Under a floor that is an infinity the scale of finite
values is one. So the deviation of two stored integers is the distance of the integers, and
a largest deviation below one lets no difference pass (`nearlyEqual_toFloat_ofInt`,
`natCast_le_iff_eq_zero`).
-/

set_option autoImplicit false

namespace BatchNorm

namespace Exact

open Float.Model (Format UnpackedFloat totalExponent)
open Float.Model.UnpackedFloat

/-! ## Integers as numbers of a format -/

theorem ofInt_signed (f : Format) (s : Sign) {n : Nat} (hn : 0 < n) :
    UnpackedFloat.ofInt f (signed s n) = UnpackedFloat.round f s n 0 :=
  normalize_signed f s hn 0 .positive

theorem roundTo_ofInt (f : Format) (i : Int) :
    (ofInt i).roundTo f = UnpackedFloat.ofInt f i := by
  cases i with
  | ofNat n => cases n <;> rfl
  | negSucc n => exact (ofInt_signed f .negative (Nat.succ_pos n)).symm

/-- How far an integer is shifted to fill a mantissa. -/
def spare (n : Nat) : Nat := 52 - n.log2

theorem fits_natCast {n : Nat} (hn : 0 < n) (hlt : n < 2 ^ 53) :
    Fits .binary64 (n * 2 ^ spare n) (-spare n) := by
  have hlog : n.log2 < 53 := (Nat.log2_lt hn.ne').mpr hlt
  have hpos := (Nat.mul_pos hn (Nat.two_pow_pos (spare n))).ne'
  refine ⟨?_, Or.inl ?_, ?_⟩
  · rw [← Nat.log2_lt hpos, log2_mul_two_pow hn]
    simp only [Format.mantissaBits, spare]
    omega
  · rw [← Nat.le_log2 hpos, log2_mul_two_pow hn]
    simp only [spare]
    omega
  · simp only [Format.minExponent, Format.mantissaBits, spare]
    omega

/-- A short integer is a number of the format. -/
theorem round_natCast (s : Sign) {n : Nat} (hn : 0 < n) (hlt : n < 2 ^ 53) :
    UnpackedFloat.round .binary64 s n 0 =
      .finite s (n * 2 ^ spare n) (-spare n) (Nat.mul_pos hn (Nat.two_pow_pos _)) := by
  rw [← round_mul_two_pow _ s hn 0 (spare n), zero_sub]
  exact round_of_fits _ s _ (fits_natCast hn hlt)

theorem repacked_ofInt {i : Int} (hi : i.natAbs < 2 ^ 53) :
    repacked (UnpackedFloat.ofInt .binary64 i) = UnpackedFloat.ofInt .binary64 i := by
  by_cases h0 : i = 0
  · subst h0
    rfl
  · obtain ⟨s, hs⟩ := exists_signed h0
    have hn : 0 < i.natAbs := by omega
    rw [hs, ofInt_signed _ s hn, round_natCast s hn hi]
    refine unpack_pack_finite _ s _ (fits_natCast hn hi) ?_
    simp only [endExponent, Format.exponentBias, spare]
    omega

/-! ## One as a factor and as a divisor -/

section

variable {f : Format} {m : Nat} {e : Int}

theorem mul_one_of_fits (s : Sign) (hm : 0 < m) (h : Fits f m e) (k : Nat) :
    mul f (.finite s m e hm) (.finite .positive (2 ^ k) (-k) (Nat.two_pow_pos k)) =
      .finite s m e hm := by
  have hsign : s * .positive = s := by cases s <;> rfl
  simp only [mul, hsign]
  exact roundWithAccuracy_of_fits f s hm h k

/-- The digits that the division computes beyond those of the dividend are zeros. -/
theorem div_one_of_fits (s : Sign) (hm : 0 < m) (h : Fits f m e) (k : Nat) :
    div f (.finite s m e hm) (.finite .positive (2 ^ k) (-k) (Nat.two_pow_pos k)) =
      .finite s m e hm := by
  have hsign : s / .positive = s := by cases s <;> rfl
  have hone : totalExponent (2 ^ k) (-k) = 1 := by
    rw [totalExponent, Nat.log2_two_pow]
    omega
  have htarget := h.targetExponent_eq hm
  have hle : f.targetExponent (totalExponent m e - 1) ≤ e := by
    rw [Format.targetExponent] at htarget ⊢
    omega
  obtain ⟨i, hi⟩ : ∃ i : Nat, min (e - -k) (f.targetExponent (totalExponent m e - 1)) = e - i :=
    ⟨(e - min (e - -k) (f.targetExponent (totalExponent m e - 1))).toNat, by omega⟩
  have hshift : (e - -k - (e - i)).toNat = i + k := by omega
  have hdigits : m * 2 ^ (i + k) = m * 2 ^ i * 2 ^ k := by rw [Nat.pow_add, mul_assoc]
  simp only [div, divCore, hsign, hone, hi, hshift, Nat.shiftLeft_eq, hdigits,
    Nat.mul_div_cancel _ (Nat.two_pow_pos k), Nat.mul_mod_left]
  exact roundWithAccuracy_of_fits f s hm h i

end

theorem ofFloat_toFloat_ofInt (i : Int) :
    ofFloat (ofInt i).toFloat = repacked (UnpackedFloat.ofInt .binary64 i) := by
  rw [← roundTo_ofInt]
  rfl

theorem signed_neg (s : Sign) (n : Nat) : signed (-s) n = -signed s n := by
  cases s with
  | positive => rfl
  | negative => exact (neg_neg _).symm

theorem ofInt_neg (f : Format) {i : Int} (hi : i ≠ 0) :
    UnpackedFloat.ofInt f (-i) = (UnpackedFloat.ofInt f i).neg := by
  obtain ⟨s, hs⟩ := exists_signed hi
  have hn : 0 < i.natAbs := by omega
  rw [hs, ← signed_neg, ofInt_signed f _ hn, ofInt_signed f _ hn]
  exact (neg_roundWithAccuracy f s _ _ _).symm

/-- Aligned mantissas. -/
theorem apply_decreased (s : Sign) (n : Nat) {k j : Nat} (h : k ≤ j) :
    s.apply (decreaseExponent (n * 2 ^ k) (-k) (-j)).1 = signed s n * 2 ^ j := by
  have hamount : (-(k : Int) - -(j : Int)).toNat = j - k := by omega
  have hpow : n * 2 ^ k * 2 ^ (j - k) = n * 2 ^ j := by
    rw [mul_assoc, ← Nat.pow_add, Nat.add_sub_cancel' h]
  rw [decreaseExponent, hamount, Nat.shiftLeft_eq, hpow]
  cases s with
  | positive => simp [Sign.apply, signed]
  | negative => simp [Sign.apply, signed]

/-- The difference of short integers, rounded, is what the format makes of the integer. -/
theorem sub_ofInt {i j : Int} (hi : i.natAbs < 2 ^ 53) (hj : j.natAbs < 2 ^ 53) :
    sub .binary64 (UnpackedFloat.ofInt .binary64 i) (UnpackedFloat.ofInt .binary64 j) =
      UnpackedFloat.ofInt .binary64 (i - j) := by
  by_cases hj0 : j = 0
  · subst hj0
    rw [sub_zero]
    by_cases hi0 : i = 0
    · subst hi0
      rfl
    · obtain ⟨s, hs⟩ := exists_signed hi0
      have hn : 0 < i.natAbs := by omega
      rw [hs, ofInt_signed _ s hn, round_natCast s hn hi]
      rfl
  obtain ⟨t, ht⟩ := exists_signed hj0
  have hm : 0 < j.natAbs := by omega
  by_cases hi0 : i = 0
  · subst hi0
    rw [zero_sub, ofInt_neg _ hj0, ht, ofInt_signed _ t hm, round_natCast t hm hj]
    rfl
  · obtain ⟨s, hs⟩ := exists_signed hi0
    have hn : 0 < i.natAbs := by omega
    rw [hs, ht, ofInt_signed _ s hn, round_natCast s hn hi, ofInt_signed _ t hm,
      round_natCast t hm hj]
    have hmin : min (-(spare i.natAbs) : Int) (-(spare j.natAbs)) =
        -(max (spare i.natAbs) (spare j.natAbs) : Nat) := by omega
    simp only [sub, hmin]
    rw [apply_decreased s _ (le_max_left _ _), apply_decreased t _ (le_max_right _ _), ← sub_mul,
      ← zero_sub ((max (spare i.natAbs) (spare j.natAbs) : Nat) : Int), normalize_mul_two_pow]
    rfl

theorem abs_ofInt (f : Format) (i : Int) :
    (UnpackedFloat.ofInt f i).abs = UnpackedFloat.ofInt f i.natAbs := by
  by_cases hi : i = 0
  · subst hi
    rfl
  · obtain ⟨s, hs⟩ := exists_signed hi
    have hn : 0 < i.natAbs := by omega
    rw [hs, ofInt_signed f s hn, ← hs]
    exact (abs_roundWithAccuracy _ _ _ _ _).trans (ofInt_signed f .positive hn).symm

end Exact

open Exact
open Float.Model (UnpackedFloat)

section

variable {i j : Int}

theorem toFloat_sub (hi : i.natAbs < 2 ^ 53) (hj : j.natAbs < 2 ^ 53) :
    (ofInt i).toFloat - (ofInt j).toFloat = (ofInt (i - j)).toFloat := by
  apply ofFloat_injective
  rw [ofFloat_sub, ofFloat_toFloat_ofInt, ofFloat_toFloat_ofInt, ofFloat_toFloat_ofInt,
    repacked_ofInt hi, repacked_ofInt hj, sub_ofInt hi hj]

theorem magnitude_toFloat_ofInt (i : Int) :
    magnitude (ofInt i).toFloat = (ofInt i.natAbs).toFloat := by
  apply ofFloat_injective
  rw [ofFloat_magnitude, ofFloat_toFloat_ofInt, ofFloat_toFloat_ofInt, ← repacked_abs, abs_ofInt]

theorem isFinite_toFloat_ofInt (hi : i.natAbs < 2 ^ 53) : (ofInt i).toFloat.isFinite = true := by
  show (ofFloat (ofInt i).toFloat).isFinite = true
  rw [ofFloat_toFloat_ofInt, repacked_ofInt hi]
  by_cases h0 : i = 0
  · subst h0
    rfl
  · obtain ⟨s, hs⟩ := exists_signed h0
    have hn : 0 < i.natAbs := by omega
    rw [hs, ofInt_signed _ s hn, round_natCast s hn hi]
    rfl

/-! ## An infinite floor -/

theorem lt_infinity {x : Float} (h : x.isFinite = true) : x < 1.0 / 0.0 := by
  have hinfinity : ofFloat (1.0 / 0.0) = .infinity .positive := by rfl
  have hfinite : (ofFloat x).isFinite = true := h
  rw [Float.lt_iff, hinfinity, UnpackedFloat.lt, compare_infinity hfinite]
  rfl

/-- Under an infinite floor, finite values are compared in absolute terms. -/
theorem deviationScale_infinity {a e : Float} (ha : a.isFinite = true) (he : e.isFinite = true) :
    deviationScale a e (1.0 / 0.0) = 1 := by
  have hlarger : (larger (magnitude a) (magnitude e)).isFinite = true := by
    rcases larger_eq_or (magnitude a) (magnitude e) with h | h
    · rw [h, isFinite_magnitude, ha]
    · rw [h, isFinite_magnitude, he]
  exact if_pos (Or.inl (lt_infinity hlarger))

/-- A short count, divided by one, is the count. -/
theorem toFloat_ofInt_div_one {n : Nat} (h : n < 2 ^ 53) :
    (ofInt (n : Nat)).toFloat / 1 = (n : Float) := by
  rcases Nat.eq_zero_or_pos n with rfl | hn
  · decide +kernel
  · have hone : ofFloat 1 = .finite .positive (2 ^ 52) (-52) (by decide) := rfl
    have hfits := fits_natCast hn h
    have hvalue : UnpackedFloat.ofInt .binary64 n = _ :=
      (ofInt_signed _ .positive hn).trans (round_natCast _ hn h)
    have hstored : repacked (UnpackedFloat.ofInt .binary64 n) = _ :=
      (repacked_ofInt (i := n) h).trans hvalue
    have hcast := ((ofFloat_natCast n).resolve_right fun hlong => by omega).2
    apply ofFloat_injective
    rw [ofFloat_div, ofFloat_toFloat_ofInt, hstored, hone, hcast, UnpackedFloat.ofNat, hstored]
    exact congrArg repacked
      ((div_one_of_fits _ _ hfits 52).trans (mul_one_of_fits _ _ hfits 52).symm)

theorem relativeDeviation_toFloat_ofInt (hi : i.natAbs < 2 ^ 53) (hj : j.natAbs < 2 ^ 53)
    (hnear : (i - j).natAbs < 2 ^ 53) :
    relativeDeviation (ofInt i).toFloat (ofInt j).toFloat (1.0 / 0.0) = (i - j).natAbs := by
  rw [relativeDeviation, deviationScale_infinity (isFinite_toFloat_ofInt hi)
    (isFinite_toFloat_ofInt hj), toFloat_sub hi hj, magnitude_toFloat_ofInt,
    toFloat_ofInt_div_one hnear]

/-- **Integers** are near under an infinite floor if their distance is at most the largest
deviation allowed. -/
theorem nearlyEqual_toFloat_ofInt (hi : i.natAbs < 2 ^ 53) (hj : j.natAbs < 2 ^ 53)
    (hnear : (i - j).natAbs < 2 ^ 53) (epsilon : Float) :
    nearlyEqual (ofInt i).toFloat (ofInt j).toFloat epsilon (1.0 / 0.0) = true ↔
      ((i - j).natAbs : Float) ≤ epsilon := by
  rw [nearlyEqual, relativeDeviation_toFloat_ofInt hi hj hnear, decide_eq_true_iff]

/-! ## Largest deviations below one -/

theorem isFinite_of_nonneg_of_lt_one {x : Float} (hnonneg : 0 ≤ x) (hlt : x < 1) :
    x.isFinite = true := by
  show (ofFloat x).isFinite = true
  rw [Float.zero_le_iff] at hnonneg
  rw [Float.lt_iff] at hlt
  cases hx : ofFloat x with
  | zero s => rfl
  | finite s m e hm => rfl
  | notANumber =>
      rw [hx] at hnonneg
      exact absurd hnonneg nofun
  | infinity s =>
      rw [hx] at hnonneg hlt
      cases hnonneg
      exact absurd hlt nofun

/-- Of the distances of two bytes, only zero is at most a number below one. -/
theorem natCast_le_iff_eq_zero {n : Nat} (hn : n < 256) {epsilon : Float} (hnonneg : 0 ≤ epsilon)
    (hlt : epsilon < 1) : (n : Float) ≤ epsilon ↔ n = 0 := by
  constructor
  · intro hle
    by_contra hne
    have hfinite : (n : Float).isFinite = true := isFinite_natCast (by omega)
    have hone := one_le_natCast (Nat.pos_of_ne_zero hne)
    have hone' : (1 : Float).isFinite = true := by decide +kernel
    have hepsilon := isFinite_of_nonneg_of_lt_one hnonneg hlt
    rw [Float.le_iff_valueOf hfinite hepsilon] at hle
    rw [Float.le_iff_valueOf hone' hfinite] at hone
    rw [Float.lt_iff_valueOf hepsilon hone'] at hlt
    linarith
  · rintro rfl
    have hzero : ((0 : Nat) : Float) = 0 := by decide +kernel
    rwa [hzero]

end

end BatchNorm
