import BatchNorm.Proofs.Numeric.Value

/-!
# Rounding keeps bounds

Rounding to the nearest is monotone, and it leaves the numbers of a format as they are. So a
bound that is a number of the format (`Representable`) bounds what is stored as well, from
above and from below (`nearest_mul_le`, `le_nearest_mul`). A result that is rounded once, of
digits enough for its unit, has its bounds from exact arithmetic (`within_quotient`,
`atLeast_quotient`); differences and quotients have digits enough (`alignedDifference_mul`,
`exists_div_eq`), products of numbers with a full mantissa too (`atLeast_mul`).
-/

set_option autoImplicit false

namespace BatchNorm

namespace Exact

open Float.Model (Format UnpackedFloat totalExponent)
open Float.Model.UnpackedFloat

/-! ## Quotients between integers -/

theorem divideHalfEven_le_of_le {a b n : Nat} (hb : 0 < b) (h : a ≤ n * b) :
    divideHalfEven a b ≤ n := by
  rcases lt_or_eq_of_le (Nat.div_le_of_le_mul (Nat.mul_comm n b ▸ h)) with hlt | heq
  · exact le_trans (divideHalfEven_le a b) hlt
  · have ha : a = n * b := le_antisymm h (heq ▸ Nat.div_mul_le_self a b)
    rw [divideHalfEven_congr hb one_pos (by rw [Nat.mul_one, ha]), divideHalfEven_one]

theorem le_divideHalfEven_of_le {a b n : Nat} (hb : 0 < b) (h : n * b ≤ a) :
    n ≤ divideHalfEven a b :=
  le_trans ((Nat.le_div_iff_mul_le hb).mpr h) (div_le_divideHalfEven a b)

/-! ## Numbers of a format -/

/-- The numbers of a format from zero up, but for the infinity. -/
def Representable (f : Format) (q : ℚ) : Prop :=
  ∃ (m : Nat) (e : Int), Fits f m e ∧ e < endExponent f ∧ q = m * 2 ^ e

/-- A value in smaller units. -/
theorem mul_two_pow_units (m : Nat) {e t : Int} (h : t ≤ e) :
    (m : ℚ) * 2 ^ e = (m * 2 ^ (e - t).toNat : Nat) * 2 ^ t := by
  have hpow : (2 : ℚ) ^ (e - t).toNat * 2 ^ t = 2 ^ e := by
    rw [← zpow_natCast, ← zpow_add₀ two_ne_zero]
    congr 1
    omega
  push_cast
  rw [mul_assoc, hpow]

section

variable {f : Format}

theorem Fits.lt_two_pow {m : Nat} {e : Int} (h : Fits f m e) :
    (m : ℚ) * 2 ^ e < 2 ^ (f.mantissaBits + e : Int) := by
  have hm : (m : ℚ) < 2 ^ f.mantissaBits := by exact_mod_cast h.lt
  rw [zpow_add₀ two_ne_zero, zpow_natCast]
  exact mul_lt_mul_of_pos_right hm (by positivity)

theorem representable_two_pow {k : Int} (hleast : f.minExponent + f.mantissaBitsWithoutImplicit ≤ k)
    (hmost : k ≤ f.exponentBias) : Representable f (2 ^ k) := by
  refine ⟨2 ^ f.mantissaBitsWithoutImplicit, k - f.mantissaBitsWithoutImplicit,
    ⟨?_, Or.inl le_rfl, by omega⟩, by rw [endExponent]; omega, ?_⟩
  · rw [Format.mantissaBits]
    exact Nat.pow_lt_pow_right one_lt_two (by omega)
  · rw [Nat.cast_pow, Nat.cast_ofNat, ← zpow_natCast, ← zpow_add₀ two_ne_zero]
    congr 1
    omega

variable (f)

/-- A quotient is not below the least full mantissa of its unit. -/
theorem two_pow_le_fraction {a b : Nat} {e t : Int}
    (htarget : f.targetExponent (totalExponent (a / b) e) = t) (he : e ≤ t)
    (hne : t ≠ f.minExponent) :
    (2 : ℚ) ^ (f.mantissaBitsWithoutImplicit + t : Int) ≤ a / b * 2 ^ e := by
  have hexponent : (f.mantissaBitsWithoutImplicit + t : Int) = (a / b).log2 + e := by
    have hmax := (max_choice _ _).resolve_right (htarget ▸ hne)
    rw [← Format.targetExponent, htarget, totalExponent, Format.mantissaBits] at hmax
    omega
  have hpos : a / b ≠ 0 := by
    intro hzero
    rw [hzero, Nat.log2_zero] at hexponent
    have hbits := f.hm
    omega
  have hlog : (2 : ℚ) ^ (a / b).log2 ≤ (a / b : Nat) := by
    exact_mod_cast Nat.log2_self_le hpos
  rw [hexponent, zpow_add₀ two_ne_zero, zpow_natCast]
  exact mul_le_mul_of_nonneg_right (le_trans hlog Nat.cast_div_le) (by positivity)

/-- **Bounds from above** are kept. -/
theorem nearest_mul_le {a b : Nat} (hb : 0 < b) {e t : Int}
    (htarget : f.targetExponent (totalExponent (a / b) e) = t) (he : e ≤ t) {q : ℚ}
    (hq : Representable f q) (hle : (a : ℚ) / b * 2 ^ e ≤ q) : (nearest a b e t : ℚ) * 2 ^ t ≤ q := by
  obtain ⟨m, e', hfits, _, rfl⟩ := hq
  have hunit : (0 : ℚ) < 2 ^ t := by positivity
  rcases le_or_gt t e' with ht | ht
  · -- the bound is a whole number of units
    rw [mul_two_pow_units m ht] at hle ⊢
    rw [← fraction_mul_unit a b e t] at hle
    have hb' := Nat.mul_pos hb (Nat.two_pow_pos (t - e).toNat)
    have hdiv := le_of_mul_le_mul_right hle hunit
    rw [div_le_iff₀ (Nat.cast_pos.mpr hb')] at hdiv
    refine mul_le_mul_of_nonneg_right (Nat.cast_le.mpr ?_) hunit.le
    exact divideHalfEven_le_of_le hb' (by exact_mod_cast hdiv)
  · -- a number of a smaller unit is below the quotient
    have hleast := hfits.least
    have hfull := two_pow_le_fraction f htarget he (by omega)
    have hpow : (2 : ℚ) ^ (f.mantissaBits + e' : Int) ≤
        2 ^ (f.mantissaBitsWithoutImplicit + t : Int) := by
      refine zpow_le_zpow_right₀ one_le_two ?_
      rw [Format.mantissaBits]
      omega
    exact absurd (hle.trans_lt (hfits.lt_two_pow.trans_le (hpow.trans hfull))) (lt_irrefl _)

/-- **Bounds from below** are kept. -/
theorem le_nearest_mul {a b : Nat} (hb : 0 < b) {e t : Int}
    (htarget : f.targetExponent (totalExponent (a / b) e) = t) (he : e ≤ t) {q : ℚ}
    (hq : Representable f q) (hge : q ≤ (a : ℚ) / b * 2 ^ e) : q ≤ (nearest a b e t : ℚ) * 2 ^ t := by
  obtain ⟨m, e', hfits, _, rfl⟩ := hq
  have hunit : (0 : ℚ) < 2 ^ t := by positivity
  rcases le_or_gt t e' with ht | ht
  · rw [mul_two_pow_units m ht] at hge ⊢
    rw [← fraction_mul_unit a b e t] at hge
    have hb' := Nat.mul_pos hb (Nat.two_pow_pos (t - e).toNat)
    have hdiv := le_of_mul_le_mul_right hge hunit
    rw [le_div_iff₀ (Nat.cast_pos.mpr hb')] at hdiv
    refine mul_le_mul_of_nonneg_right (Nat.cast_le.mpr ?_) hunit.le
    exact le_divideHalfEven_of_le hb' (by exact_mod_cast hdiv)
  · -- the rounded mantissa is full, so the number of a smaller unit is below it
    have hleast := hfits.least
    have hfull := (full_nearest f htarget he).resolve_right (by omega)
    have hpow : (2 : ℚ) ^ (f.mantissaBits + e' : Int) ≤
        2 ^ (f.mantissaBitsWithoutImplicit + t : Int) := by
      refine zpow_le_zpow_right₀ one_le_two ?_
      rw [Format.mantissaBits]
      omega
    have hcount : (2 : ℚ) ^ f.mantissaBitsWithoutImplicit ≤ nearest a b e t := by
      exact_mod_cast hfull
    refine (hfits.lt_two_pow.trans_le (hpow.trans ?_)).le
    rw [zpow_add₀ two_ne_zero, zpow_natCast]
    exact mul_le_mul_of_nonneg_right hcount hunit.le

variable {f}

/-- Numbers that are not small keep their digits when they are scaled down. -/
theorem Representable.div_two_pow {q : ℚ} (h : Representable f q) (k : Nat)
    (hlarge : (2 : ℚ) ^ (f.mantissaBits + f.minExponent + k : Int) ≤ q) :
    Representable f (q / 2 ^ k) := by
  obtain ⟨m, e, hfits, hmost, rfl⟩ := h
  have hexponent : f.minExponent + k < e := by
    have hlt := (zpow_lt_zpow_iff_right₀ one_lt_two).mp (hlarge.trans_lt hfits.lt_two_pow)
    omega
  refine ⟨m, e - k, ⟨hfits.lt, Or.inl (hfits.full.resolve_right (by omega)), by omega⟩, by omega, ?_⟩
  rw [zpow_sub₀ two_ne_zero, zpow_natCast, mul_div_assoc]

variable (f)

/-! ## What is stored -/

theorem toRat_settled (s : Sign) {r : Nat} {t : Int} (hr : r ≤ 2 ^ f.mantissaBits) :
    toRat (settled f s r t) = signed s r * 2 ^ t := by
  unfold settled
  split_ifs with hzero hlt
  · subst hzero
    cases s <;> simp [toRat, signed]
  · rfl
  · obtain rfl : r = 2 ^ f.mantissaBits := le_antisymm hr (not_lt.mp hlt)
    rw [toRat, signed_eq s (2 ^ f.mantissaBits), signed_eq, zpow_add_one₀ two_ne_zero,
      Format.mantissaBits, Nat.pow_add]
    push_cast
    ring

theorem abs_toRat_settled (s : Sign) {r : Nat} {t : Int} (hr : r ≤ 2 ^ f.mantissaBits) :
    |toRat (settled f s r t)| = r * 2 ^ t := by
  have hunit : (0 : ℚ) ≤ 2 ^ t := by positivity
  rw [toRat_settled f s hr, abs_mul, abs_signed, abs_of_nonneg hunit]

theorem canonical_settled (s : Sign) {r : Nat} {t : Int}
    (hfull : 2 ^ f.mantissaBitsWithoutImplicit ≤ r ∨ t = f.minExponent) (ht : f.minExponent ≤ t) :
    Canonical f (settled f s r t) := by
  unfold settled
  split_ifs with hzero hlt
  · exact .zero s
  · exact .finite ⟨hlt, hfull, ht⟩
  · refine .finite ⟨?_, Or.inl le_rfl, by omega⟩
    rw [Format.mantissaBits]
    exact Nat.pow_lt_pow_right one_lt_two (by omega)

variable {f}

/-- A number of the format that is not beyond it is stored as it is. -/
theorem unpack_pack_canonical {x : Exact} (hx : Canonical f x) {q : ℚ} (hq : Representable f q)
    (hle : |toRat x| ≤ q) : unpack f (pack f x) = x := by
  obtain ⟨m', e', hfits, hmost, rfl⟩ := hq
  cases hx with
  | zero s => exact unpack_packedZero
  | finite h =>
      rename_i s m e hm
      rw [abs_toRat_finite] at hle
      have hexponent : e ≤ e' := not_lt.mp fun hlt => not_lt.mpr hle (lt_of_exponent_lt hfits h hlt)
      exact unpack_pack_finite f s hm h (lt_of_le_of_lt hexponent hmost)

/-! ## Rounded results -/

/-- What is stored of a value is finite and has the bounds that the value has. -/
structure Within (x : Exact) (q : ℚ) : Prop where
  isFinite : x.isFinite = true
  abs_le : |toRat x| ≤ q

/-- A quotient from zero up, rounded to the format. -/
theorem within_quotient (s : Sign) {a b : Nat} (hb : 0 < b) {e t : Int}
    (htarget : f.targetExponent (totalExponent (a / b) e) = t) (he : e ≤ t) {q : ℚ}
    (hq : Representable f q) (hle : (a : ℚ) / b * 2 ^ e ≤ q) :
    Within (unpack f (pack f (settled f s (nearest a b e t) t))) q := by
  have hbound := nearest_mul_le f hb htarget he hq hle
  rw [← abs_toRat_settled f s (nearest_le f htarget he)] at hbound
  have hcanonical := canonical_settled f s (full_nearest f htarget he)
    (htarget ▸ minExponent_le_targetExponent f _)
  rw [unpack_pack_canonical hcanonical hq hbound]
  exact ⟨hcanonical.isFinite, hbound⟩

/-- A number is rounded as a quotient by one. -/
theorem exists_round_eq (f : Format) (s : Sign) {m : Nat} (hm : 0 < m) (e : Int) :
    ∃ (a : Nat) (e' t : Int), f.targetExponent (totalExponent (a / 1) e') = t ∧ e' ≤ t ∧
      (a : ℚ) / (1 : Nat) * 2 ^ e' = m * 2 ^ e ∧
      UnpackedFloat.round f s m e = settled f s (nearest a 1 e' t) t := by
  generalize htarget : f.targetExponent (totalExponent m e) = t
  refine ⟨m * 2 ^ (e - t).toNat, e - (e - t).toNat, t, target_decreased f hm htarget, by omega, ?_,
    ?_⟩
  · have hunits := mul_two_pow_units m (e := e) (t := e - (e - t).toNat) (by omega)
    have hcount : e - (e - (e - t).toNat) = ((e - t).toNat : Int) := by omega
    rw [hcount, Int.toNat_natCast] at hunits
    rw [hunits, Nat.cast_one, div_one]
  · rw [round_eq_settled f s hm htarget, nearest_mul_two_pow m one_pos]

theorem within_round (s : Sign) {m : Nat} (hm : 0 < m) {e : Int} {q : ℚ} (hq : Representable f q)
    (hle : (m : ℚ) * 2 ^ e ≤ q) : Within (unpack f (pack f (UnpackedFloat.round f s m e))) q := by
  obtain ⟨a, e', t, htarget, he, hvalue, hround⟩ := exists_round_eq f s hm e
  rw [hround]
  exact within_quotient s one_pos htarget he hq (hvalue.trans_le hle)

/-! ## Differences -/

/-- The mantissa of the difference of two numbers, in units of the smaller exponent. -/
def alignedDifference (s s' : Sign) (m m' : Nat) (e e' : Int) : Int :=
  signed s (m * 2 ^ (e - min e e').toNat) - signed s' (m' * 2 ^ (e' - min e e').toNat)

theorem apply_eq_signed (s : Sign) (n : Nat) : s.apply (n : Int) = signed s n := by
  cases s <;> rfl

theorem sub_finite (f : Format) {s s' : Sign} {m m' : Nat} {e e' : Int} (hm : 0 < m)
    (hm' : 0 < m') :
    sub f (.finite s m e hm) (.finite s' m' e' hm') =
      UnpackedFloat.normalize f (alignedDifference s s' m m' e e') (min e e') .positive := by
  simp only [sub, decreaseExponent, Nat.shiftLeft_eq, apply_eq_signed, alignedDifference]

theorem alignedDifference_mul (s s' : Sign) (m m' : Nat) (e e' : Int) :
    (alignedDifference s s' m m' e e' : ℚ) * 2 ^ min e e' =
      signed s m * 2 ^ e - signed s' m' * 2 ^ e' := by
  have hunits : ∀ (s : Sign) (m : Nat) {e t : Int}, t ≤ e →
      (signed s (m * 2 ^ (e - t).toNat) : ℚ) * 2 ^ t = signed s m * 2 ^ e := by
    intro s m e t h
    rw [signed_eq, Int.cast_mul, Int.cast_natCast, mul_assoc, ← mul_two_pow_units m h, ← mul_assoc,
      signed_eq s m, Int.cast_mul, Int.cast_natCast]
  rw [alignedDifference, Int.cast_sub, sub_mul, hunits s m (min_le_left _ _),
    hunits s' m' (min_le_right _ _)]

/-! ## Quotients -/

/-- The exponent that a division works with. -/
def quotientExponent (f : Format) (m m' : Nat) (e e' : Int) : Int :=
  min (e - e') (f.targetExponent (totalExponent m e - totalExponent m' e'))

/-- The digits that a division computes reach the unit of the quotient. -/
theorem quotientExponent_le {m m' k : Nat} (hm : 0 < m) (hm' : 0 < m') {e e' : Int}
    (hk : (k : Int) = e - e' - quotientExponent f m m' e e') :
    quotientExponent f m m' e e' ≤ f.targetExponent
      (totalExponent (m * 2 ^ k / m') (quotientExponent f m m' e e')) := by
  have hmin : quotientExponent f m m' e e' ≤
      f.targetExponent (totalExponent m e - totalExponent m' e') := min_le_right _ _
  generalize quotientExponent f m m' e e' = t at hk hmin
  rcases le_max_iff.mp hmin with hfull | hleast
  · -- the dividend is long enough for a full mantissa
    simp only [totalExponent] at hfull
    obtain ⟨j, hj⟩ := Int.eq_ofNat_of_zero_le
      (by rw [Format.mantissaBits] at hfull; omega : 0 ≤ (m.log2 + k - m'.log2 - 1 : Int))
    have hquotient : 2 ^ j ≤ m * 2 ^ k / m' := by
      rw [Nat.le_div_iff_mul_le hm']
      calc 2 ^ j * m' ≤ 2 ^ j * 2 ^ (m'.log2 + 1) :=
            Nat.mul_le_mul_left _ Nat.lt_log2_self.le
        _ = 2 ^ m.log2 * 2 ^ k := by
            rw [← Nat.pow_add, ← Nat.pow_add]
            congr 1
            omega
        _ ≤ m * 2 ^ k := Nat.mul_le_mul_right _ (Nat.log2_self_le hm.ne')
    have hlog : j ≤ (m * 2 ^ k / m').log2 :=
      (Nat.le_log2 (lt_of_lt_of_le (Nat.two_pow_pos j) hquotient).ne').mpr hquotient
    rw [Format.targetExponent, totalExponent]
    omega
  · exact hleast.trans (minExponent_le_targetExponent f _)

/-- A quotient of finite numbers is rounded from as many digits as its unit asks for. -/
theorem exists_div_eq (f : Format) (s s' : Sign) {m m' : Nat} (hm : 0 < m) (hm' : 0 < m')
    (e e' : Int) :
    ∃ (a : Nat) (k t : Int), f.targetExponent (totalExponent (a / m') k) = t ∧ k ≤ t ∧
      (a : ℚ) / m' * 2 ^ k = m * 2 ^ e / (m' * 2 ^ e') ∧
      div f (.finite s m e hm) (.finite s' m' e' hm') = settled f (s / s') (nearest a m' k t) t := by
  obtain ⟨k, hk⟩ := Int.eq_ofNat_of_zero_le
    (sub_nonneg.mpr (min_le_left _ _) : 0 ≤ e - e' - quotientExponent f m m' e e')
  have hexponent := quotientExponent_le hm hm' hk.symm
  have hdiv : div f (.finite s m e hm) (.finite s' m' e' hm') =
      roundWithAccuracy f (s / s') (m * 2 ^ k / m') (quotientExponent f m m' e e')
        (accuracyOfFraction (m * 2 ^ k % m') m') := by
    have hshift : (e - e' - quotientExponent f m m' e e').toNat = k := by rw [hk]; rfl
    rw [← hshift]
    simp only [div, divCore, Nat.shiftLeft_eq]
    rfl
  refine ⟨m * 2 ^ k, quotientExponent f m m' e e', _, rfl, hexponent, ?_, ?_⟩
  · have hpow : (2 : ℚ) ^ k * 2 ^ quotientExponent f m m' e e' = 2 ^ e / 2 ^ e' := by
      rw [← zpow_natCast, ← zpow_add₀ two_ne_zero, ← zpow_sub₀ two_ne_zero]
      congr 1
      omega
    push_cast
    rw [mul_div_right_comm, mul_assoc, hpow, mul_div_mul_comm]
  · rw [hdiv, roundWithAccuracy_ofFraction f _ hm' rfl hexponent]

/-! ## Products -/

/-- The positive infinity, or a finite number that is not below a bound. -/
inductive AtLeast (q : ℚ) : Exact → Prop
  | infinity : AtLeast q (.infinity .positive)
  | finite {x : Exact} (hfinite : x.isFinite = true) (hle : q ≤ toRat x) : AtLeast q x

theorem AtLeast.not_isZero {q : ℚ} {x : Exact} (h : AtLeast q x) (hq : 0 < q) : x.isZero = false := by
  cases h with
  | infinity => rfl
  | finite hfinite hle =>
      rw [← Bool.not_eq_true, isZero_iff_toRat hfinite]
      exact (hq.trans_le hle).ne'

/-- A quotient from zero up, rounded to the format. -/
theorem atLeast_quotient {a b : Nat} (hb : 0 < b) {e t : Int}
    (htarget : f.targetExponent (totalExponent (a / b) e) = t) (he : e ≤ t) {q : ℚ}
    (hq : Representable f q) (hge : q ≤ (a : ℚ) / b * 2 ^ e) :
    AtLeast q (unpack f (pack f (settled f .positive (nearest a b e t) t))) := by
  have hbound := le_nearest_mul f hb htarget he hq hge
  have hfull := full_nearest f htarget he
  have hleast : f.minExponent ≤ t := htarget ▸ minExponent_le_targetExponent f _
  rcases unpack_pack_settled f .positive hfull hleast with hstored | hstored
  · rw [hstored]
    refine .finite (canonical_settled f _ hfull hleast).isFinite ?_
    rw [toRat_settled f _ (nearest_le f htarget he)]
    exact hbound
  · rw [hstored]
    exact .infinity

theorem atLeast_round {m : Nat} (hm : 0 < m) {e : Int} {q : ℚ} (hq : Representable f q)
    (hge : q ≤ (m : ℚ) * 2 ^ e) :
    AtLeast q (unpack f (pack f (UnpackedFloat.round f .positive m e))) := by
  obtain ⟨a, e', t, htarget, he, hvalue, hround⟩ := exists_round_eq f .positive hm e
  rw [hround]
  exact atLeast_quotient one_pos htarget he hq (hge.trans_eq hvalue.symm)

/-- **Products** of positive numbers with enough digits. -/
theorem atLeast_mul {m m' : Nat} {e e' : Int} (hm : 0 < m) (hm' : 0 < m')
    (hfull : 2 ^ f.mantissaBitsWithoutImplicit ≤ m * m') {q : ℚ} (hq : Representable f q)
    (hge : q ≤ (m : ℚ) * 2 ^ e * (m' * 2 ^ e')) :
    AtLeast q (unpack f (pack f
      (mul f (.finite .positive m e hm) (.finite .positive m' e' hm')))) := by
  have hexponent : e + e' ≤ f.targetExponent (totalExponent (m * m') (e + e')) := by
    have hlog := (Nat.le_log2 (Nat.mul_pos hm hm').ne').mpr hfull
    rw [Format.targetExponent, totalExponent, Format.mantissaBits]
    omega
  have hrounded := roundWithAccuracy_ofFraction f .positive (a := m * m') one_pos
    (by rw [Nat.div_one]) hexponent
  rw [Nat.div_one, Nat.mod_one] at hrounded
  have hmul : mul f (.finite .positive m e hm) (.finite .positive m' e' hm') =
      roundWithAccuracy f .positive (m * m') (e + e') (accuracyOfFraction 0 1) := rfl
  rw [hmul, hrounded]
  have hdigits : m * m' / 1 = m * m' := Nat.div_one _
  refine atLeast_quotient one_pos (by rw [hdigits]) hexponent hq (hge.trans_eq ?_)
  rw [zpow_add₀ two_ne_zero]
  push_cast
  ring

end

/-! ## Counts -/

theorem representable_one : Representable .binary64 1 :=
  (zpow_zero (2 : ℚ)) ▸ representable_two_pow (k := 0) (by decide) (by decide)

theorem atLeast_ofNat {n : Nat} (h : 0 < n) :
    AtLeast 1 (repacked (UnpackedFloat.ofNat .binary64 n)) := by
  have hround : UnpackedFloat.ofNat .binary64 n = UnpackedFloat.round .binary64 .positive n 0 :=
    normalize_signed .binary64 .positive h 0 .positive
  have hone : (1 : ℚ) ≤ n := Nat.one_le_cast.mpr h
  rw [hround]
  exact atLeast_round h representable_one (by rwa [zpow_zero, mul_one])

/-- Times a count, a number that is not below a positive bound is not below it either. -/
theorem AtLeast.mul_full {q : ℚ} {x y : Exact} (hx : AtLeast q x) (hq : Representable .binary64 q)
    (hpos : 0 < q) (hy : AtLeast 1 y) (hfull : Full y) :
    AtLeast q (repacked (mul .binary64 x y)) := by
  have hinfinity : AtLeast q (repacked (.infinity .positive)) := by
    rw [repacked_infinity]
    exact .infinity
  cases hx with
  | infinity =>
      cases hfull with
      | infinity => exact hinfinity
      | finite _ _ _ => exact hinfinity
  | finite hfinite hle =>
      have hpositive : ∃ m e hm, x = .finite .positive m e hm := by
        have hvalue := hpos.trans_le hle
        cases x with
        | infinity s => exact absurd hfinite nofun
        | notANumber => exact absurd hfinite nofun
        | zero s => exact absurd hvalue (lt_irrefl 0)
        | finite s m e hm =>
            cases s with
            | positive => exact ⟨m, e, hm, rfl⟩
            | negative =>
                rw [toRat_negative] at hvalue
                have hm' : (0 : ℚ) < m := Nat.cast_pos.mpr hm
                exact absurd hvalue (not_lt.mpr (by rw [neg_nonpos]; positivity))
      obtain ⟨m, e, hm, rfl⟩ := hpositive
      rw [toRat_positive] at hle
      cases hfull with
      | infinity => exact hinfinity
      | finite hdigits _ _ =>
          rename_i m' e' hm' _ _
          cases hy with
          | finite _ hone =>
              rw [toRat_positive] at hone
              have hscaled : (m : ℚ) * 2 ^ e ≤ m * 2 ^ e * (m' * 2 ^ e') :=
                le_mul_of_one_le_right (hpos.le.trans hle) hone
              exact atLeast_mul hm hm' (le_trans hdigits (Nat.le_mul_of_pos_left m' hm)) hq
                (hle.trans hscaled)

theorem atLeast_natCast {n : Nat} (h : 0 < n) : AtLeast 1 (ofFloat (n : Float)) := by
  rcases ofFloat_natCast n with ⟨_, hcount⟩ | ⟨hlong, hcount⟩
  · have hone : AtLeast 1 (.finite .positive (2 ^ 52) (-52) (by decide)) := by
      refine .finite rfl ?_
      rw [toRat_positive]
      norm_num
    rw [hcount]
    exact (atLeast_ofNat h).mul_full representable_one one_pos hone
      (.finite le_rfl (by decide) (by decide))
  · rw [hcount, ofScientific_natCast h]
    refine atLeast_mul _ _ (by show 2 ^ 52 ≤ _; omega) representable_one ?_
    have hcount : (1 : ℚ) ≤ n := Nat.one_le_cast.mpr h
    have hvalue : ((n * 2 ^ 53 : Nat) : ℚ) * 2 ^ (-53 : Int) * ((1 : Nat) * 2 ^ (0 : Int)) = n := by
      push_cast
      norm_num
      ring
    rwa [hvalue]

end Exact

open Exact
open Float.Model (UnpackedFloat)

/-! ## Binary64 numbers -/

section

variable {x y : Float} {q : ℚ}

theorem representable_abs_ofFloat (hx : x.isFinite = true) :
    Representable .binary64 |valueOf x| := by
  have hstored := repacked_ofFloat x
  have hcanonical := canonical_ofFloat hx
  rw [valueOf]
  cases hvalue : ofFloat x with
  | zero s =>
      exact ⟨0, -1074, ⟨by decide, Or.inr rfl, le_rfl⟩, by decide, by simp [toRat]⟩
  | finite s m e hm =>
      rw [hvalue] at hstored hcanonical
      cases hcanonical with
      | finite h =>
          refine ⟨m, e, h, not_le.mp fun hmost => ?_, abs_toRat_finite⟩
          rw [repacked, unpack_pack_infinity .binary64 s hm hmost] at hstored
          cases hstored
  | infinity s =>
      rw [hvalue] at hcanonical
      cases hcanonical
  | notANumber =>
      rw [hvalue] at hcanonical
      cases hcanonical

theorem le_of_within_of_atLeast (hx : Within (ofFloat x) q) (hy : AtLeast q (ofFloat y)) :
    x ≤ y := by
  have hcanonical : (ofFloat y).isFinite = true → Canonical .binary64 (ofFloat y) :=
    canonical_ofFloat
  rw [Float.le_iff]
  generalize ofFloat y = y at hy hcanonical
  cases hy with
  | infinity =>
      rw [UnpackedFloat.le, compare_infinity hx.isFinite]
      rfl
  | finite hfinite hle =>
      rw [le_iff_toRat_le (canonical_ofFloat hx.isFinite) (hcanonical hfinite)]
      exact (le_abs_self _).trans (hx.abs_le.trans hle)

/-- Counts are at least one. -/
theorem one_le_natCast {n : Nat} (h : 0 < n) : (1 : Float) ≤ n := by
  have hone : ofFloat 1 = .finite .positive (2 ^ 52) (-52) (by decide) := rfl
  refine le_of_within_of_atLeast (q := 1) ?_ (atLeast_natCast h)
  rw [hone]
  refine ⟨rfl, ?_⟩
  rw [abs_toRat_finite]
  norm_num

end

end BatchNorm
