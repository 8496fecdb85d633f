import BatchNorm.Proofs.Comparison.Integers
import BatchNorm.Proofs.Numeric.Monotone

/-!
# Operations are rounded once

A result of arithmetic is its exact value, rounded: whatever number of the format bounds the
exact value bounds the result as well (`Rounds`). So a result is exact if the exact value is
a number of the format (`Rounds.exact`), and it is finite if the exact value is not beyond
the range (`Rounds.within`). Sums, differences, products and quotients of finite numbers are
such results, and so are counts (`rounds_natCast`); of a square root it is enough to know a
bound from below (`atLeast_sqrt`).
-/

set_option autoImplicit false

namespace BatchNorm

namespace Exact

open Float.Model (Format UnpackedFloat totalExponent)
open Float.Model.UnpackedFloat

variable {f : Format}

theorem Representable.neg {q : ℚ} (hq : Representable f |q|) : Representable f |(-q)| := by
  have habs : |(-q)| = |q| := abs_eq_abs.mpr (Or.inr rfl)
  rwa [habs]

/-- What the format makes of a rational number: bounds that are numbers of the format are
kept. -/
structure Rounds (f : Format) (v : ℚ) (x : Exact) : Prop where
  isNaN : x.isNaN = false
  extended_le : ∀ {q : ℚ}, Representable f |q| → v ≤ q → extended x ≤ ((q : ℝ) : EReal)
  le_extended : ∀ {q : ℚ}, Representable f |q| → q ≤ v → ((q : ℝ) : EReal) ≤ extended x

namespace Rounds

variable {v : ℚ} {x : Exact}

theorem neg (h : Rounds f v x) : Rounds f (-v) x.neg := by
  refine ⟨(isNaN_neg x).trans h.isNaN, fun {q} hq hle => ?_, fun {q} hq hle => ?_⟩
  · have hbound := h.le_extended (q := -q) hq.neg (by linarith)
    rw [Rat.cast_neg, EReal.coe_neg] at hbound
    rw [extended_neg]
    exact EReal.neg_le.mp hbound
  · have hbound := h.extended_le (q := -q) hq.neg (by linarith)
    rw [Rat.cast_neg, EReal.coe_neg] at hbound
    rw [extended_neg]
    exact EReal.le_neg.mp hbound

theorem within (h : Rounds f v x) {q : ℚ} (hq : Representable f q) (hle : |v| ≤ q) : Within x q := by
  have habs : |q| = q := abs_of_nonneg ((abs_nonneg v).trans hle)
  obtain ⟨hlow, hhigh⟩ := abs_le.mp hle
  have hle := h.extended_le (q := q) (by rwa [habs]) hhigh
  have hge := h.le_extended (q := -q) (habs.symm ▸ hq : Representable f |q|).neg hlow
  have hfinite := isFinite_of_extended h.isNaN hge hle
  rw [extended_of_isFinite hfinite] at hle hge
  exact ⟨hfinite, abs_le.mpr ⟨strictMono_place.le_iff_le.mp hge, strictMono_place.le_iff_le.mp hle⟩⟩

theorem le_toRat (h : Rounds f v x) (hx : x.isFinite = true) {q : ℚ} (hq : Representable f |q|)
    (hle : q ≤ v) : q ≤ toRat x := by
  have hge := h.le_extended hq hle
  rw [extended_of_isFinite hx] at hge
  exact strictMono_place.le_iff_le.mp hge

theorem toRat_le (h : Rounds f v x) (hx : x.isFinite = true) {q : ℚ} (hq : Representable f |q|)
    (hle : v ≤ q) : toRat x ≤ q := by
  have hle := h.extended_le hq hle
  rw [extended_of_isFinite hx] at hle
  exact strictMono_place.le_iff_le.mp hle

/-- **Exact results.** A number of the format is left as it is. -/
theorem exact (h : Rounds f v x) (hv : Representable f |v|) : x.isFinite = true ∧ toRat x = v := by
  have hfinite := (h.within hv le_rfl).isFinite
  exact ⟨hfinite, le_antisymm (h.toRat_le hfinite hv le_rfl) (h.le_toRat hfinite hv le_rfl)⟩

end Rounds

/-! ## Numbers of the format -/

theorem representable_zero (hf : f.minExponent < endExponent f) : Representable f 0 :=
  ⟨0, f.minExponent, ⟨Nat.two_pow_pos _, Or.inr rfl, le_rfl⟩, hf, by rw [Nat.cast_zero, zero_mul]⟩

/-- A zero or a number with a sign, and what a conversion makes of it. -/
theorem exists_number {q : ℚ} (hq : Representable f |q|) :
    ∃ x : Exact, x.isFinite = true ∧ toRat x = q ∧ converted f x = x := by
  obtain ⟨m, e, hfits, hmost, hvalue⟩ := hq
  rcases Nat.eq_zero_or_pos m with rfl | hm
  · rw [Nat.cast_zero, zero_mul, abs_eq_zero] at hvalue
    exact ⟨.zero .positive, rfl, hvalue.symm, converted_zero f .positive⟩
  · have hstored : ∀ s : Sign, converted f (.finite s m e hm) = .finite s m e hm := by
      intro s
      rw [converted, roundTo, round_of_fits f s hm hfits, unpack_pack_finite f s hm hfits hmost]
    rcases abs_choice q with habs | habs
    · exact ⟨.finite .positive m e hm, rfl, by rw [toRat_positive, ← hvalue, habs], hstored _⟩
    · exact ⟨.finite .negative m e hm, rfl, by rw [toRat_negative, ← hvalue, habs, neg_neg], hstored _⟩

/-- **Conversions** round. -/
theorem rounds_converted (hf : f.minExponent < endExponent f) {x : Exact} (hx : x.isFinite = true) :
    Rounds f (toRat x) (converted f x) := by
  refine ⟨(isNaN_converted f x).trans (not_isNaN hx), fun {q} hq hle => ?_, fun {q} hq hle => ?_⟩
  · obtain ⟨y, hy, rfl, hstored⟩ := exists_number hq
    have hle : extended x ≤ extended y := by
      rw [extended_of_isFinite hx, extended_of_isFinite hy]
      exact strictMono_place.monotone hle
    have hmono := extended_converted_mono hf (not_isNaN hx) (not_isNaN hy) hle
    rwa [hstored, extended_of_isFinite hy] at hmono
  · obtain ⟨y, hy, rfl, hstored⟩ := exists_number hq
    have hle : extended y ≤ extended x := by
      rw [extended_of_isFinite hx, extended_of_isFinite hy]
      exact strictMono_place.monotone hle
    have hmono := extended_converted_mono hf (not_isNaN hy) (not_isNaN hx) hle
    rwa [hstored, extended_of_isFinite hy] at hmono

/-! ## Differences and sums -/

theorem Canonical.neg {x : Exact} (hx : Canonical f x) : Canonical f x.neg := by
  cases hx with
  | zero s => exact .zero _
  | finite h => exact .finite h

/-- A number of the format is stored as what a conversion makes of it. -/
theorem unpack_pack_eq_converted {x : Exact} (hx : Canonical f x) :
    unpack f (pack f x) = converted f x := by
  cases hx with
  | zero s => rfl
  | finite h => rw [converted, roundTo, round_of_fits f _ _ h]

theorem rounds_normalize (hf : f.minExponent < endExponent f) (i : Int) (e : Int) :
    Rounds f (i * 2 ^ e) (unpack f (pack f (UnpackedFloat.normalize f i e .positive))) := by
  by_cases hi : i = 0
  · subst hi
    have hzero := rounds_converted hf (x := .zero .positive) rfl
    rw [Int.cast_zero, zero_mul]
    exact hzero
  · obtain ⟨s, hs⟩ := exists_signed hi
    have hm : 0 < i.natAbs := by omega
    rw [hs, normalize_signed f s hm]
    exact rounds_converted hf (x := .finite s i.natAbs e hm) rfl

/-- **Differences.** -/
theorem rounds_sub (hf : f.minExponent < endExponent f) {x y : Exact} (hx : Canonical f x)
    (hy : Canonical f y) : Rounds f (toRat x - toRat y) (unpack f (pack f (sub f x y))) := by
  have hzero : ∀ s : Sign, toRat (.zero s) = 0 := fun _ => rfl
  cases hx with
  | zero s => cases hy with
    | zero s' =>
        have hresult : ∃ z, sub f (.zero s) (.zero s') = .zero z := by
          simp only [sub]
          split <;> exact ⟨_, rfl⟩
        obtain ⟨z, hz⟩ := hresult
        rw [hz, hzero, hzero, sub_zero]
        exact rounds_converted hf (x := .zero z) rfl
    | finite h' =>
        rename_i s' m' e' hm'
        have hvalue := toRat_neg (.finite s' m' e' hm')
        have hcanonical : Canonical f (.finite (-s') m' e' hm') := .finite h'
        rw [hzero, zero_sub, ← hvalue]
        show Rounds f _ (unpack f (pack f (.finite (-s') m' e' hm')))
        rw [unpack_pack_eq_converted hcanonical]
        exact rounds_converted hf rfl
  | finite h => cases hy with
    | zero s' =>
        rename_i s m e hm
        have hcanonical : Canonical f (.finite s m e hm) := .finite h
        rw [hzero, sub_zero]
        show Rounds f _ (unpack f (pack f (.finite s m e hm)))
        rw [unpack_pack_eq_converted hcanonical]
        exact rounds_converted hf rfl
    | finite h' =>
        rw [sub_finite, toRat, toRat, ← alignedDifference_mul]
        exact rounds_normalize hf _ _

theorem add_eq_sub_neg (x y : Exact) : add f x y = sub f x y.neg := by
  have hsame : ∀ s s' : Sign, (s == s') = (s == - -s') := by
    intro s s'
    cases s' <;> rfl
  cases x with
  | infinity s => cases y with
    | infinity s' => simp only [add, sub, UnpackedFloat.neg, ← hsame]
    | _ => rfl
  | zero s => cases y with
    | zero s' => simp only [add, sub, UnpackedFloat.neg, ← hsame]
    | infinity s' => cases s' <;> rfl
    | finite s' m' e' hm' => cases s' <;> rfl
    | notANumber => rfl
  | notANumber => cases y <;> rfl
  | finite s m e hm => cases y with
    | infinity s' => cases s' <;> rfl
    | finite s' m' e' hm' =>
        simp only [add, sub, UnpackedFloat.neg, apply_neg, sub_neg_eq_add]
    | _ => rfl

/-- **Sums.** -/
theorem rounds_add (hf : f.minExponent < endExponent f) {x y : Exact} (hx : Canonical f x)
    (hy : Canonical f y) : Rounds f (toRat x + toRat y) (unpack f (pack f (add f x y))) := by
  rw [add_eq_sub_neg, ← sub_neg_eq_add, ← toRat_neg]
  exact rounds_sub hf hx hy.neg

/-! ## Products -/

theorem signed_mul_signed (s s' : Sign) (m m' : Nat) :
    signed (s * s') (m * m') = signed s m * signed s' m' := by
  have hsign : signed (s * s') 1 = signed s 1 * signed s' 1 := by cases s <;> cases s' <;> rfl
  have hunit : ∀ (s : Sign) (n : Nat), signed s n = signed s 1 * n := by
    intro s n
    rw [← signed_mul, Nat.one_mul]
  rw [hunit, hsign, hunit s m, hunit s' m', Nat.cast_mul]
  ring

/-- A product with enough digits for its unit. -/
theorem rounds_mul_of_le (hf : f.minExponent < endExponent f) (s s' : Sign) {m m' : Nat}
    {e e' : Int} (hm : 0 < m) (hm' : 0 < m')
    (hexponent : e + e' ≤ f.targetExponent (totalExponent (m * m') (e + e'))) :
    Rounds f (toRat (.finite s m e hm) * toRat (.finite s' m' e' hm'))
      (unpack f (pack f (mul f (.finite s m e hm) (.finite s' m' e' hm')))) := by
  have hpos := Nat.mul_pos hm hm'
  have hrounded := roundWithAccuracy_ofFraction f (s * s') (a := m * m') one_pos
    (by rw [Nat.div_one]) hexponent
  rw [Nat.div_one, Nat.mod_one, ← round_eq_settled f _ hpos rfl] at hrounded
  have hmul : mul f (.finite s m e hm) (.finite s' m' e' hm') =
      roundWithAccuracy f (s * s') (m * m') (e + e') (accuracyOfFraction 0 1) := rfl
  have hvalue : toRat (.finite s m e hm) * toRat (.finite s' m' e' hm') =
      toRat (.finite (s * s') (m * m') (e + e') hpos) := by
    rw [toRat, toRat, toRat, signed_mul_signed, zpow_add₀ two_ne_zero]
    push_cast
    ring
  rw [hmul, hrounded, hvalue]
  exact rounds_converted hf (x := .finite (s * s') (m * m') (e + e') hpos) rfl

/-- **Products.** -/
theorem rounds_mul (hf : f.minExponent < endExponent f) (hleast : f.minExponent ≤ 0) {x y : Exact}
    (hx : Canonical f x) (hy : Canonical f y) :
    Rounds f (toRat x * toRat y) (unpack f (pack f (mul f x y))) := by
  have hzero : ∀ s : Sign, toRat (.zero s) = 0 := fun _ => rfl
  cases hx with
  | zero s =>
      rw [hzero, zero_mul]
      cases hy with
      | zero s' => exact rounds_converted hf (x := .zero (s * s')) rfl
      | finite h' => exact rounds_converted hf (x := .zero _) rfl
  | finite h => cases hy with
    | zero s' =>
        rw [hzero, mul_zero]
        exact rounds_converted hf (x := .zero _) rfl
    | finite h' =>
        rename_i s m e hm s' m' e' hm'
        refine rounds_mul_of_le hf s s' hm hm' ?_
        -- one of the mantissas is full, or the exponents are the least
        have hfull : 2 ^ f.mantissaBitsWithoutImplicit ≤ m * m' ∨ e + e' ≤ f.minExponent := by
          rcases h.full with hfull | he
          · exact Or.inl (hfull.trans (Nat.le_mul_of_pos_right m hm'))
          · rcases h'.full with hfull | he'
            · exact Or.inl (hfull.trans (Nat.le_mul_of_pos_left m' hm))
            · exact Or.inr (by omega)
        rcases hfull with hfull | hle
        · have hlog := (Nat.le_log2 (Nat.mul_pos hm hm').ne').mpr hfull
          rw [Format.targetExponent, totalExponent, Format.mantissaBits]
          omega
        · exact hle.trans (minExponent_le_targetExponent f _)

/-! ## Quotients -/

theorem AtLeast.le_extended {q : ℚ} {x : Exact} (h : AtLeast q x) :
    x.isNaN = false ∧ ((q : ℝ) : EReal) ≤ extended x := by
  cases h with
  | infinity => exact ⟨rfl, le_top⟩
  | finite hfinite hle =>
      rw [extended_of_isFinite hfinite]
      exact ⟨not_isNaN hfinite, strictMono_place.monotone hle⟩

theorem rounds_quotient (hf : f.minExponent < endExponent f) (s : Sign) {a b : Nat} (hb : 0 < b)
    {e t : Int} (htarget : f.targetExponent (totalExponent (a / b) e) = t) (he : e ≤ t) :
    Rounds f (signed s 1 * (a / b * 2 ^ e))
      (unpack f (pack f (settled f s (nearest a b e t) t))) := by
  have hnonneg : (0 : ℚ) ≤ a / b * 2 ^ e := by positivity
  have hpositive : Rounds f (a / b * 2 ^ e)
      (unpack f (pack f (settled f .positive (nearest a b e t) t))) := by
    obtain ⟨hnan, hbelow⟩ := (atLeast_quotient hb htarget he (representable_zero hf) hnonneg).le_extended
    refine ⟨hnan, fun {q} hq hle => ?_, fun {q} hq hle => ?_⟩
    · rw [abs_of_nonneg (hnonneg.trans hle)] at hq
      have hwithin := within_quotient .positive hb htarget he hq hle
      rw [extended_of_isFinite hwithin.isFinite]
      exact strictMono_place.monotone ((le_abs_self _).trans hwithin.abs_le)
    · rcases le_total 0 q with hq0 | hq0
      · rw [abs_of_nonneg hq0] at hq
        exact (atLeast_quotient hb htarget he hq hle).le_extended.2
      · exact (strictMono_place.monotone hq0).trans hbelow
  cases s with
  | positive => simpa [signed] using hpositive
  | negative =>
      have hneg := hpositive.neg
      rw [← unpack_pack_settled_neg, ← neg_one_mul] at hneg
      exact_mod_cast hneg

/-- **Quotients** by anything but zero. -/
theorem rounds_div (hf : f.minExponent < endExponent f) {x y : Exact} (hx : Canonical f x)
    (hy : Canonical f y) (hzero : toRat y ≠ 0) :
    Rounds f (toRat x / toRat y) (unpack f (pack f (div f x y))) := by
  cases hy with
  | zero s' => exact absurd rfl hzero
  | finite h' =>
      rename_i s' m' e' hm'
      cases hx with
      | zero s =>
          have hvalue : toRat (.zero s) / toRat (.finite s' m' e' hm') = 0 := zero_div _
          rw [hvalue]
          exact rounds_converted hf (x := .zero (s / s')) rfl
      | finite h =>
          rename_i s m e hm
          obtain ⟨a, k, t, htarget, hk, hquotient, hdiv⟩ := exists_div_eq f s s' hm hm' e e'
          have hvalue : toRat (.finite s m e hm) / toRat (.finite s' m' e' hm') =
              signed (s / s') 1 * (a / m' * 2 ^ k) := by
            have hsign : signed (s / s') 1 = signed s 1 * signed s' 1 := by
              cases s <;> cases s' <;> rfl
            have hinverse : (signed s' 1 : ℚ)⁻¹ = signed s' 1 := by cases s' <;> norm_num [signed]
            rw [hquotient, toRat_finite, toRat_finite, hsign, mul_div_mul_comm, div_eq_mul_inv _
              (signed s' 1 : ℚ), hinverse, Int.cast_mul]
          rw [hdiv, hvalue]
          exact rounds_quotient hf _ hm' htarget hk

/-! ## Counts -/

/-- A short count is stored as it is, a long one is rounded. -/
theorem rounds_natCast {n : Nat} (hn : 0 < n) : Rounds .binary64 n (ofFloat (n : Float)) := by
  rcases ofFloat_natCast n with ⟨hshort, hcount⟩ | ⟨hlong, hcount⟩
  · have hvalue : UnpackedFloat.ofInt .binary64 n = _ :=
      (ofInt_signed _ .positive hn).trans (round_natCast _ hn hshort)
    have hstored : repacked (UnpackedFloat.ofInt .binary64 n) = UnpackedFloat.ofInt .binary64 n :=
      repacked_ofInt (i := n) hshort
    have hone := mul_one_of_fits .positive (Nat.mul_pos hn (Nat.two_pow_pos _))
      (fits_natCast hn hshort) 52
    have hconverted : ofFloat (n : Float) = converted .binary64 (ofInt n) := by
      rw [hcount, UnpackedFloat.ofNat, hstored, hvalue]
      refine (congrArg repacked hone).trans ?_
      rw [← hvalue, ← roundTo_ofInt]
      rfl
    have hrounds := rounds_converted (f := Format.binary64) (by decide) (isFinite_ofInt n)
    rw [toRat_ofInt] at hrounds
    rw [hconverted]
    exact_mod_cast hrounds
  · have hdigits : (2 : Nat) ^ 52 ≤ n * 2 ^ 53 * 1 := by omega
    have hlog := (Nat.le_log2 (by omega)).mpr hdigits
    have hrounds : Rounds .binary64
        (toRat (.finite .positive (n * 2 ^ 53) (-53) (Nat.mul_pos hn (Nat.two_pow_pos 53))) *
          toRat (.finite .positive 1 0 one_pos)) _ :=
      rounds_mul_of_le (by decide) .positive .positive _ one_pos (by
        simp only [Format.targetExponent, totalExponent, Format.mantissaBits]
        omega)
    have hvalue : toRat (.finite .positive (n * 2 ^ 53) (-53) (Nat.mul_pos hn (Nat.two_pow_pos 53))) *
        toRat (.finite .positive 1 0 one_pos) = n := by
      rw [toRat_positive, toRat_positive]
      push_cast
      norm_num
      ring
    rw [hvalue] at hrounds
    rw [hcount, ofScientific_natCast hn]
    exact hrounds

/-! ## Square roots -/

/-- How the digits of a root that were not computed compare with one half. -/
theorem accuracy_sqrt (root rest : Nat) :
    (if rest = 0 then Accuracy.exact else .inexact (if rest ≤ root then .lt else .gt)) =
      accuracyOfFraction rest (2 * root + 1) := by
  unfold accuracyOfFraction
  split_ifs with hzero hle
  · rfl
  · rw [Nat.compare_eq_lt.mpr (by omega)]
  · rw [Nat.compare_eq_gt.mpr (by omega)]

/-- The exponent that a square root works with. -/
def rootExponent (f : Format) (m : Nat) (e : Int) : Int :=
  min (e / 2) (f.targetExponent ((totalExponent m e + 1) / 2))

/-- The digits that are computed of a root reach its unit. -/
theorem rootExponent_le {m k : Nat} (hm : 0 < m) {e : Int} (hk : (k : Int) = e - 2 * rootExponent f m e) :
    rootExponent f m e ≤
      f.targetExponent (totalExponent (Nat.sqrt (m * 2 ^ k)) (rootExponent f m e)) := by
  have hmin : rootExponent f m e ≤ f.targetExponent ((totalExponent m e + 1) / 2) :=
    min_le_right _ _
  generalize rootExponent f m e = t at hk hmin
  rcases le_max_iff.mp hmin with hfull | hleast
  · have hlog : 2 * (f.mantissaBits - 1) ≤ m.log2 + k := by
      have hdouble : 2 * (t + f.mantissaBits) ≤ totalExponent m e + 1 := by
        omega
      rw [totalExponent] at hdouble
      omega
    have hsquare : 2 ^ (f.mantissaBits - 1) * 2 ^ (f.mantissaBits - 1) ≤ m * 2 ^ k := by
      rw [← Nat.pow_add, ← Nat.le_log2 (Nat.mul_pos hm (Nat.two_pow_pos k)).ne', log2_mul_two_pow hm]
      omega
    have hroot := Nat.le_sqrt.mpr hsquare
    have hrootlog := (Nat.le_log2 (lt_of_lt_of_le (Nat.two_pow_pos _) hroot).ne').mpr hroot
    rw [Format.targetExponent, totalExponent]
    omega
  · exact hleast.trans (minExponent_le_targetExponent f _)

/-- The digits of a root are not below those of a bound. -/
theorem two_pow_le_root {m j : Nat} (hm : 0 < m) {k t : Int}
    (hle : (2 : ℚ) ^ (2 * k) ≤ (m * 2 ^ j : Nat) * 2 ^ (2 * t)) :
    (2 : ℚ) ^ k ≤ Nat.sqrt (m * 2 ^ j) * 2 ^ t := by
  have hunit : (0 : ℚ) < 2 ^ t := by positivity
  rcases le_or_gt t k with ht | ht
  · obtain ⟨i, hi⟩ := Int.eq_ofNat_of_zero_le (sub_nonneg.mpr ht)
    have hpow : (2 : ℚ) ^ (2 * k) = (2 ^ i * 2 ^ i : Nat) * 2 ^ (2 * t) := by
      rw [← Nat.pow_add, Nat.cast_pow, Nat.cast_ofNat, ← zpow_natCast, ← zpow_add₀ two_ne_zero]
      congr 1
      omega
    rw [hpow] at hle
    have hsquare : 2 ^ i * 2 ^ i ≤ m * 2 ^ j := by
      exact_mod_cast le_of_mul_le_mul_right hle (by positivity : (0 : ℚ) < 2 ^ (2 * t))
    have hroot : ((2 ^ i : Nat) : ℚ) ≤ Nat.sqrt (m * 2 ^ j) :=
      Nat.cast_le.mpr (Nat.le_sqrt.mpr hsquare)
    calc (2 : ℚ) ^ k = (2 ^ i : Nat) * 2 ^ t := by
          rw [Nat.cast_pow, Nat.cast_ofNat, ← zpow_natCast, ← zpow_add₀ two_ne_zero]
          congr 1
          omega
      _ ≤ Nat.sqrt (m * 2 ^ j) * 2 ^ t := mul_le_mul_of_nonneg_right hroot hunit.le
  · -- a bound below the unit
    have hroot : (1 : ℚ) ≤ Nat.sqrt (m * 2 ^ j) := by
      exact_mod_cast Nat.sqrt_pos.mpr (Nat.mul_pos hm (Nat.two_pow_pos j))
    exact (zpow_le_zpow_right₀ one_le_two ht.le).trans (le_mul_of_one_le_left hunit.le hroot)

/-- **Square roots** of positive numbers are not below the root of a bound. -/
theorem atLeast_sqrt {m : Nat} (hm : 0 < m) {e k : Int} (hk : Representable f (2 ^ k))
    (hle : (2 : ℚ) ^ (2 * k) ≤ m * 2 ^ e) :
    AtLeast (2 ^ k) (unpack f (pack f (sqrt f (.finite .positive m e hm)))) := by
  obtain ⟨j, hj⟩ := Int.eq_ofNat_of_zero_le (by
    have hmin : rootExponent f m e ≤ e / 2 := min_le_left _ _
    omega : 0 ≤ e - 2 * rootExponent f m e)
  have hexponent := rootExponent_le hm hj.symm
  have hshift : (e - 2 * rootExponent f m e).toNat = j := by rw [hj]; rfl
  have hunits := mul_two_pow_units m (e := e) (t := 2 * rootExponent f m e) (by omega)
  rw [hshift] at hunits
  rw [hunits] at hle
  have hbound := two_pow_le_root hm hle
  have hsqrt : sqrt f (.finite .positive m e hm) =
      roundWithAccuracy f .positive (Nat.sqrt (m * 2 ^ j)) (rootExponent f m e)
        (accuracyOfFraction (m * 2 ^ j - Nat.sqrt (m * 2 ^ j) * Nat.sqrt (m * 2 ^ j))
          (2 * Nat.sqrt (m * 2 ^ j) + 1)) := by
    rw [← accuracy_sqrt, ← hshift]
    simp only [sqrt, sqrtCore, Nat.shiftLeft_eq]
    rfl
  have hrest : m * 2 ^ j - Nat.sqrt (m * 2 ^ j) * Nat.sqrt (m * 2 ^ j) <
      2 * Nat.sqrt (m * 2 ^ j) + 1 := by
    have hle := Nat.sqrt_le_add (m * 2 ^ j)
    omega
  rw [hsqrt]
  generalize m * 2 ^ j - Nat.sqrt (m * 2 ^ j) * Nat.sqrt (m * 2 ^ j) = rest at hrest
  generalize Nat.sqrt (m * 2 ^ j) = root at hrest hexponent hbound
  generalize rootExponent f m e = t at hexponent hbound
  -- the root is rounded as a fraction between it and the next one
  have hdiv : (rest + root * (2 * root + 1)) / (2 * root + 1) = root := by
    rw [Nat.add_mul_div_right _ _ (by omega), Nat.div_eq_of_lt hrest, zero_add]
  have hmod : (rest + root * (2 * root + 1)) % (2 * root + 1) = rest := by
    rw [Nat.add_mul_mod_self_right, Nat.mod_eq_of_lt hrest]
  have hrounded := roundWithAccuracy_ofFraction f .positive (a := rest + root * (2 * root + 1))
    (b := 2 * root + 1) (by omega) (e := t) rfl (by rwa [hdiv])
  rw [hdiv, hmod] at hrounded
  rw [hrounded]
  refine atLeast_quotient (by omega) (by rw [hdiv]) hexponent hk (hbound.trans ?_)
  refine mul_le_mul_of_nonneg_right ?_ (by positivity)
  calc (root : ℚ) = ((rest + root * (2 * root + 1)) / (2 * root + 1) : Nat) := by rw [hdiv]
    _ ≤ (rest + root * (2 * root + 1) : Nat) / (2 * root + 1 : Nat) := Nat.cast_div_le

/-- Digits that the format has room for make a number of it. -/
theorem representable_of_digits (hf : f.minExponent < endExponent f) {m : Nat} (hm : 0 < m) {e : Int}
    (htarget : f.targetExponent (totalExponent m e) ≤ e) {q : ℚ} (hq : Representable f q)
    (hle : (m : ℚ) * 2 ^ e ≤ q) : Representable f (m * 2 ^ e) := by
  have hfinite := (within_round .positive hm hq hle).isFinite
  have hstored := unpack_pack_round_of_isFinite .positive hm hfinite
  have hrepresentable := representable_of_stored hf (canonical_round .positive hm e) hstored
  rw [toRat_round_of_le .positive hm rfl htarget, abs_toRat_finite] at hrepresentable
  exact hrepresentable

end Exact

open Exact
open Float.Model (Format UnpackedFloat)

/-! ## Binary64 numbers -/

namespace Exact.Rounds

variable {v : ℚ} {x : Exact} {k : Int}

theorem within_two_pow (h : Rounds .binary64 v x) (hleast : -1022 ≤ k) (hmost : k ≤ 1023)
    (hle : |v| ≤ 2 ^ k) : Within x (2 ^ k) :=
  h.within (representable_two_pow hleast hmost) hle

theorem two_pow_le (h : Rounds .binary64 v x) (hx : x.isFinite = true) (hleast : -1022 ≤ k)
    (hmost : k ≤ 1023) (hle : 2 ^ k ≤ v) : 2 ^ k ≤ toRat x := by
  refine h.le_toRat hx ?_ hle
  rw [abs_of_pos (by positivity)]
  exact representable_two_pow hleast hmost

theorem le_neg_two_pow (h : Rounds .binary64 v x) (hx : x.isFinite = true) (hleast : -1022 ≤ k)
    (hmost : k ≤ 1023) (hle : v ≤ -2 ^ k) : toRat x ≤ -2 ^ k := by
  refine h.toRat_le hx (Representable.neg ?_) hle
  rw [abs_of_pos (by positivity)]
  exact representable_two_pow hleast hmost

theorem nonneg (h : Rounds .binary64 v x) (hx : x.isFinite = true) (hv : 0 ≤ v) : 0 ≤ toRat x := by
  refine h.le_toRat hx ?_ hv
  rw [abs_zero]
  exact representable_zero (by decide)

theorem eq_zero (h : Rounds .binary64 0 x) : x.isFinite = true ∧ toRat x = 0 := by
  refine h.exact ?_
  rw [abs_zero]
  exact representable_zero (by decide)

end Exact.Rounds

section

variable {x y : Float}

theorem ofFloat_add (x y : Float) :
    ofFloat (x + y) = repacked (UnpackedFloat.add .binary64 (ofFloat x) (ofFloat y)) := rfl

theorem ofFloat_sqrt (x : Float) :
    ofFloat (Float.sqrt x) = repacked (UnpackedFloat.sqrt .binary64 (ofFloat x)) := rfl

theorem Float.rounds_add (hx : x.isFinite = true) (hy : y.isFinite = true) :
    Rounds .binary64 (valueOf x + valueOf y) (ofFloat (x + y)) :=
  Exact.rounds_add (by decide) (canonical_ofFloat hx) (canonical_ofFloat hy)

theorem Float.rounds_sub (hx : x.isFinite = true) (hy : y.isFinite = true) :
    Rounds .binary64 (valueOf x - valueOf y) (ofFloat (x - y)) :=
  Exact.rounds_sub (by decide) (canonical_ofFloat hx) (canonical_ofFloat hy)

theorem Float.rounds_mul (hx : x.isFinite = true) (hy : y.isFinite = true) :
    Rounds .binary64 (valueOf x * valueOf y) (ofFloat (x * y)) :=
  Exact.rounds_mul (by decide) (by decide) (canonical_ofFloat hx) (canonical_ofFloat hy)

theorem Float.rounds_div (hx : x.isFinite = true) (hy : y.isFinite = true) (hzero : valueOf y ≠ 0) :
    Rounds .binary64 (valueOf x / valueOf y) (ofFloat (x / y)) :=
  Exact.rounds_div (by decide) (canonical_ofFloat hx) (canonical_ofFloat hy) hzero

/-- A positive number is the infinity or has digits. -/
theorem Float.pos_cases (h : 0 < x) : ofFloat x = .infinity .positive ∨
    ∃ m e hm, ofFloat x = .finite .positive m e hm ∧ -1074 ≤ e := by
  have hcanonical : (ofFloat x).isFinite = true → Canonical .binary64 (ofFloat x) :=
    canonical_ofFloat
  rw [Float.lt_iff, ofFloat_zero] at h
  generalize ofFloat x = x at h hcanonical
  cases x with
  | zero s => exact absurd h nofun
  | notANumber => exact absurd h nofun
  | infinity s =>
      cases s with
      | negative => exact absurd h nofun
      | positive => exact Or.inl rfl
  | finite s m e hm =>
      cases s with
      | negative => exact absurd h nofun
      | positive =>
          cases hcanonical rfl with
          | finite hfits => exact Or.inr ⟨m, e, hm, rfl, hfits.least⟩

/-- The square root of a positive number is not small. -/
theorem atLeast_sqrt_of_pos (h : 0 < x) : AtLeast (2 ^ (-537 : Int)) (ofFloat (Float.sqrt x)) := by
  rw [ofFloat_sqrt]
  rcases Float.pos_cases h with hx | ⟨m, e, hm, hx, hleast⟩
  · rw [hx]
    show AtLeast _ (repacked (.infinity .positive))
    rw [repacked_infinity]
    exact .infinity
  · have hone : (1 : ℚ) ≤ m := by exact_mod_cast hm
    have hpow : (2 : ℚ) ^ (2 * (-537) : Int) ≤ 2 ^ e := zpow_le_zpow_right₀ one_le_two hleast
    rw [hx]
    exact Exact.atLeast_sqrt hm (representable_two_pow (by decide) (by decide))
      (hpow.trans (le_mul_of_one_le_left (by positivity) hone))

/-- One over a number that is not small is not large. -/
theorem within_one_div {k : Int} (hleast : -1022 ≤ k) (hmost : k ≤ 1022)
    (hx : AtLeast (2 ^ k) (ofFloat x)) : Within (ofFloat (1 / x)) (2 ^ (-k)) := by
  have hpos : (0 : ℚ) < 2 ^ k := by positivity
  have hone : (1 : Float).isFinite = true := by decide +kernel
  cases hvalue : ofFloat x with
  | infinity s =>
      have hzero : UnpackedFloat.div .binary64 (ofFloat 1) (.infinity s) = .zero (.positive / s) := rfl
      rw [ofFloat_div, hvalue, hzero, repacked_zero]
      refine ⟨rfl, ?_⟩
      show |(0 : ℚ)| ≤ _
      rw [abs_zero]
      positivity
  | notANumber =>
      rw [hvalue] at hx
      cases hx
      contradiction
  | zero s =>
      rw [hvalue] at hx
      cases hx with
      | finite _ hle => exact absurd hle (not_le.mpr hpos)
  | finite s m e hm =>
      have hfinite : x.isFinite = true := congrArg UnpackedFloat.isFinite hvalue
      have hle : 2 ^ k ≤ valueOf x := by
        rw [valueOf, hvalue]
        rw [hvalue] at hx
        cases hx with
        | finite _ hle => exact hle
      have hrounds := Float.rounds_div hone hfinite (hpos.trans_le hle).ne'
      refine hrounds.within_two_pow (by omega) (by omega) ?_
      rw [valueOf_one, abs_of_pos (one_div_pos.mpr (hpos.trans_le hle)), zpow_neg, one_div]
      exact inv_anti₀ hpos hle

end

end BatchNorm
