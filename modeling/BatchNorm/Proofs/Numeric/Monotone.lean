import BatchNorm.Proofs.Numeric.HalfEven
import BatchNorm.Proofs.Numeric.Narrowing

/-!
# Conversions are monotone

With the infinities as its ends the line of the rational numbers has a place for every value
but a NaN (`extended`), and the numbers of a format are compared by their places
(`compare_eq_cmp_extended`). A conversion to a format is monotone (`extended_converted_mono`):
of two numbers that are rounded to multiples of the same unit the larger has no fewer of
them, and a larger unit comes with a full mantissa. An integer whose digits fit the mantissa
is left as it is (`toRat_toSingle_ofInt`).
-/

set_option autoImplicit false

namespace BatchNorm

namespace Exact

open Float.Model (Format UnpackedFloat totalExponent)
open Float.Model.UnpackedFloat

/-! ## The extended line -/

/-- The place of a value on the line with two ends. A NaN has none; it gives zero. -/
noncomputable def extended : Exact → EReal
  | .infinity .positive => ⊤
  | .infinity .negative => ⊥
  | x => ((toRat x : ℝ) : EReal)

theorem extended_of_isFinite {x : Exact} (hx : x.isFinite = true) :
    extended x = ((toRat x : ℝ) : EReal) := by
  cases x with
  | infinity s => exact absurd hx nofun
  | _ => rfl

theorem extended_zero (s : Sign) : extended (.zero s) = 0 := by
  simp [extended, toRat]

theorem extended_of_isNaN {x : Exact} (hx : x.isNaN = true) : extended x = 0 := by
  cases x with
  | notANumber => simp [extended, toRat]
  | _ => cases hx

theorem not_isNaN {x : Exact} (hx : x.isFinite = true) : x.isNaN = false := by
  cases x with
  | notANumber => exact absurd hx nofun
  | _ => rfl

theorem toRat_neg (x : Exact) : toRat x.neg = -toRat x := by
  cases x with
  | infinity s => exact neg_zero.symm
  | zero s => exact neg_zero.symm
  | notANumber => exact neg_zero.symm
  | finite s m e hm =>
      cases s with
      | positive =>
          rw [toRat_positive]
          exact toRat_negative m e hm
      | negative =>
          rw [toRat_negative, neg_neg]
          exact toRat_positive m e hm

theorem extended_neg (x : Exact) : extended x.neg = -extended x := by
  cases x with
  | infinity s => cases s <;> rfl
  | notANumber => rw [UnpackedFloat.neg, extended_of_isNaN rfl, neg_zero]
  | zero s => rw [UnpackedFloat.neg, extended_zero, extended_zero, neg_zero]
  | finite s m e hm =>
      rw [extended_of_isFinite rfl, extended_of_isFinite rfl, toRat_neg, Rat.cast_neg, EReal.coe_neg]

/-- What lies between two numbers is a number. -/
theorem isFinite_of_extended {x : Exact} (hx : x.isNaN = false) {a b : ℝ} (ha : a ≤ extended x)
    (hb : extended x ≤ b) : x.isFinite = true := by
  cases x with
  | infinity s =>
      cases s with
      | negative => exact absurd ha (not_le.mpr (EReal.bot_lt_coe a))
      | positive => exact absurd hb (not_le.mpr (EReal.coe_lt_top b))
  | notANumber => exact absurd hx nofun
  | zero s => rfl
  | finite s m e hm => rfl

theorem isNaN_neg (x : Exact) : x.neg.isNaN = x.isNaN := by
  cases x <;> rfl

theorem isZero_neg (x : Exact) : isZero x.neg = x.isZero := by
  cases x <;> rfl

theorem strictMono_place : StrictMono fun q : ℚ => ((q : ℝ) : EReal) :=
  EReal.coe_strictMono.comp Rat.cast_strictMono

/-- **The order** of the numbers of a format is that of their places. -/
theorem compare_eq_cmp_extended {f : Format} {x y : Exact} (hx : x.isFinite = true → Canonical f x)
    (hy : y.isFinite = true → Canonical f y) (hnx : x.isNaN = false) (hny : y.isNaN = false) :
    x.compare y = some (cmp (extended x) (extended y)) := by
  have hbot : ∀ {z : Exact}, z.isFinite = true → cmp ⊥ (extended z) = .lt := by
    intro z hz
    rw [extended_of_isFinite hz, cmp_eq_lt_iff]
    exact EReal.bot_lt_coe _
  have htop : ∀ {z : Exact}, z.isFinite = true → cmp ⊤ (extended z) = .gt := by
    intro z hz
    rw [extended_of_isFinite hz, cmp_eq_gt_iff]
    exact EReal.coe_lt_top _
  -- a value that is no NaN is an infinity or finite
  have hkind : ∀ {z : Exact}, z.isNaN = false → (∃ s, z = .infinity s) ∨ z.isFinite = true := by
    intro z hz
    cases z with
    | infinity s => exact Or.inl ⟨s, rfl⟩
    | notANumber => exact absurd hz nofun
    | _ => exact Or.inr rfl
  have hinfinity : ∀ {z : Exact} (s : Sign), z.isFinite = true →
      (UnpackedFloat.infinity s).compare z = some (cmp (extended (.infinity s)) (extended z)) := by
    intro z s hz
    cases s with
    | negative =>
        rw [extended, hbot hz]
        cases z <;> first | rfl | exact absurd hz nofun
    | positive =>
        rw [extended, htop hz]
        cases z <;> first | rfl | exact absurd hz nofun
  rcases hkind hnx with ⟨s, rfl⟩ | hfinite
  · rcases hkind hny with ⟨s', rfl⟩ | hfinite'
    · cases s <;> cases s' <;> simp [extended, UnpackedFloat.compare] <;> rfl
    · exact hinfinity s hfinite'
  · rcases hkind hny with ⟨s', rfl⟩ | hfinite'
    · rw [compare_swap, hinfinity s' hfinite, Option.map_some, cmp_swap]
    · rw [compare_eq_cmp (hx hfinite) (hy hfinite'), extended_of_isFinite hfinite,
        extended_of_isFinite hfinite', strictMono_place.cmp_map_eq]

section

variable {f : Format} {x y : Exact}

theorem lt_iff_extended (hx : x.isFinite = true → Canonical f x)
    (hy : y.isFinite = true → Canonical f y) (hnx : x.isNaN = false) (hny : y.isNaN = false) :
    x.lt y = true ↔ extended x < extended y := by
  rw [UnpackedFloat.lt, compare_eq_cmp_extended hx hy hnx hny, beq_iff_eq, Option.some_inj,
    cmp_eq_lt_iff]

theorem le_iff_extended (hx : x.isFinite = true → Canonical f x)
    (hy : y.isFinite = true → Canonical f y) (hnx : x.isNaN = false) (hny : y.isNaN = false) :
    x.le y = true ↔ extended x ≤ extended y := by
  rw [UnpackedFloat.le, compare_eq_cmp_extended hx hy hnx hny, ← not_lt, ← cmp_eq_gt_iff]
  cases cmp (extended x) (extended y) with
  | lt => simp
  | eq => simp
  | gt => simp

end

/-! ## Magnitudes -/

section

variable (f : Format)

theorem lt_two_pow_totalExponent (m : Nat) (e : Int) :
    (m : ℚ) * 2 ^ e < 2 ^ totalExponent m e := by
  have hlog : (m : ℚ) < 2 ^ (m.log2 + 1) := by exact_mod_cast Nat.lt_log2_self
  rw [totalExponent, zpow_add₀ two_ne_zero]
  exact mul_lt_mul_of_pos_right (by exact_mod_cast hlog) (by positivity)

theorem totalExponent_le {m m' : Nat} {e e' : Int} (hm : 0 < m)
    (hle : (m : ℚ) * 2 ^ e ≤ m' * 2 ^ e') : totalExponent m e ≤ totalExponent m' e' := by
  have hlt : (2 : ℚ) ^ (m.log2 + e : Int) < 2 ^ totalExponent m' e' :=
    ((two_pow_log2_le hm e).trans hle).trans_lt (lt_two_pow_totalExponent m' e')
  have hexponent := (zpow_lt_zpow_iff_right₀ one_lt_two).mp hlt
  rw [totalExponent]
  omega

theorem targetExponent_mono : Monotone f.targetExponent :=
  fun _ _ h => max_le_max (sub_le_sub_right h _) le_rfl

/-- How many units a number is rounded to. -/
theorem nearest_eq_halfEven (m : Nat) (e t : Int) :
    (nearest m 1 e t : ℤ) = halfEven (m * 2 ^ e / 2 ^ t) := by
  have hunit : (0 : ℚ) < 2 ^ t := by positivity
  have hvalue := fraction_mul_unit m 1 e t
  rw [Nat.cast_one, div_one, ← eq_div_iff hunit.ne'] at hvalue
  rw [nearest, ← hvalue, halfEven_div _ (Nat.mul_pos one_pos (Nat.two_pow_pos _))]

/-- Of two magnitudes the larger is rounded to a larger one, or to the same. -/
theorem nearest_mul_mono {m m' : Nat} {e e' t t' : Int} (hm : 0 < m) (hm' : 0 < m')
    (htarget : f.targetExponent (totalExponent m e) = t)
    (htarget' : f.targetExponent (totalExponent m' e') = t')
    (hle : (m : ℚ) * 2 ^ e ≤ m' * 2 ^ e') :
    (nearest m 1 e t : ℚ) * 2 ^ t ≤ nearest m' 1 e' t' * 2 ^ t' := by
  have hunit : (0 : ℚ) < 2 ^ t := by positivity
  have horder : t ≤ t' := htarget ▸ htarget' ▸ targetExponent_mono f (totalExponent_le hm hle)
  rcases lt_or_eq_of_le horder with hlt | rfl
  · -- the larger number has a full mantissa of a larger unit
    have hmost := nearest_le f (target_decreased f hm htarget) (by omega)
    have hfull := full_nearest f (target_decreased f hm' htarget') (by omega)
    rw [nearest_mul_two_pow m one_pos] at hmost
    rw [nearest_mul_two_pow m' one_pos] at hfull
    have hleast : f.minExponent ≤ t := htarget ▸ minExponent_le_targetExponent f _
    have hmost : (nearest m 1 e t : ℚ) ≤ 2 ^ f.mantissaBits := by exact_mod_cast hmost
    have hfull : (2 : ℚ) ^ f.mantissaBitsWithoutImplicit ≤ nearest m' 1 e' t' := by
      exact_mod_cast hfull.resolve_right (by omega)
    have hpow : (2 : ℚ) ^ (t + 1) ≤ 2 ^ t' := zpow_le_zpow_right₀ one_le_two hlt
    calc (nearest m 1 e t : ℚ) * 2 ^ t ≤ 2 ^ f.mantissaBits * 2 ^ t :=
          mul_le_mul_of_nonneg_right hmost hunit.le
      _ = 2 ^ f.mantissaBitsWithoutImplicit * 2 ^ (t + 1) := by
          rw [zpow_add_one₀ two_ne_zero, Format.mantissaBits, pow_add]
          ring
      _ ≤ nearest m' 1 e' t' * 2 ^ t' :=
          mul_le_mul hfull hpow (by positivity) (by positivity)
  · -- multiples of one unit
    have hunits := halfEven_mono (div_le_div_of_nonneg_right hle hunit.le)
    rw [← nearest_eq_halfEven, ← nearest_eq_halfEven, Nat.cast_le] at hunits
    exact mul_le_mul_of_nonneg_right (Nat.cast_le.mpr hunits) hunit.le

/-! ## Conversions -/

/-- What is stored of a value in a format. -/
def converted (x : Exact) : Exact := unpack f (pack f (x.roundTo f))

theorem unpack_packedNaN : unpack f (packedNaN f) = .notANumber := by
  have hquiet : 1#f.mantissaBitsWithoutImplicit <<< (f.mantissaBitsWithoutImplicit - 1) ≠ 0#_ := by
    intro hzero
    have hbits := f.hm
    have hlt : 2 ^ (f.mantissaBitsWithoutImplicit - 1) < 2 ^ f.mantissaBitsWithoutImplicit :=
      Nat.pow_lt_pow_right one_lt_two (by omega)
    have htoNat := congrArg BitVec.toNat hzero
    rw [← BitVec.twoPow_eq, BitVec.toNat_twoPow, Nat.mod_eq_of_lt hlt, BitVec.toNat_ofNat,
      Nat.zero_mod] at htoNat
    exact (Nat.two_pow_pos _).ne' htoNat
  simp only [unpack, packedNaN, unpackExponent_packComponents, unpackMantissa_packComponents]
  rw [if_pos trivial]
  exact if_neg hquiet

theorem converted_infinity (s : Sign) : converted f (.infinity s) = .infinity s :=
  unpack_packedInfinity f s

theorem converted_zero (s : Sign) : converted f (.zero s) = .zero s := unpack_packedZero

theorem converted_notANumber : converted f .notANumber = .notANumber := unpack_packedNaN f

theorem unpack_pack_finite_neg (s : Sign) {m : Nat} (e : Int) (hm : 0 < m) :
    unpack f (pack f (.finite (-s) m e hm)) = (unpack f (pack f (.finite s m e hm))).neg := by
  simp only [pack, packedInfinity]
  -- too large, normal, subnormal
  split_ifs
  · exact unpack_packComponents_neg _ _ _ _
  · exact unpack_packComponents_neg _ _ _ _
  · exact unpack_packComponents_neg _ _ _ _

theorem unpack_pack_settled_neg (s : Sign) (n : Nat) (t : Int) :
    unpack f (pack f (settled f (-s) n t)) = (unpack f (pack f (settled f s n t))).neg := by
  unfold settled
  -- nothing is left, it fits, or it carries into another digit
  split_ifs
  · exact (converted_zero f (-s)).trans (congrArg UnpackedFloat.neg (converted_zero f s)).symm
  · exact unpack_pack_finite_neg f s _ _
  · exact unpack_pack_finite_neg f s _ _

/-- Neither rounding nor packing looks at the sign. -/
theorem converted_neg (x : Exact) : converted f x.neg = (converted f x).neg := by
  cases x with
  | infinity s => rw [UnpackedFloat.neg, converted_infinity, converted_infinity, UnpackedFloat.neg]
  | zero s => rw [UnpackedFloat.neg, converted_zero, converted_zero, UnpackedFloat.neg]
  | notANumber => rw [UnpackedFloat.neg, converted_notANumber, UnpackedFloat.neg]
  | finite s m e hm =>
      rw [UnpackedFloat.neg, converted, converted, roundTo, roundTo, round_eq_settled f s hm rfl,
        round_eq_settled f (-s) hm rfl]
      exact unpack_pack_settled_neg f s _ _

variable {f}

theorem canonical_round (s : Sign) {m : Nat} (hm : 0 < m) (e : Int) :
    Canonical f (UnpackedFloat.round f s m e) := by
  have hfull := full_nearest f (target_decreased f hm (e := e) rfl) (by omega)
  rw [nearest_mul_two_pow m one_pos] at hfull
  rw [round_eq_settled f s hm rfl]
  exact canonical_settled f s hfull (minExponent_le_targetExponent f _)

theorem representable_of_stored (hf : f.minExponent < endExponent f) {x : Exact}
    (hx : Canonical f x) (hstored : unpack f (pack f x) = x) : Representable f |toRat x| := by
  cases hx with
  | zero s => exact ⟨0, f.minExponent, ⟨Nat.two_pow_pos _, Or.inr rfl, le_rfl⟩, hf, by simp [toRat]⟩
  | finite h =>
      refine ⟨_, _, h, not_le.mp fun hmost => ?_, abs_toRat_finite⟩
      rw [unpack_pack_infinity f _ _ hmost] at hstored
      cases hstored

theorem toRat_round_nonneg {m : Nat} (hm : 0 < m) (e : Int) :
    0 ≤ toRat (UnpackedFloat.round f .positive m e) := by
  rw [toRat_round .positive hm rfl]
  simp only [signed, Nat.cast_one, Int.cast_one, one_mul]
  positivity

/-- Of two positive numbers the larger is stored as a larger one, or as the same. -/
theorem extended_converted_finite_le (hf : f.minExponent < endExponent f) {m m' : Nat} {e e' : Int}
    (hm : 0 < m) (hm' : 0 < m') (hle : (m : ℚ) * 2 ^ e ≤ m' * 2 ^ e') :
    extended (converted f (.finite .positive m e hm)) ≤
      extended (converted f (.finite .positive m' e' hm')) := by
  rw [converted, converted, roundTo, roundTo]
  rcases unpack_pack_round f .positive hm' (e := e') rfl with hstored | hstored
  · rw [← round_eq_settled f .positive hm' rfl] at hstored
    have hrounded : toRat (UnpackedFloat.round f .positive m e) ≤
        toRat (UnpackedFloat.round f .positive m' e') := by
      rw [toRat_round .positive hm rfl, toRat_round .positive hm' rfl]
      simpa [signed] using nearest_mul_mono f hm hm' rfl rfl hle
    -- a number that is no larger than one of the format is not beyond it
    have hrange := representable_of_stored hf (canonical_round .positive hm' e') hstored
    rw [abs_of_nonneg (toRat_round_nonneg hm' e')] at hrange
    have hstored' := unpack_pack_canonical (canonical_round .positive hm e) hrange
      (by rwa [abs_of_nonneg (toRat_round_nonneg hm e)])
    rw [hstored, hstored', extended_of_isFinite (canonical_round .positive hm e).isFinite,
      extended_of_isFinite (canonical_round .positive hm' e').isFinite]
    exact strictMono_place.monotone hrounded
  · rw [hstored]
    exact le_top

theorem nonneg_iff_extended {x : Exact} (hx : x.isNaN = false) : x.Nonneg ↔ 0 ≤ extended x := by
  constructor
  · rintro (s | _ | _)
    · rw [extended_zero]
    · rename_i m e hm
      rw [extended_of_isFinite rfl, toRat_positive]
      exact_mod_cast (by positivity : (0 : ℚ) ≤ m * 2 ^ e)
    · exact le_top
  · intro hle
    cases x with
    | notANumber => exact absurd hx nofun
    | zero s => exact .zero s
    | infinity s =>
        cases s with
        | positive => exact .infinity
        | negative => exact absurd hle (not_le.mpr EReal.bot_lt_zero)
    | finite s m e hm =>
        cases s with
        | positive => exact .finite
        | negative =>
            have hm' : (0 : ℚ) < m := Nat.cast_pos.mpr hm
            have hneg : -((m : ℚ) * 2 ^ e) < 0 := neg_lt_zero.mpr (by positivity)
            rw [extended_of_isFinite rfl, toRat_negative] at hle
            exact absurd hle (not_le.mpr (by exact_mod_cast hneg))

theorem Nonneg.extended_converted {x : Exact} (hx : x.Nonneg) : 0 ≤ extended (converted f x) := by
  cases hx with
  | zero s =>
      rw [converted_zero, extended_zero]
  | infinity =>
      rw [converted_infinity]
      exact le_top
  | finite =>
      rename_i m e hm
      rw [converted, roundTo]
      rcases unpack_pack_round f .positive hm (e := e) rfl with hstored | hstored
      · rw [hstored, ← round_eq_settled f .positive hm rfl,
          extended_of_isFinite (canonical_round .positive hm e).isFinite]
        exact_mod_cast toRat_round_nonneg hm e
      · rw [hstored]
        exact le_top

theorem Nonneg.extended_converted_le (hf : f.minExponent < endExponent f) {x y : Exact}
    (hx : x.Nonneg) (hy : y.Nonneg) (hle : extended x ≤ extended y) :
    extended (converted f x) ≤ extended (converted f y) := by
  cases hx with
  | zero s =>
      rw [converted_zero, extended_zero]
      exact hy.extended_converted
  | infinity =>
      rw [converted_infinity]
      cases hy with
      | infinity => rw [converted_infinity]
      | zero s => exact absurd hle (not_le.mpr (EReal.coe_lt_top _))
      | finite => exact absurd hle (not_le.mpr (EReal.coe_lt_top _))
  | finite =>
      rename_i m e hm
      cases hy with
      | infinity =>
          rw [converted_infinity]
          exact le_top
      | zero s =>
          have hm' : (0 : ℚ) < m := Nat.cast_pos.mpr hm
          rw [extended_of_isFinite rfl, extended_of_isFinite rfl, toRat_positive] at hle
          have hle : (m : ℚ) * 2 ^ e ≤ 0 := strictMono_place.le_iff_le.mp hle
          exact absurd hle (not_le.mpr (by positivity))
      | finite =>
          rename_i m' e' hm'
          refine extended_converted_finite_le hf hm hm' ?_
          rw [extended_of_isFinite rfl, extended_of_isFinite rfl, toRat_positive, toRat_positive] at hle
          exact strictMono_place.le_iff_le.mp hle

/-- **Conversions are monotone** on what is no NaN. -/
theorem extended_converted_mono (hf : f.minExponent < endExponent f) {x y : Exact}
    (hx : x.isNaN = false) (hy : y.isNaN = false) (hle : extended x ≤ extended y) :
    extended (converted f x) ≤ extended (converted f y) := by
  have hneg : ∀ {z : Exact}, z.isNaN = false → extended z < 0 → Nonneg z.neg := by
    intro z hz hlt
    have hz' : z.neg.isNaN = false := by rwa [isNaN_neg]
    rw [nonneg_iff_extended hz', extended_neg, EReal.le_neg, neg_zero]
    exact hlt.le
  rcases le_or_gt 0 (extended x) with hx0 | hx0
  · have hxpos := (nonneg_iff_extended hx).mpr hx0
    have hypos := (nonneg_iff_extended hy).mpr (hx0.trans hle)
    exact hxpos.extended_converted_le hf hypos hle
  · have hxneg := hneg hx hx0
    rw [← EReal.neg_le_neg_iff, ← extended_neg, ← extended_neg, ← converted_neg, ← converted_neg]
    rcases le_or_gt 0 (extended y) with hy0 | hy0
    · have hypos := (nonneg_iff_extended hy).mpr hy0
      refine le_trans ?_ hxneg.extended_converted
      rw [converted_neg, extended_neg, EReal.neg_le, neg_zero]
      exact hypos.extended_converted
    · refine (hneg hy hy0).extended_converted_le hf hxneg ?_
      rwa [extended_neg, extended_neg, EReal.neg_le_neg_iff]

/-- What is stored of a value depends on its place alone. -/
theorem extended_converted_congr (hf : f.minExponent < endExponent f) {x y : Exact}
    (hx : x.isNaN = false) (hy : y.isNaN = false) (h : extended x = extended y) :
    extended (converted f x) = extended (converted f y) :=
  le_antisymm (extended_converted_mono hf hx hy h.le) (extended_converted_mono hf hy hx h.ge)

theorem isNaN_converted (f : Format) (x : Exact) : (converted f x).isNaN = x.isNaN := by
  cases x with
  | infinity s => rw [converted_infinity]
  | zero s => rw [converted_zero]
  | notANumber => rw [converted_notANumber]
  | finite s m e hm =>
      rw [converted, roundTo]
      rcases unpack_pack_round f s hm (e := e) rfl with hstored | hstored
      · rw [hstored, ← round_eq_settled f s hm rfl]
        exact isNaN_roundWithAccuracy f s _ _ _
      · rw [hstored]
        rfl

end

/-! ## Integers -/

theorem isFinite_ofInt (i : Int) : (ofInt i).isFinite = true := by
  cases i with
  | ofNat n => cases n <;> rfl
  | negSucc n => rfl

theorem toRat_ofInt (i : Int) : toRat (ofInt i) = i := by
  cases i with
  | ofNat n =>
      cases n with
      | zero => rfl
      | succ n => simp [ofInt, toRat, signed]
  | negSucc n => simp [ofInt, toRat, signed, Int.negSucc_eq]

theorem ofInt_eq_finite (s : Sign) {n : Nat} (hn : 0 < n) : ofInt (signed s n) = .finite s n 0 hn := by
  cases n with
  | zero => exact absurd hn (lt_irrefl 0)
  | succ n => cases s <;> rfl

theorem isZero_ofInt (i : Int) : (ofInt i).isZero = true ↔ i = 0 := by
  rw [isZero_iff_toRat (isFinite_ofInt i), toRat_ofInt, Int.cast_eq_zero]

/-- An integer whose digits fit the mantissa is stored as it is. -/
theorem converted_ofInt {f : Format} (hf : f.minExponent ≤ 0) {q : ℚ} (hq : Representable f q)
    {n : Int} {k : Nat} (hn : n.natAbs < 2 ^ f.mantissaBits) (hle : |(n : ℚ) * 2 ^ k| ≤ q) :
    (converted f (ofInt (n * 2 ^ k))).isFinite = true ∧
      toRat (converted f (ofInt (n * 2 ^ k))) = n * 2 ^ k := by
  by_cases h0 : n = 0
  · subst h0
    have hzero : ofInt (0 * 2 ^ k) = .zero .positive := by
      rw [zero_mul]
      rfl
    rw [hzero, converted_zero, Int.cast_zero, zero_mul]
    exact ⟨rfl, rfl⟩
  obtain ⟨s, hs⟩ := exists_signed h0
  have hpos : 0 < n.natAbs := by omega
  generalize n.natAbs = m at hs hn hpos
  subst hs
  have hscaled : signed s m * 2 ^ k = signed s (m * 2 ^ k) := by
    rw [signed_mul, Nat.cast_pow, Nat.cast_ofNat]
  have hunits : UnpackedFloat.round f s (m * 2 ^ k) 0 = UnpackedFloat.round f s m k := by
    rw [← round_mul_two_pow f s hpos k k, sub_self]
  have hmagnitude : (m : ℚ) * 2 ^ (k : Int) ≤ q := by
    rwa [abs_mul, abs_signed, abs_of_pos (by positivity), ← zpow_natCast] at hle
  have hfinite := (within_round s hpos hq hmagnitude).isFinite
  have htarget : f.targetExponent (totalExponent m k) ≤ k := by
    have hlog : m.log2 < f.mantissaBits := (Nat.log2_lt hpos.ne').mpr hn
    rw [Format.targetExponent, totalExponent]
    omega
  rw [hscaled, ofInt_eq_finite s (Nat.mul_pos hpos (Nat.two_pow_pos k)), converted, roundTo, hunits,
    unpack_pack_round_of_isFinite s hpos hfinite, toRat_round_of_le s hpos rfl htarget]
  exact ⟨(canonical_round s hpos k).isFinite, by rw [toRat, zpow_natCast]⟩

/-- No integer but zero is stored as a zero. -/
theorem isZero_toFloat_ofInt (i : Int) :
    (ofFloat (ofInt i).toFloat).isZero = (ofInt i).isZero := by
  have hstored : ofFloat (ofInt i).toFloat = converted .binary64 (ofInt i) := rfl
  have hcount : ∀ {n : Nat} (hn : 0 < n),
      (converted .binary64 (.finite .positive n 0 hn)).isZero = false := fun {n} hn => by
    have hone : (1 : ℚ) ≤ n * 2 ^ (0 : Int) := by
      rw [zpow_zero, mul_one]
      exact Nat.one_le_cast.mpr hn
    exact (atLeast_round hn representable_one hone).not_isZero one_pos
  rw [hstored]
  cases i with
  | ofNat n =>
      cases n with
      | zero => rfl
      | succ n => exact hcount n.succ_pos
  | negSucc n =>
      have hneg : ofInt (.negSucc n) = UnpackedFloat.neg (.finite .positive (n + 1) 0 n.succ_pos) := rfl
      rw [hneg, converted_neg, isZero_neg, isZero_neg]
      exact hcount n.succ_pos

/-- Values that can be compared are no NaNs. -/
theorem isNaN_of_le {x y : Exact} (h : x.le y = true) : x.isNaN = false ∧ y.isNaN = false := by
  cases x <;> cases y <;> first | exact ⟨rfl, rfl⟩ | exact absurd h nofun

theorem beq_self (x : Exact) : x.beq x = !x.isNaN := by
  cases x with
  | infinity s => cases s <;> rfl
  | zero s => rfl
  | notANumber => rfl
  | finite s m e hm =>
      have hsame : (compare e e).then (compare m m) = .eq := by
        rw [Int.compare_eq_eq.mpr rfl, Nat.compare_eq_eq.mpr rfl]
        rfl
      cases s <;> simp only [Float.Model.UnpackedFloat.beq, Float.Model.UnpackedFloat.compare, hsame] <;> rfl

end Exact

open Exact
open Float.Model (Format)

/-! ## Binary32 numbers -/

section

variable {x y : Float32}

theorem canonical_ofSingle (h : (ofSingle x).isFinite = true) : Canonical .binary32 (ofSingle x) :=
  canonical_unpack h

theorem Float32.beq_self (x : Float32) : (x == x) = !x.isNaN := Exact.beq_self (ofSingle x)

theorem Float32.lt_iff : x < y ↔ (ofSingle x).lt (ofSingle y) = true := by
  show decide (x.toModel < y.toModel) = true ↔ _
  rw [decide_eq_true_iff]
  rfl

theorem Float32.le_iff : x ≤ y ↔ (ofSingle x).le (ofSingle y) = true := by
  show decide (x.toModel ≤ y.toModel) = true ↔ _
  rw [decide_eq_true_iff]
  rfl

theorem Float32.isNaN_of_le (h : x ≤ y) : x.isNaN = false ∧ y.isNaN = false :=
  Exact.isNaN_of_le (Float32.le_iff.mp h)

theorem Float32.lt_iff_extended (hx : x.isNaN = false) (hy : y.isNaN = false) :
    x < y ↔ extended (ofSingle x) < extended (ofSingle y) := by
  rw [Float32.lt_iff]
  exact Exact.lt_iff_extended canonical_ofSingle canonical_ofSingle hx hy

theorem Float32.le_iff_extended (hx : x.isNaN = false) (hy : y.isNaN = false) :
    x ≤ y ↔ extended (ofSingle x) ≤ extended (ofSingle y) := by
  rw [Float32.le_iff]
  exact Exact.le_iff_extended canonical_ofSingle canonical_ofSingle hx hy

end

section

variable {x y : Float}

theorem Float.isNaN_of_le (h : x ≤ y) : x.isNaN = false ∧ y.isNaN = false :=
  Exact.isNaN_of_le (Float.le_iff.mp h)

theorem Float.lt_iff_extended (hx : x.isNaN = false) (hy : y.isNaN = false) :
    x < y ↔ extended (ofFloat x) < extended (ofFloat y) := by
  have hcanonical : ∀ {z : Float}, (ofFloat z).isFinite = true → Canonical .binary64 (ofFloat z) :=
    canonical_ofFloat
  rw [Float.lt_iff]
  exact Exact.lt_iff_extended hcanonical hcanonical hx hy

theorem Float.le_iff_extended (hx : x.isNaN = false) (hy : y.isNaN = false) :
    x ≤ y ↔ extended (ofFloat x) ≤ extended (ofFloat y) := by
  have hcanonical : ∀ {z : Float}, (ofFloat z).isFinite = true → Canonical .binary64 (ofFloat z) :=
    canonical_ofFloat
  rw [Float.le_iff]
  exact Exact.le_iff_extended hcanonical hcanonical hx hy

end

/-! ## Narrowing -/

theorem isNaN_narrow (x : Float) : (narrow x).isNaN = x.isNaN :=
  isNaN_converted Format.binary32 (ofFloat x)

/-- **Narrowing** is monotone. -/
theorem narrow_mono {x y : Float} (h : x ≤ y) : narrow x ≤ narrow y := by
  obtain ⟨hx, hy⟩ := Float.isNaN_of_le h
  rw [Float.le_iff_extended hx hy] at h
  rw [Float32.le_iff_extended ((isNaN_narrow x).trans hx) ((isNaN_narrow y).trans hy)]
  exact extended_converted_mono (f := Format.binary32) (by decide) hx hy h

/-- A short integer is a number of both formats. -/
theorem toRat_narrow_ofInt {i : Int} (hi : i.natAbs < 2 ^ 24) :
    (narrow (ofInt i).toFloat).isFinite = true ∧ toRat (ofSingle (narrow (ofInt i).toFloat)) = i := by
  have hle : |(i : ℚ) * 2 ^ 0| ≤ 2 ^ (24 : Int) := by
    rw [pow_zero, mul_one, ← Int.cast_abs, Int.abs_eq_natAbs]
    exact_mod_cast hi.le
  have hdouble := converted_ofInt (f := Format.binary64) (k := 0) (by decide)
    (representable_two_pow (by decide) (by decide)) (hi.trans (by decide)) hle
  have hsingle := converted_ofInt (f := Format.binary32) (k := 0) (by decide)
    (representable_two_pow (by decide) (by decide)) hi hle
  rw [pow_zero, mul_one, pow_zero, mul_one] at hdouble hsingle
  -- the integer and the binary64 number that it is have the same place
  have hplace : extended (ofInt i) = extended (converted Format.binary64 (ofInt i)) := by
    rw [extended_of_isFinite hdouble.1, hdouble.2, extended_of_isFinite (isFinite_ofInt i),
      toRat_ofInt]
  have hstored := extended_converted_congr (f := Format.binary32) (by decide)
    (not_isNaN (isFinite_ofInt i)) (not_isNaN hdouble.1) hplace
  rw [extended_of_isFinite hsingle.1, hsingle.2] at hstored
  have hfinite : (converted Format.binary32 (converted Format.binary64 (ofInt i))).isFinite = true :=
    isFinite_of_extended ((isNaN_converted _ _).trans (not_isNaN hdouble.1)) hstored.le hstored.ge
  rw [extended_of_isFinite hfinite] at hstored
  exact ⟨hfinite, (strictMono_place.injective hstored).symm⟩

end BatchNorm
