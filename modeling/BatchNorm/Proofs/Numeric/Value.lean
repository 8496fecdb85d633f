import BatchNorm.Proofs.Numeric.Binary32
import BatchNorm.Proofs.Numeric.Rounding
import BatchNorm.Proofs.Numeric.Sign

/-!
# The numbers of a format as rationals

A finite number of a format is a zero, or it has a mantissa and an exponent that go together
(`Canonical`); nothing else comes out of a bit pattern (`canonical_unpack`). Comparing
exponents first and mantissas then is right for such numbers: their order is that of the
rational numbers that they are (`compare_eq_cmp`).
-/

set_option autoImplicit false

namespace BatchNorm

namespace Exact

open Float.Model (Format UnpackedFloat totalExponent)
open Float.Model.UnpackedFloat

variable {f : Format}

/-- The finite numbers of a format. -/
inductive Canonical (f : Format) : Exact → Prop
  | zero (s : Sign) : Canonical f (.zero s)
  | finite {s : Sign} {m : Nat} {e : Int} {hm : 0 < m} (h : Fits f m e) :
      Canonical f (.finite s m e hm)

theorem canonical_unpack {b : BitVec f.numBits} (h : (unpack f b).isFinite = true) :
    Canonical f (unpack f b) := by
  unfold unpack at h ⊢
  dsimp only at h ⊢
  split at h
  · split at h
    · exact absurd h nofun
    · exact absurd h nofun
  · rename_i hone
    rw [if_neg hone]
    split
    · rename_i hzero
      split
      · exact .zero _
      · have hleast := minExponent_eq f
        have hexponent : (unpackExponent b).toNat = 0 := by rw [hzero]; simp
        refine .finite ⟨?_, Or.inr ?_, ?_⟩
        · exact lt_trans (BitVec.isLt _)
            (Nat.pow_lt_pow_right one_lt_two (by rw [Format.mantissaBits]; omega))
        · omega
        · omega
    · rename_i hzero
      obtain ⟨hfull, hlt⟩ := toNat_implicit (unpackMantissa b)
      have hpos : (unpackExponent b).toNat ≠ 0 := fun heq =>
        hzero (BitVec.eq_of_toNat_eq (by simpa using heq))
      have hleast := minExponent_eq f
      exact .finite ⟨hlt, Or.inl hfull, by omega⟩

theorem Canonical.isFinite {x : Exact} (h : Canonical f x) : x.isFinite = true := by
  cases h <;> rfl

/-! ## The order -/

/-- A number with a larger exponent is larger: its mantissa is full. -/
theorem lt_of_exponent_lt {m m' : Nat} {e e' : Int} (h : Fits f m e) (h' : Fits f m' e')
    (hlt : e < e') : (m : ℚ) * 2 ^ e < m' * 2 ^ e' := by
  have hfull : 2 ^ f.mantissaBitsWithoutImplicit ≤ m' :=
    h'.full.resolve_right fun hleast => by have := h.least; omega
  have hm : (m : ℚ) < 2 * 2 ^ f.mantissaBitsWithoutImplicit := by
    have hlt := h.lt
    rw [Format.mantissaBits, Nat.pow_add, Nat.pow_one] at hlt
    exact_mod_cast hlt
  have hm' : (2 : ℚ) ^ f.mantissaBitsWithoutImplicit ≤ m' := by exact_mod_cast hfull
  have hpow : (2 : ℚ) ^ (e + 1) ≤ 2 ^ e' := zpow_le_zpow_right₀ one_le_two hlt
  calc (m : ℚ) * 2 ^ e < 2 * 2 ^ f.mantissaBitsWithoutImplicit * 2 ^ e :=
        mul_lt_mul_of_pos_right hm (by positivity)
    _ = 2 ^ f.mantissaBitsWithoutImplicit * 2 ^ (e + 1) := by
        rw [zpow_add_one₀ two_ne_zero]
        ring
    _ ≤ m' * 2 ^ e' := mul_le_mul hm' hpow (by positivity) (by positivity)

theorem compare_magnitudes {m m' : Nat} {e e' : Int} (h : Fits f m e) (h' : Fits f m' e') :
    (compare e e').then (compare m m') = cmp ((m : ℚ) * 2 ^ e) (m' * 2 ^ e') := by
  rcases lt_trichotomy e e' with hlt | rfl | hgt
  · rw [Int.compare_eq_lt.mpr hlt, (cmp_eq_lt_iff _ _).mpr (lt_of_exponent_lt h h' hlt)]
    rfl
  · have hunit : (0 : ℚ) < 2 ^ e := by positivity
    rw [Int.compare_eq_eq.mpr rfl, cmp_mul_pos_right hunit]
    rcases lt_trichotomy m m' with hlt | rfl | hgt
    · rw [Nat.compare_eq_lt.mpr hlt, (cmp_eq_lt_iff _ _).mpr (Nat.cast_lt.mpr hlt)]
      rfl
    · rw [Nat.compare_eq_eq.mpr rfl, cmp_self_eq_eq]
      rfl
    · rw [Nat.compare_eq_gt.mpr hgt, (cmp_eq_gt_iff _ _).mpr (Nat.cast_lt.mpr hgt)]
      rfl
  · rw [Int.compare_eq_gt.mpr hgt, (cmp_eq_gt_iff _ _).mpr (lt_of_exponent_lt h' h hgt)]
    rfl

theorem cmp_neg_neg (a b : ℚ) : cmp (-a) (-b) = (cmp a b).swap := by
  rw [cmp_swap]
  simp only [cmp, cmpUsing, neg_lt_neg_iff]

theorem toRat_positive (m : Nat) (e : Int) (hm : 0 < m) :
    toRat (.finite .positive m e hm) = m * 2 ^ e := by
  simp [toRat, signed]

theorem toRat_negative (m : Nat) (e : Int) (hm : 0 < m) :
    toRat (.finite .negative m e hm) = -(m * 2 ^ e) := by
  simp [toRat, signed]

theorem toRat_abs (x : Exact) : toRat x.abs = |toRat x| := by
  cases x with
  | finite s m e hm => rw [abs_toRat_finite, UnpackedFloat.abs, toRat_positive]
  | zero s => exact abs_zero.symm
  | infinity s => exact abs_zero.symm
  | notANumber => exact abs_zero.symm

theorem isZero_iff_toRat {x : Exact} (hx : x.isFinite = true) : x.isZero = true ↔ toRat x = 0 := by
  cases x with
  | zero s => exact iff_of_true rfl rfl
  | finite s m e hm =>
      refine iff_of_false Bool.false_ne_true fun hzero => ?_
      have hm' : (0 : ℚ) < m := Nat.cast_pos.mpr hm
      have hpos : (0 : ℚ) < m * 2 ^ e := by positivity
      have hvalue : |toRat (.finite s m e hm)| = m * 2 ^ e := abs_toRat_finite
      rw [hzero, abs_zero] at hvalue
      exact hpos.ne hvalue
  | infinity s => exact absurd hx nofun
  | notANumber => exact absurd hx nofun

/-- **The order of finite numbers** is that of the rational numbers that they are. -/
theorem compare_eq_cmp {x y : Exact} (hx : Canonical f x) (hy : Canonical f y) :
    x.compare y = some (cmp (toRat x) (toRat y)) := by
  have hpos : ∀ {m : Nat} {e : Int}, 0 < m → (0 : ℚ) < m * 2 ^ e := by
    intro m e hm
    have hm : (0 : ℚ) < m := Nat.cast_pos.mpr hm
    positivity
  have hzero : ∀ s : Sign, toRat (.zero s) = 0 := fun _ => rfl
  cases hx with
  | zero s => cases hy with
    | zero s' => rw [hzero, hzero, cmp_self_eq_eq]; rfl
    | finite h' =>
        rename_i s' m' e' hm'
        have hpos := hpos (e := e') hm'
        cases s' with
        | negative =>
            rw [hzero, toRat_negative, (cmp_eq_gt_iff _ _).mpr (neg_lt_zero.mpr hpos)]
            rfl
        | positive =>
            rw [hzero, toRat_positive, (cmp_eq_lt_iff _ _).mpr hpos]
            rfl
  | finite h =>
      rename_i s m e hm
      have hpositive := hpos (e := e) hm
      cases hy with
      | zero s' =>
          cases s with
          | negative =>
              rw [hzero, toRat_negative, (cmp_eq_lt_iff _ _).mpr (neg_lt_zero.mpr hpositive)]
              rfl
          | positive =>
              rw [hzero, toRat_positive, (cmp_eq_gt_iff _ _).mpr hpositive]
              rfl
      | finite h' =>
          rename_i s' m' e' hm'
          have hpositive' := hpos (e := e') hm'
          cases s with
          | negative => cases s' with
            | negative =>
                rw [toRat_negative, toRat_negative, cmp_neg_neg, ← compare_magnitudes h h']
                rfl
            | positive =>
                rw [toRat_negative, toRat_positive, (cmp_eq_lt_iff _ _).mpr (by linarith)]
                rfl
          | positive => cases s' with
            | negative =>
                rw [toRat_negative, toRat_positive, (cmp_eq_gt_iff _ _).mpr (by linarith)]
                rfl
            | positive =>
                rw [toRat_positive, toRat_positive, ← compare_magnitudes h h']
                rfl

/-- All finite numbers are below the infinity. -/
theorem compare_infinity {x : Exact} (h : x.isFinite = true) :
    x.compare (.infinity .positive) = some .lt := by
  cases x with
  | zero s => rfl
  | finite s m e hm => cases s <;> rfl
  | infinity s => exact absurd h nofun
  | notANumber => exact absurd h nofun

theorem lt_iff_toRat_lt {x y : Exact} (hx : Canonical f x) (hy : Canonical f y) :
    x.lt y = true ↔ toRat x < toRat y := by
  rw [UnpackedFloat.lt, compare_eq_cmp hx hy, beq_iff_eq, Option.some_inj, cmp_eq_lt_iff]

theorem le_iff_toRat_le {x y : Exact} (hx : Canonical f x) (hy : Canonical f y) :
    x.le y = true ↔ toRat x ≤ toRat y := by
  rw [UnpackedFloat.le, compare_eq_cmp hx hy, ← not_lt, ← cmp_eq_gt_iff]
  cases cmp (toRat x) (toRat y) with
  | lt => simp
  | eq => simp
  | gt => simp

end Exact

open Exact

section

variable {x y : Float}

/-- The rational number that a finite binary64 number is. -/
def valueOf (x : Float) : ℚ := (ofFloat x).toRat

theorem valueOf_one : valueOf 1 = 1 := by
  have hone : ofFloat 1 = .finite .positive (2 ^ 52) (-52) (by decide) := rfl
  rw [valueOf, hone, toRat_positive]
  norm_num

theorem canonical_ofFloat (h : x.isFinite = true) : Canonical .binary64 (ofFloat x) :=
  canonical_unpack h

theorem Float.lt_iff_valueOf (hx : x.isFinite = true) (hy : y.isFinite = true) :
    x < y ↔ valueOf x < valueOf y := by
  rw [Float.lt_iff, lt_iff_toRat_lt (canonical_ofFloat hx) (canonical_ofFloat hy)]
  rfl

theorem Float.le_iff_valueOf (hx : x.isFinite = true) (hy : y.isFinite = true) :
    x ≤ y ↔ valueOf x ≤ valueOf y := by
  rw [Float.le_iff, le_iff_toRat_le (canonical_ofFloat hx) (canonical_ofFloat hy)]
  rfl

theorem Float.beq_zero_iff_valueOf (hx : x.isFinite = true) : (x == 0) = true ↔ valueOf x = 0 := by
  rw [Float.beq_zero]
  exact isZero_iff_toRat hx

end

end BatchNorm
