import BatchNorm.Proofs.Numeric.Bounds

/-!
# Storing numbers as binary32

A binary32 number is the same number in binary64 (`valueOf_widen`). The other way a number is
rounded: it is moved by at most half a unit, relative to its own size if it is normal and in
absolute terms if it is not (`abs_narrow_sub_le`). That is as far as the binary32 range
reaches; beyond it an infinity is stored.
-/

set_option autoImplicit false

namespace BatchNorm

namespace Exact

open Float.Model (Format UnpackedFloat totalExponent)
open Float.Model.UnpackedFloat

section

variable {f : Format}

theorem toRat_round (s : Sign) {m : Nat} (hm : 0 < m) {e t : Int}
    (htarget : f.targetExponent (totalExponent m e) = t) :
    toRat (UnpackedFloat.round f s m e) = signed s 1 * (nearest m 1 e t * 2 ^ t) := by
  have hle := nearest_le f (target_decreased f hm htarget) (by omega)
  rw [nearest_mul_two_pow m one_pos] at hle
  rw [round_eq_settled f s hm htarget, toRat_settled f s hle, signed_eq, Int.cast_mul,
    Int.cast_natCast, mul_assoc]

theorem toRat_finite (s : Sign) {m : Nat} (hm : 0 < m) (e : Int) :
    toRat (.finite s m e hm) = signed s 1 * (m * 2 ^ e) := by
  rw [toRat, signed_eq, Int.cast_mul, Int.cast_natCast, mul_assoc]

/-- Rounding moves a number by at most half a unit. -/
theorem abs_toRat_round_sub_le (s : Sign) {m : Nat} (hm : 0 < m) {e t : Int}
    (htarget : f.targetExponent (totalExponent m e) = t) :
    |toRat (UnpackedFloat.round f s m e) - toRat (.finite s m e hm)| ≤ 2 ^ (t - 1) := by
  have herror := abs_nearest_sub_le m one_pos e t
  have hsign : |(signed s 1 : ℚ)| = 1 := (abs_signed s 1).trans Nat.cast_one
  rw [Nat.cast_one, div_one] at herror
  rw [toRat_round s hm htarget, toRat_finite s hm, ← mul_sub, abs_mul, hsign, one_mul]
  exact herror

/-- A number whose unit is not above its own exponent is not moved. -/
theorem toRat_round_of_le (s : Sign) {m : Nat} (hm : 0 < m) {e t : Int}
    (htarget : f.targetExponent (totalExponent m e) = t) (ht : t ≤ e) :
    toRat (UnpackedFloat.round f s m e) = toRat (.finite s m e hm) := by
  have hnearest : nearest m 1 e t = m * 2 ^ (e - t).toNat := by
    have hunits : (t - e).toNat = 0 := by omega
    rw [nearest, hunits, Nat.pow_zero, Nat.mul_one, divideHalfEven_one]
  rw [toRat_round s hm htarget, hnearest, ← mul_two_pow_units m ht, toRat_finite]

/-- What is stored of a rounded number is that number, if it is finite. -/
theorem unpack_pack_round_of_isFinite (s : Sign) {m : Nat} (hm : 0 < m) {e : Int}
    (h : (unpack f (pack f (UnpackedFloat.round f s m e))).isFinite = true) :
    unpack f (pack f (UnpackedFloat.round f s m e)) = UnpackedFloat.round f s m e := by
  rcases unpack_pack_round f s hm (e := e) rfl with hstored | hstored
  · rw [hstored, round_eq_settled f s hm rfl]
  · rw [hstored] at h
    exact absurd h nofun

end

/-- A number is at least as large as the unit of its leading digit. -/
theorem two_pow_log2_le {m : Nat} (hm : 0 < m) (e : Int) :
    (2 : ℚ) ^ (m.log2 + e : Int) ≤ m * 2 ^ e := by
  have hlog : (2 : ℚ) ^ m.log2 ≤ m := by exact_mod_cast Nat.log2_self_le hm.ne'
  rw [zpow_add₀ two_ne_zero, zpow_natCast]
  exact mul_le_mul_of_nonneg_right hlog (by positivity)

end Exact

open Exact
open Float.Model (Format UnpackedFloat totalExponent)
open Float.Model.UnpackedFloat (Sign pack unpack unpack_packedZero)

/-! ## Widening -/

/-- **Widening** keeps the value of a number. -/
theorem valueOf_widen {x : Float32} (hx : x.isFinite = true) :
    (widen x).isFinite = true ∧ valueOf (widen x) = toRat (ofSingle x) := by
  show (repacked ((ofSingle x).roundTo .binary64)).isFinite = true ∧
    toRat (repacked ((ofSingle x).roundTo .binary64)) = toRat (ofSingle x)
  have hcanonical : Canonical .binary32 (ofSingle x) := canonical_unpack hx
  have hbounded := bounded_ofSingle hx
  generalize ofSingle x = x at hcanonical hbounded
  cases hcanonical with
  | zero s =>
      have hstored : repacked (roundTo .binary64 (.zero s)) = .zero s := repacked_zero s
      rw [hstored]
      exact ⟨rfl, rfl⟩
  | finite h =>
      rename_i s m e hm
      have hleast : (-149 : Int) ≤ e := h.least
      have hlog : m.log2 < 24 := (Nat.log2_lt hm.ne').mpr h.lt
      have hle : |toRat (.finite s m e hm)| ≤ 2 ^ (128 : Int) :=
        (abs_toRat_le hbounded).trans (by norm_num [largestSingle])
      rw [abs_toRat_finite] at hle
      have hrange : Representable .binary64 (2 ^ (128 : Int)) :=
        representable_two_pow (by decide) (by decide)
      have hwithin := within_round s hm hrange hle
      have hstored := unpack_pack_round_of_isFinite s hm hwithin.isFinite
      refine ⟨hwithin.isFinite, (congrArg toRat hstored).trans (toRat_round_of_le s hm rfl ?_)⟩
      simp only [Format.targetExponent, totalExponent, Format.mantissaBits, Format.minExponent]
      omega

/-- Widening keeps zeros apart from other values. -/
theorem isZero_widen (x : Float32) : (ofFloat (widen x)).isZero = (ofSingle x).isZero := by
  cases hfinite : (ofSingle x).isFinite with
  | true =>
      obtain ⟨hwide, hvalue⟩ := valueOf_widen hfinite
      rw [Bool.eq_iff_iff, ← Float.beq_zero, Float.beq_zero_iff_valueOf hwide, hvalue,
        isZero_iff_toRat hfinite]
  | false =>
      have hstored : ofFloat (widen x) = repacked ((ofSingle x).roundTo .binary64) := rfl
      have hround : (ofSingle x).roundTo .binary64 = ofSingle x := by
        cases hx : ofSingle x with
        | finite s m e hm =>
            rw [hx] at hfinite
            cases hfinite
        | _ => rfl
      rw [hstored, hround, not_isZero hfinite, not_isZero (not_isFinite_repacked hfinite)]

/-! ## Narrowing -/

/-- By how much the binary32 number that is stored of a number may differ from it. -/
def singleError (e : ℚ) : ℚ := 2 ^ (-24 : Int) * max |e| (2 ^ (-126 : Int))

theorem half_unit_le_singleError {m : Nat} (hm : 0 < m) (s : Sign) (e : Int) :
    (2 : ℚ) ^ (Format.binary32.targetExponent (totalExponent m e) - 1) ≤
      singleError (toRat (.finite s m e hm)) := by
  have hscale : (0 : ℚ) ≤ 2 ^ (-24 : Int) := by positivity
  rw [singleError, abs_toRat_finite]
  have hexponent : Format.binary32.targetExponent (totalExponent m e) - 1 =
      -24 + max (m.log2 + e : Int) (-126) := by
    simp only [Format.targetExponent, totalExponent, Format.mantissaBits, Format.minExponent]
    omega
  rw [hexponent, zpow_add₀ two_ne_zero]
  refine mul_le_mul_of_nonneg_left ?_ hscale
  rcases max_choice (m.log2 + e : Int) (-126) with hmax | hmax
  · rw [hmax]
    exact le_max_of_le_left (two_pow_log2_le hm e)
  · rw [hmax]
    exact le_max_right _ _

theorem representable_largestSingle : Representable .binary32 largestSingle := by
  refine ⟨2 ^ 24 - 1, 104, ⟨by decide, Or.inl (by decide), by decide⟩, by decide, ?_⟩
  norm_num [largestSingle]

/-- Numbers **within the range** are stored as numbers. -/
theorem isFinite_narrow {x : Float} (hx : x.isFinite = true) (hle : |valueOf x| ≤ largestSingle) :
    (narrow x).isFinite = true := by
  unfold valueOf at hle
  change (ofFloat x).isFinite = true at hx
  show (unpack .binary32 (pack .binary32 ((ofFloat x).roundTo .binary32))).isFinite = true
  generalize ofFloat x = x at *
  cases x with
  | infinity s => exact absurd hx nofun
  | notANumber => exact absurd hx nofun
  | zero s =>
      have hzero : unpack .binary32 (pack .binary32 (roundTo .binary32 (.zero s))) = .zero s :=
        unpack_packedZero
      rw [hzero]
      rfl
  | finite s m e hm =>
      rw [abs_toRat_finite] at hle
      exact (within_round s hm representable_largestSingle hle).isFinite

/-- **Narrowing** moves a number by at most half a unit, unless it is beyond the range. -/
theorem abs_narrow_sub_le {x : Float} (h : (narrow x).isFinite = true) :
    x.isFinite = true ∧
      |toRat (ofSingle (narrow x)) - valueOf x| ≤ singleError (valueOf x) := by
  have hfinite : (ofSingle (narrow x)).isFinite = true := h
  have hstored : ofSingle (narrow x) = unpack .binary32 (pack .binary32 ((ofFloat x).roundTo _)) :=
    rfl
  rw [valueOf, hstored]
  rw [hstored] at hfinite
  show (ofFloat x).isFinite = true ∧ _
  generalize ofFloat x = x at *
  cases x with
  | infinity s =>
      have hstored : UnpackedFloat.isFinite (.infinity s) = true :=
        unpack_packedInfinity .binary32 s ▸ hfinite
      cases hstored
  | notANumber => cases hfinite
  | zero s =>
      have hzero : unpack .binary32 (pack .binary32 (roundTo .binary32 (.zero s))) = .zero s :=
        unpack_packedZero
      rw [hzero, singleError, sub_self, abs_zero]
      exact ⟨rfl, by positivity⟩
  | finite s m e hm =>
      rw [roundTo, unpack_pack_round_of_isFinite s hm hfinite]
      exact ⟨rfl, (abs_toRat_round_sub_le s hm rfl).trans (half_unit_le_singleError hm s e)⟩

end BatchNorm
