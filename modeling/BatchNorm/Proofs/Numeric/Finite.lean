import BatchNorm.Numeric.Exact
import Mathlib

/-!
# Counts as binary64 numbers

The number of elements of an array is far below the largest binary64 number, so
it is a finite one (`isFinite_natCast`). The proof follows the length of the
mantissa and the exponent through the conversion: rounding raises both by little,
and packing keeps them unless they are beyond the format.
-/

set_option autoImplicit false

namespace BatchNorm

namespace Exact

open Float.Model Float.Model.UnpackedFloat

/-- A zero, or a finite number with a mantissa of at most `a` bits and an
exponent of at most `k`. -/
inductive Bounded (a : Nat) (k : Int) : Exact → Prop
  | zero (s : Sign) : Bounded a k (.zero s)
  | finite {s : Sign} {m : Nat} {e : Int} {hm : 0 < m} (hmantissa : m < 2 ^ a)
      (hexponent : e ≤ k) : Bounded a k (.finite s m e hm)

theorem Bounded.mono {a : Nat} {k k' : Int} {x : Exact} (h : Bounded a k x) (hk : k ≤ k') :
    Bounded a k' x := by
  cases h with
  | zero s => exact .zero s
  | finite hm he => exact .finite hm (le_trans he hk)

theorem Bounded.isFinite {a : Nat} {k : Int} {x : Exact} (h : Bounded a k x) :
    x.isFinite = true := by
  cases h with
  | zero s => rfl
  | finite hm he => rfl

/-! ## Rounding -/

theorem shift_mantissa_le (em : ExtendedMantissa) (n : Nat) : (em >>> n).mantissa ≤ em.mantissa := by
  show (n.repeat ExtendedMantissa.shiftRightOne em).mantissa ≤ em.mantissa
  induction n with
  | zero => exact le_refl _
  | succ n ih => exact le_trans (Nat.div_le_self _ 2) ih

theorem roundedMantissa_le (em : ExtendedMantissa) : em.roundedMantissa ≤ em.mantissa + 1 := by
  obtain ⟨m, r, s⟩ := em
  cases r <;> cases s <;>
    simp only [ExtendedMantissa.roundedMantissa, ExtendedMantissa.accuracy,
      Accuracy.roundToNearestEven] <;> omega

theorem shiftToTargetExponent_exponent_le {m a : Nat} {e k : Int} (acc : Accuracy)
    (hm : m < 2 ^ a) (he : e ≤ k) (hk : 0 ≤ k) :
    (shiftToTargetExponent .binary64 m e acc).2 ≤ k + a := by
  have hlog : m.log2 ≤ a := by
    rcases Nat.eq_zero_or_pos m with rfl | hpos
    · simp
    · exact ((Nat.log2_lt hpos.ne').mpr hm).le
  simp only [shiftToTargetExponent, shiftToExponent, Format.targetExponent, totalExponent,
    Format.mantissaBits, Format.minExponent]
  omega

theorem shiftToTargetExponent_mantissa_le (m : Nat) (e : Int) (acc : Accuracy) :
    (shiftToTargetExponent .binary64 m e acc).1.mantissa ≤ m := by
  have hinit : (ExtendedMantissa.ofMantissaAndAccuracy m acc).mantissa = m := by
    cases acc with
    | exact => rfl
    | inexact o => cases o <;> rfl
  exact le_trans (shift_mantissa_le (ExtendedMantissa.ofMantissaAndAccuracy m acc) _) hinit.le

/-- The two shifts of a rounding raise the exponent by the length of the
mantissa each. -/
theorem bounded_roundWithAccuracy {m a : Nat} {e k : Int} (s : Sign) (acc : Accuracy)
    (hm : m < 2 ^ a) (he : e ≤ k) (hk : 0 ≤ k) :
    Bounded (a + 1) (k + a + (a + 1 : Nat)) (roundWithAccuracy .binary64 s m e acc) := by
  have hfirst := shiftToTargetExponent_exponent_le acc hm he hk
  have hmantissa := shiftToTargetExponent_mantissa_le m e acc
  unfold roundWithAccuracy
  generalize shiftToTargetExponent .binary64 m e acc = shifted at hfirst hmantissa
  obtain ⟨em, e₁⟩ := shifted
  -- rounding up may carry into one more bit
  have hrounded : em.roundedMantissa < 2 ^ (a + 1) := by
    have hle := roundedMantissa_le em
    have hle' : em.mantissa ≤ m := hmantissa
    have hpos := Nat.one_le_two_pow (n := a)
    rw [Nat.pow_succ]
    omega
  have hexponent := shiftToTargetExponent_exponent_le .exact hrounded hfirst (by omega)
  have hsecond := shiftToTargetExponent_mantissa_le em.roundedMantissa e₁ .exact
  show Bounded _ _
    (if h : (shiftToTargetExponent .binary64 em.roundedMantissa e₁ .exact).1.mantissa = 0
      then .zero s else .finite s _ _ (Nat.pos_of_ne_zero h))
  split
  · exact .zero s
  · exact .finite (lt_of_le_of_lt hsecond hrounded) hexponent

theorem bounded_mul {a a' : Nat} {k k' : Int} {x x' : Exact} (h : Bounded a k x)
    (h' : Bounded a' k' x') (hk : 0 ≤ k + k') :
    Bounded (a + a' + 1) (k + k' + (a + a' : Nat) + (a + a' + 1 : Nat)) (mul .binary64 x x') := by
  cases h with
  | zero s => cases h' with
      | zero s' => exact .zero _
      | finite hm' he' => exact .zero _
  | finite hm he => cases h' with
      | zero s' => exact .zero _
      | finite hm' he' =>
          refine bounded_roundWithAccuracy _ _ ?_ (add_le_add he he') hk
          rw [Nat.pow_add]
          exact Nat.mul_lt_mul'' hm hm'

theorem bounded_ofNat {n : Nat} (h : n < 2 ^ 64) :
    Bounded 118 235 (UnpackedFloat.ofNat .binary64 n) := by
  have hshift : ∀ e : Int, -53 ≤ e → n <<< (0 - e).toNat < 2 ^ 117 := by
    intro e he
    have hle : 2 ^ (0 - e).toNat ≤ 2 ^ 53 := Nat.pow_le_pow_right (by decide) (by omega)
    rw [Nat.shiftLeft_eq]
    calc n * 2 ^ (0 - e).toNat ≤ n * 2 ^ 53 := Nat.mul_le_mul_left n hle
      _ < 2 ^ 64 * 2 ^ 53 := Nat.mul_lt_mul_of_pos_right h (by decide)
      _ = 2 ^ 117 := by decide
  simp only [UnpackedFloat.ofNat, UnpackedFloat.ofInt, UnpackedFloat.normalize]
  split
  · rename_i hneg
    have hneg := Int.compare_eq_lt.mp hneg
    omega
  · exact .zero _
  · refine bounded_roundWithAccuracy (k := 0) _ _ (hshift _ ?_) ?_ le_rfl
    · simp only [Format.targetExponent, totalExponent, Format.mantissaBits]
      omega
    · omega

/-- A decimal number without an exponent is a product with one. -/
theorem ofScientific_natCast {n : Nat} (h : 0 < n) :
    UnpackedFloat.ofScientific .binary64 n (Int.ofNat 0) =
      mul .binary64 (.finite .positive (n * 2 ^ 53) (-53) (Nat.mul_pos h (Nat.two_pow_pos 53)))
        (.finite .positive 1 0 one_pos) := by
  have hlarge : ¬ Int.ofNat 0 > 2 ^ Format.binary64.exponentBits := by decide
  have hsmall : ¬ Int.ofNat 0 < -(2 ^ Format.binary64.exponentBits + n.log2) := by
    have hpos : (0 : Int) < 2 ^ Format.binary64.exponentBits := by decide
    have hzero : Int.ofNat 0 = 0 := rfl
    omega
  unfold UnpackedFloat.ofScientific
  rw [dif_neg h.ne', if_neg hlarge, if_neg hsmall, if_pos (by decide)]
  simp only [Nat.shiftLeft_eq]
  rfl

theorem bounded_ofScientific {n : Nat} (h : n < 2 ^ 64) :
    Bounded (117 + 1 + 1) 237 (UnpackedFloat.ofScientific .binary64 n (Int.ofNat 0)) := by
  rcases Nat.eq_zero_or_pos n with rfl | hpos
  · exact .zero _
  · rw [ofScientific_natCast hpos]
    have hn : n * 2 ^ 53 < 2 ^ 117 := Nat.mul_lt_mul_of_pos_right h (by decide)
    have hexponents : (0 : Int) + 0 + (117 + 1 : Nat) + (117 + 1 + 1 : Nat) ≤ 237 := by decide
    refine Bounded.mono ?_ hexponents
    exact bounded_mul (.finite hn (by decide)) (.finite (by decide) le_rfl) le_rfl

/-! ## Packing -/

theorem bounded_unpack {k : Int} {s : Sign} {e : BitVec 11} {m : BitVec 52} (h0 : 0 ≤ k)
    (hk : k ≤ 970) (he : (e.toNat : Int) ≤ k + 1075) :
    Bounded 53 k (UnpackedFloat.unpack .binary64 (packComponents .binary64 s e m)) := by
  -- an exponent of ones only would be an infinity or a NaN
  have hne : e ≠ -1#11 := fun heq => by
    rw [heq] at he
    simp at he
    omega
  simp only [UnpackedFloat.unpack, unpackExponent_packComponents, unpackMantissa_packComponents]
  rw [if_neg hne]
  split
  · split
    · exact .zero _
    · refine .finite (by omega) ?_
      simp_all [Format.exponentBias]
      omega
  · refine .finite (by omega) ?_
    simp [Format.exponentBias]
    omega

/-- A finite number below the largest exponent keeps it when it is packed. -/
theorem pack_finite {m : Nat} {e : Int} (s : Sign) (hm : 0 < m) (he : e ≤ 970) :
    ∃ (e' : BitVec 11) (m' : BitVec 52), (e'.toNat : Int) ≤ max 0 (e + 1075) ∧
      UnpackedFloat.pack .binary64 (.finite s m e hm) = packComponents .binary64 s e' m' := by
  have hbias : (e + Format.binary64.exponentBias + (52 : Nat)).toNat = (e + 1075).toNat := by
    simp [Format.exponentBias]
    omega
  rw [UnpackedFloat.pack]
  simp only [hbias]
  rw [if_neg (by norm_num; omega)]
  split_ifs
  · refine ⟨_, _, ?_, rfl⟩
    rw [BitVec.toNat_ofNat]
    omega
  · exact ⟨_, _, by simp, rfl⟩

/-- What is unpacked from a packed number below the largest exponent is finite. -/
theorem bounded_unpack_pack {a : Nat} {k : Int} {x : Exact} (h : Bounded a k x) (h0 : 0 ≤ k)
    (hk : k ≤ 970) :
    Bounded 53 k (UnpackedFloat.unpack .binary64 (UnpackedFloat.pack .binary64 x)) := by
  cases h with
  | zero s => exact bounded_unpack h0 hk (by simp; omega)
  | finite hm he =>
      obtain ⟨e', m', hle, heq⟩ := pack_finite _ _ (le_trans he hk)
      rw [heq]
      exact bounded_unpack h0 hk (by omega)

end Exact

open Exact Float.Model Float.Model.UnpackedFloat

theorem isFinite_ofModel {x : Exact} {a : Nat} {k : Int} (h : Bounded a k x) (h0 : 0 ≤ k)
    (hk : k ≤ 970) : (Float.ofModel (Float.Model.pack x)).isFinite = true :=
  (bounded_unpack_pack h h0 hk).isFinite

/-- **Counts are finite.** A number of elements that fits a word of 64 bits is a
finite binary64 number. -/
theorem isFinite_natCast {n : Nat} (h : n < 2 ^ 64) : (n : Float).isFinite = true := by
  show (Float.ofScientific n false 0).isFinite = true
  unfold Float.ofScientific
  split
  · -- a short count is converted as a word and multiplied with one
    have hword : Bounded 53 235 (UInt64.toFloat n.toUInt64).toModel.unpack :=
      bounded_unpack_pack (bounded_ofNat n.toUInt64.toNat_lt) (by decide) (by decide)
    have hone : (Float.ofBits 0x3FF0000000000000).toModel.unpack =
        .finite .positive (2 ^ 52) (-52) (by decide) := by rfl
    have hone : Bounded 53 0 (Float.ofBits 0x3FF0000000000000).toModel.unpack := by
      rw [hone]
      exact .finite (by decide) (by decide)
    exact isFinite_ofModel (bounded_mul hword hone (by decide)) (by decide) (by decide)
  · -- a long count is rounded as a decimal number without an exponent
    simp only [Bool.false_eq_true, if_false]
    exact isFinite_ofModel (bounded_ofScientific h) (by decide) (by decide)

end BatchNorm
