import BatchNorm.Proofs.Numeric.Finite
import BatchNorm.Proofs.Numeric.Rounding

/-!
# Binary32 numbers as rationals

A finite binary32 number is `± m * 2 ^ e` with a mantissa of 24 bits and an exponent of at
most 104 (`bounded_ofSingle`), and every such number with a full mantissa and an exponent
of at least -149 is there (`exists_single`). So a rational number of the normal range has
a binary32 number below it that is near to it (`exists_single_below`).
-/

set_option autoImplicit false

namespace BatchNorm

namespace Exact

open Float.Model (Format)
open Float.Model.UnpackedFloat

/-- The rational number that a finite value is. A NaN and the infinities are none; they
give zero. -/
def toRat : Exact → ℚ
  | .finite sign mantissa exponent _ => signed sign mantissa * 2 ^ exponent
  | _ => 0

theorem bounded_unpack_single {b : BitVec 32} (h : (unpack .binary32 b).isFinite = true) :
    Bounded 24 104 (unpack .binary32 b) := by
  have hmantissa : (@unpackMantissa .binary32 b).toNat < 2 ^ 23 := BitVec.isLt _
  have hexponent : (@unpackExponent .binary32 b).toNat < 2 ^ 8 := BitVec.isLt _
  unfold unpack at h ⊢
  dsimp only at h ⊢
  split at h
  · split at h
    · exact absurd h nofun
    · exact absurd h nofun
  · rename_i hone
    rw [if_neg hone]
    split
    · rename_i hzero
      split
      · exact .zero _
      · refine .finite (by omega) ?_
        rw [hzero]
        decide
    · refine .finite (BitVec.isLt _) ?_
      have hne : (@unpackExponent .binary32 b).toNat ≠ 255 :=
        fun heq => hone (BitVec.eq_of_toNat_eq heq)
      show ((@unpackExponent .binary32 b).toNat : Int) - 150 ≤ 104
      omega

/-- Finite binary32 numbers have short mantissas and bounded exponents. -/
theorem bounded_ofSingle {x : Float32} (h : x.isFinite = true) : Bounded 24 104 (ofSingle x) :=
  bounded_unpack_single h

/-- A full mantissa and an exponent in range survive packing. -/
theorem unpack_pack_single (s : Sign) {m : Nat} {e : Int} (hm : 0 < m) (hfull : 2 ^ 23 ≤ m)
    (hlt : m < 2 ^ 24) (hleast : -149 ≤ e) (hmost : e ≤ 104) :
    unpack .binary32 (pack .binary32 (.finite s m e hm)) = .finite s m e hm :=
  unpack_pack_finite .binary32 s hm ⟨hlt, Or.inl hfull, hleast⟩ (Int.lt_add_one_of_le hmost)

theorem signed_eq (s : Sign) (m : Nat) : signed s m = signed s 1 * m := by
  cases s with
  | positive => simp [signed]
  | negative => simp [signed]

theorem exists_single (s : Sign) {m : Nat} {e : Int} (hfull : 2 ^ 23 ≤ m) (hlt : m < 2 ^ 24)
    (hleast : -149 ≤ e) (hmost : e ≤ 104) :
    ∃ x : Float32, x.isFinite = true ∧ (ofSingle x).toRat = signed s 1 * (m * 2 ^ e) := by
  have hm : 0 < m := by omega
  have hx := unpack_pack_single s hm hfull hlt hleast hmost
  refine ⟨.ofModel (.pack (.finite s m e hm)), ?_, ?_⟩
  · show (unpack .binary32 (pack .binary32 (.finite s m e hm))).isFinite = true
    rw [hx]
    rfl
  · show toRat (unpack .binary32 (pack .binary32 (.finite s m e hm))) = _
    rw [hx, toRat, signed_eq]
    push_cast
    exact mul_assoc _ _ _

theorem abs_signed (s : Sign) (m : Nat) : |(signed s m : ℚ)| = m := by
  cases s with
  | positive => simp [signed]
  | negative => simp [signed]

theorem abs_toRat_finite {s : Sign} {m : Nat} {e : Int} {hm : 0 < m} :
    |toRat (.finite s m e hm)| = m * 2 ^ e := by
  have hpow : (0 : ℚ) ≤ 2 ^ e := by positivity
  rw [toRat, abs_mul, abs_signed, abs_of_nonneg hpow]

/-- The largest binary32 number. -/
def largestSingle : ℚ := (2 ^ 24 - 1) * 2 ^ 104

theorem abs_toRat_le {x : Exact} (h : Bounded 24 104 x) : |toRat x| ≤ largestSingle := by
  cases h with
  | zero s =>
      show |(0 : ℚ)| ≤ largestSingle
      rw [abs_zero, largestSingle]
      norm_num
  | finite hm he =>
      rename_i s m e hpos
      have hmantissa : (m : ℚ) ≤ 2 ^ 24 - 1 := by
        have hle : m + 1 ≤ 2 ^ 24 := hm
        have hcast : (m : ℚ) + 1 ≤ 2 ^ 24 := by exact_mod_cast hle
        linarith
      have hpower : (2 : ℚ) ^ e ≤ 2 ^ (104 : ℤ) := zpow_le_zpow_right₀ one_le_two he
      rw [abs_toRat_finite, largestSingle]
      exact mul_le_mul hmantissa hpower (by positivity) (by norm_num)

/-- A number of the normal range has a binary32 number below it that is near to it. -/
theorem exists_single_below (s : Sign) {q : ℚ} (hleast : 2 ^ (-126 : ℤ) ≤ q)
    (hmost : q < 2 ^ (128 : ℤ)) :
    ∃ (x : Float32) (r : ℚ), x.isFinite = true ∧ (ofSingle x).toRat = signed s 1 * r ∧
      r ≤ q ∧ q * (1 - 1 / 2 ^ 23) < r := by
  have hq : 0 < q := lt_of_lt_of_le (by positivity) hleast
  have hbelow : (2 : ℚ) ^ Int.log 2 q ≤ q := by
    exact_mod_cast Int.zpow_log_le_self (b := 2) (by decide) hq
  have habove : q < (2 : ℚ) ^ (Int.log 2 q + 1) := by
    exact_mod_cast Int.lt_zpow_succ_log_self (b := 2) (by decide) q
  generalize Int.log 2 q = k at hbelow habove
  have hkleast : -126 ≤ k := by
    have hlt : (2 : ℚ) ^ (-126 : ℤ) < 2 ^ (k + 1) := lt_of_le_of_lt hleast habove
    have hexponent := (zpow_lt_zpow_iff_right₀ one_lt_two).mp hlt
    omega
  have hkmost : k ≤ 127 := by
    have hlt : (2 : ℚ) ^ k < 2 ^ (128 : ℤ) := lt_of_le_of_lt hbelow hmost
    have hexponent := (zpow_lt_zpow_iff_right₀ one_lt_two).mp hlt
    omega
  -- the mantissa counts how often the last place fits into the number
  have hplace : (0 : ℚ) < 2 ^ (k - 23) := by positivity
  have hlow : (2 : ℚ) ^ k = (2 ^ 23 : Nat) * 2 ^ (k - 23) := by
    rw [Nat.cast_pow, Nat.cast_ofNat, ← zpow_natCast, ← zpow_add₀ two_ne_zero]
    congr 1
    omega
  have hhigh : (2 : ℚ) ^ (k + 1) = (2 ^ 24 : Nat) * 2 ^ (k - 23) := by
    rw [Nat.cast_pow, Nat.cast_ofNat, ← zpow_natCast, ← zpow_add₀ two_ne_zero]
    congr 1
    omega
  have hfloor : (⌊q / 2 ^ (k - 23)⌋₊ : ℚ) ≤ q / 2 ^ (k - 23) := Nat.floor_le (by positivity)
  have hnext : q / 2 ^ (k - 23) < ⌊q / 2 ^ (k - 23)⌋₊ + 1 := Nat.lt_floor_add_one _
  have hfull : 2 ^ 23 ≤ ⌊q / 2 ^ (k - 23)⌋₊ := by
    refine Nat.le_floor ?_
    rwa [le_div_iff₀ hplace, ← hlow]
  have hlt : ⌊q / 2 ^ (k - 23)⌋₊ < 2 ^ 24 := by
    rwa [Nat.floor_lt (by positivity), div_lt_iff₀ hplace, ← hhigh]
  obtain ⟨x, hfinite, hx⟩ := exists_single s hfull hlt (by omega : -149 ≤ k - 23) (by omega)
  refine ⟨x, ⌊q / 2 ^ (k - 23)⌋₊ * 2 ^ (k - 23), hfinite, hx, ?_, ?_⟩
  · rwa [le_div_iff₀ hplace] at hfloor
  · rw [div_lt_iff₀ hplace] at hnext
    have hunit : 2 ^ 23 * (2 : ℚ) ^ (k - 23) ≤ q := by
      rw [hlow] at hbelow
      exact_mod_cast hbelow
    linarith

end Exact

end BatchNorm
