import BatchNorm.Proofs.Numeric.Monotone

/-!
# Saturation

The ends of an integer range are rounded to binary32 before a value is clamped to them. Up
to 24 bits they are numbers of that format; for a wider type the upper end is rounded up, by
one (`toSingle_ceiling`). So a saturated value is in the range of its type, unless the type is
wide and the value is beyond the range (`saturate_range`).

A signed byte is stored for what a number becomes in binary32: the nearest integer, ties to
even, between the ends of the range (`signed_bytes`).
-/

set_option autoImplicit false

namespace BatchNorm

open Exact
open Float.Model (Format)

namespace IntegerType

/-! ## The ends of a range -/

/-- What the upper end of a range becomes in binary32. -/
def ceiling (t : IntegerType) : Int := if 24 < t.bits then t.greatest + 1 else t.greatest

variable {t : IntegerType}

theorem toSingle_greatest (ht : t ∈ all) :
    (Exact.ofInt t.greatest).toSingle = (Exact.ofInt t.ceiling).toSingle := by
  simp only [all, List.mem_cons, List.not_mem_nil, or_false] at ht
  rcases ht with rfl | rfl | rfl | rfl | rfl | rfl | rfl | rfl <;> rfl

theorem bits_of_mem (ht : t ∈ all) : 0 < t.bits ∧ t.bits ≤ 64 ∧ (24 < t.bits → 32 ≤ t.bits) := by
  simp only [all, List.mem_cons, List.not_mem_nil, or_false] at ht
  rcases ht with rfl | rfl | rfl | rfl | rfl | rfl | rfl | rfl <;> decide

/-- A short integer, with further zeros, as a number of binary32. -/
theorem toSingle_of_short {i n : Int} {k : Nat} (hi : i = n * 2 ^ k) (hn : n.natAbs < 2 ^ 24)
    (hk : k ≤ 64) : (ofSingle (Exact.ofInt i).toSingle).isFinite = true ∧
      toRat (ofSingle (Exact.ofInt i).toSingle) = i := by
  have hrange : Representable .binary32 (2 ^ (88 : Int)) :=
    representable_two_pow (by decide) (by decide)
  have hle : |(n : ℚ) * 2 ^ k| ≤ 2 ^ (88 : Int) := by
    have hdigits : |(n : ℚ)| ≤ 2 ^ 24 := by
      rw [← Int.cast_abs, Int.abs_eq_natAbs]
      exact_mod_cast hn.le
    rw [abs_mul, abs_of_pos (by positivity : (0 : ℚ) < 2 ^ k)]
    calc |(n : ℚ)| * 2 ^ k ≤ 2 ^ 24 * 2 ^ 64 :=
          mul_le_mul hdigits (pow_le_pow_right₀ one_le_two hk) (by positivity) (by positivity)
      _ = 2 ^ (88 : Int) := by norm_num
  subst hi
  push_cast
  exact converted_ofInt (f := Format.binary32) (by decide) hrange hn hle

/-- **The ends of a range** in binary32. -/
theorem toSingle_least (ht : t ∈ all) :
    (ofSingle (Exact.ofInt t.least).toSingle).isFinite = true ∧
      toRat (ofSingle (Exact.ofInt t.least).toSingle) = t.least := by
  obtain ⟨_, hbits, _⟩ := bits_of_mem ht
  unfold least
  split
  · exact toSingle_of_short (n := -1) (k := t.bits - 1) (by simp) (by decide) (by omega)
  · exact toSingle_of_short (n := 0) (k := 0) rfl (by decide) (by decide)

theorem toSingle_ceiling (ht : t ∈ all) :
    (ofSingle (Exact.ofInt t.greatest).toSingle).isFinite = true ∧
      toRat (ofSingle (Exact.ofInt t.greatest).toSingle) = t.ceiling := by
  obtain ⟨_, hbits, _⟩ := bits_of_mem ht
  rw [toSingle_greatest ht]
  unfold ceiling greatest
  split_ifs with hwide hsigned hsigned
  · exact toSingle_of_short (n := 1) (k := t.bits - 1) (by simp) (by decide) (by omega)
  · exact toSingle_of_short (n := 1) (k := t.bits) (by simp) (by decide) (by omega)
  · refine toSingle_of_short (k := 0) (mul_one _).symm ?_ (by decide)
    have hpow : 2 ^ (t.bits - 1) ≤ 2 ^ 23 := Nat.pow_le_pow_right two_pos (by omega)
    have hpos := Nat.two_pow_pos (t.bits - 1)
    simp only [Nat.pow_eq]
    omega
  · refine toSingle_of_short (k := 0) (mul_one _).symm ?_ (by decide)
    have hpow : 2 ^ t.bits ≤ 2 ^ 24 := Nat.pow_le_pow_right two_pos (by omega)
    have hpos := Nat.two_pow_pos t.bits
    simp only [Nat.pow_eq]
    omega

theorem least_nonpos (t : IntegerType) : t.least ≤ 0 := by
  unfold least
  split
  · simp
  · exact le_rfl

theorem greatest_nonneg (t : IntegerType) : 0 ≤ t.greatest := by
  have hpow : ∀ n : Nat, 0 ≤ (Nat.pow 2 n : Int) - 1 := by
    intro n
    have hpos := Nat.two_pow_pos n
    simp only [Nat.pow_eq]
    omega
  unfold greatest
  split
  · exact hpow _
  · exact hpow _

theorem greatest_le_ceiling (t : IntegerType) : t.greatest ≤ t.ceiling := by
  unfold ceiling
  split
  · omega
  · exact le_rfl

theorem least_le_ceiling (t : IntegerType) : t.least ≤ t.ceiling :=
  (t.least_nonpos.trans t.greatest_nonneg).trans t.greatest_le_ceiling

theorem place_least_le (t : IntegerType) :
    ((t.least : ℝ) : EReal) ≤ ((t.ceiling : ℝ) : EReal) := by
  exact_mod_cast t.least_le_ceiling

/-! ## Saturated values -/

/-- A value as it is clamped: a NaN is replaced by zero. -/
theorem extended_cleared (x : Float32) :
    (ofSingle (if x == x then x else 0)).isNaN = false ∧
      extended (ofSingle (if x == x then x else 0)) = extended (ofSingle x) := by
  rw [Float32.beq_self]
  cases hnan : x.isNaN with
  | false => exact ⟨hnan, rfl⟩
  | true =>
      have hzero : ofSingle 0 = .zero .positive := rfl
      rw [Bool.not_true, if_neg Bool.false_ne_true, hzero, extended_zero,
        extended_of_isNaN (x := ofSingle x) hnan]
      exact ⟨rfl, rfl⟩

/-- Clamping to the ends is clamping on the line, where a NaN has its place at zero. -/
theorem extended_saturate (ht : t ∈ all) (x : Float32) :
    (ofSingle (t.saturate x)).isNaN = false ∧ extended (ofSingle (t.saturate x)) =
      max ((t.least : ℝ) : EReal) (min (extended (ofSingle x)) ((t.ceiling : ℝ) : EReal)) := by
  obtain ⟨hfinite, hleast⟩ := toSingle_least ht
  obtain ⟨hfinite', hceiling⟩ := toSingle_ceiling ht
  have hplace := extended_of_isFinite hfinite
  have hplace' := extended_of_isFinite hfinite'
  rw [hleast, Rat.cast_intCast] at hplace
  rw [hceiling, Rat.cast_intCast] at hplace'
  obtain ⟨hnan, hx⟩ := extended_cleared x
  unfold saturate
  dsimp only
  rw [← hx]
  generalize (if x == x then x else 0) = y at hnan
  have hbelow := Float32.lt_iff_extended hnan (not_isNaN hfinite)
  have habove := Float32.lt_iff_extended (not_isNaN hfinite') hnan
  rw [hplace] at hbelow
  rw [hplace'] at habove
  split_ifs with hlow hhigh
  · rw [hbelow] at hlow
    rw [max_eq_left ((min_le_left _ _).trans hlow.le), hplace]
    exact ⟨not_isNaN hfinite, rfl⟩
  · rw [habove] at hhigh
    rw [min_eq_right hhigh.le, max_eq_right t.place_least_le, hplace']
    exact ⟨not_isNaN hfinite', rfl⟩
  · rw [hbelow, not_lt] at hlow
    rw [habove, not_lt] at hhigh
    rw [min_eq_left hhigh, max_eq_right hlow]
    exact ⟨hnan, rfl⟩

/-- The place of a saturated value is a number between the ends. -/
theorem toRat_saturate (ht : t ∈ all) (x : Float32) :
    (ofSingle (t.saturate x)).isFinite = true ∧
      ((toRat (ofSingle (t.saturate x)) : ℝ) : EReal) =
        max ((t.least : ℝ) : EReal) (min (extended (ofSingle x)) ((t.ceiling : ℝ) : EReal)) := by
  obtain ⟨hnan, hplace⟩ := extended_saturate ht x
  have hfinite : (ofSingle (t.saturate x)).isFinite = true := by
    refine isFinite_of_extended hnan (a := t.least) (b := t.ceiling) ?_ ?_
    · rw [hplace]
      exact le_max_left _ _
    · rw [hplace]
      exact max_le t.place_least_le (min_le_right _ _)
  rw [extended_of_isFinite hfinite] at hplace
  exact ⟨hfinite, hplace⟩

theorem toRat_saturate_of_isFinite (ht : t ∈ all) {x : Float32} (hx : (ofSingle x).isFinite = true) :
    toRat (ofSingle (t.saturate x)) = max (t.least : ℚ) (min (toRat (ofSingle x)) t.ceiling) := by
  obtain ⟨_, hplace⟩ := toRat_saturate ht x
  have hcast : ∀ i : Int, ((i : ℝ) : EReal) = (((i : ℚ) : ℝ) : EReal) := by
    intro i
    rw [Rat.cast_intCast]
  rw [extended_of_isFinite hx, hcast, hcast, ← strictMono_place.monotone.map_min,
    ← strictMono_place.monotone.map_max] at hplace
  exact strictMono_place.injective hplace

theorem saturate_mono (ht : t ∈ all) {x y : Float32}
    (h : extended (ofSingle x) ≤ extended (ofSingle y)) :
    toRat (ofSingle (t.saturate x)) ≤ toRat (ofSingle (t.saturate y)) := by
  refine strictMono_place.le_iff_le.mp ?_
  show ((toRat (ofSingle (t.saturate x)) : ℝ) : EReal) ≤ ((toRat (ofSingle (t.saturate y)) : ℝ) : EReal)
  rw [(toRat_saturate ht x).2, (toRat_saturate ht y).2]
  exact max_le_max le_rfl (min_le_min h le_rfl)

/-! ## The range -/

/-- A number of the range in a word of the type. -/
theorem toInt_ofInt (hbits : 0 < t.bits) {n : Int} (h : t.holds n = true) :
    t.toInt (t.ofInt n) = n := by
  obtain ⟨s, k⟩ := t
  obtain ⟨k, rfl⟩ : ∃ j, k = j + 1 := ⟨k - 1, by simp only at hbits; omega⟩
  simp only [holds, Bool.and_eq_true, decide_eq_true_eq] at h
  have hpow : (2 : Int) ^ (k + 1) = 2 * 2 ^ k := pow_succ' 2 k
  cases s with
  | true =>
      simp only [least, greatest, if_true, Nat.add_sub_cancel, Nat.pow_eq] at h
      simp only [toInt, ofInt, if_true, BitVec.toInt_ofInt]
      push_cast at h
      refine Int.bmod_eq_of_le ?_ ?_
      · push_cast
        omega
      · push_cast
        omega
  | false =>
      simp only [least, greatest, Bool.false_eq_true, if_false, Nat.pow_eq] at h
      simp only [toInt, ofInt, Bool.false_eq_true, if_false, BitVec.toNat_ofInt]
      push_cast at h ⊢
      rw [Int.emod_eq_of_lt h.1 (by omega), Int.toNat_of_nonneg h.1]

/-- Binary32 numbers below an integer of more than 24 bits are not in between it and the
integer before. -/
theorem toRat_le_sub_one {x : Exact} (hx : Bounded 24 104 x) {n : Int} (hn : 2 ^ 24 < n)
    (hlt : toRat x < n) : toRat x ≤ n - 1 := by
  have hlarge : (2 : ℚ) ^ 24 + 1 ≤ n := by exact_mod_cast hn
  cases hx with
  | zero s =>
      show (0 : ℚ) ≤ n - 1
      linarith
  | finite hm he =>
      rename_i s m e hpos
      have hdigits : (m : ℚ) ≤ 2 ^ 24 := by exact_mod_cast hm.le
      rcases le_or_gt 0 e with hwhole | hfraction
      · -- a whole number
        obtain ⟨k, rfl⟩ := Int.eq_ofNat_of_zero_le hwhole
        have hinteger : toRat (.finite s m k hpos) = (Exact.signed s m * 2 ^ k : Int) := by
          rw [toRat, zpow_natCast]
          push_cast
          rfl
        rw [hinteger] at hlt ⊢
        have hle : Exact.signed s m * 2 ^ k ≤ n - 1 := Int.le_sub_one_of_lt (by exact_mod_cast hlt)
        exact_mod_cast hle
      · have hunit : (2 : ℚ) ^ e ≤ 1 := zpow_le_one_of_nonpos₀ one_le_two hfraction.le
        have hsmall : toRat (.finite s m e hpos) ≤ 2 ^ 24 := by
          refine (le_abs_self _).trans ?_
          rw [abs_toRat_finite]
          exact (mul_le_of_le_one_right (Nat.cast_nonneg m) hunit).trans hdigits
        linarith

/-- Wide types are those whose upper end has no number in binary32; a value is beyond such a
type from the next number on. -/
def Exceeds (t : IntegerType) (x : Float32) : Prop :=
  24 < t.bits ∧ (Exact.ofInt t.greatest).toSingle ≤ x

/-- What is beyond a wide type is clamped to the integer after its range. -/
theorem toRat_saturate_of_exceeds (ht : t ∈ all) {x : Float32} (h : t.Exceeds x) :
    toRat (ofSingle (t.saturate x)) = t.greatest + 1 := by
  obtain ⟨hwide, hle⟩ := h
  obtain ⟨hfinite, hceiling⟩ := toSingle_ceiling ht
  obtain ⟨_, hplace⟩ := toRat_saturate ht x
  rw [Float32.le_iff_extended (not_isNaN hfinite) (Float32.isNaN_of_le hle).2, extended_of_isFinite hfinite, hceiling,
    Rat.cast_intCast] at hle
  have hceiling : t.ceiling = t.greatest + 1 := if_pos hwide
  rw [min_eq_right hle, max_eq_right t.place_least_le, hceiling] at hplace
  exact_mod_cast hplace

theorem lt_ceiling (ht : t ∈ all) (hwide : 24 < t.bits) : 2 ^ 24 < t.ceiling := by
  obtain ⟨_, _, hwide'⟩ := bits_of_mem ht
  have hlong : ∀ {n : Nat}, 31 ≤ n → 2 ^ 24 < Nat.pow 2 n := by
    intro n hn
    exact lt_of_lt_of_le (by decide) (Nat.pow_le_pow_right two_pos hn)
  rw [ceiling, if_pos hwide, greatest]
  split
  · have hlong := hlong (by omega : 31 ≤ t.bits - 1)
    omega
  · have hlong := hlong (by omega : 31 ≤ t.bits)
    omega

/-- Everything else is clamped to the range. -/
theorem toRat_saturate_le (ht : t ∈ all) {x : Float32} (h : ¬ t.Exceeds x) :
    toRat (ofSingle (t.saturate x)) ≤ t.greatest := by
  obtain ⟨hfinite, hplace⟩ := toRat_saturate ht x
  by_cases hwide : 24 < t.bits
  · have hlong := lt_ceiling ht hwide
    have hpos : (0 : EReal) < ((t.ceiling : ℝ) : EReal) := by
      have hpos : 0 < t.ceiling := by omega
      exact_mod_cast hpos
    have hleast : ((t.least : ℝ) : EReal) ≤ 0 := by exact_mod_cast t.least_nonpos
    have hbelow : extended (ofSingle x) < ((t.ceiling : ℝ) : EReal) := by
      obtain ⟨hfinite', hceiling⟩ := toSingle_ceiling ht
      cases hnan : (ofSingle x).isNaN with
      | true => rwa [extended_of_isNaN hnan]
      | false =>
          have hle := mt (And.intro hwide) h
          rwa [Float32.le_iff_extended (not_isNaN hfinite') hnan, extended_of_isFinite hfinite',
            hceiling, Rat.cast_intCast, not_le] at hle
    have hlt : ((toRat (ofSingle (t.saturate x)) : ℝ) : EReal) < ((t.ceiling : ℝ) : EReal) := by
      rw [hplace]
      exact max_lt (hleast.trans_lt hpos) ((min_le_left _ _).trans_lt hbelow)
    have hle := toRat_le_sub_one (bounded_ofSingle hfinite) hlong (by exact_mod_cast hlt)
    have hceiling : t.ceiling = t.greatest + 1 := if_pos hwide
    rw [hceiling] at hle
    push_cast at hle
    linarith
  · have hceiling : t.ceiling = t.greatest := if_neg hwide
    have hle : ((toRat (ofSingle (t.saturate x)) : ℝ) : EReal) ≤ ((t.greatest : ℝ) : EReal) := by
      rw [hplace, ← hceiling]
      exact max_le t.place_least_le (min_le_right _ _)
    exact_mod_cast hle

theorem least_le_toRat_saturate (ht : t ∈ all) (x : Float32) :
    (t.least : ℚ) ≤ toRat (ofSingle (t.saturate x)) := by
  have hle : ((t.least : ℝ) : EReal) ≤ ((toRat (ofSingle (t.saturate x)) : ℝ) : EReal) := by
    rw [(toRat_saturate ht x).2]
    exact le_max_left _ _
  exact_mod_cast hle

/-- The nearest integer to a number of the range is in the range. -/
theorem holds_halfEven {q : ℚ} (hleast : (t.least : ℚ) ≤ q) (hgreatest : q ≤ t.greatest) :
    t.holds (halfEven q) = true := by
  have hleast := halfEven_mono hleast
  have hgreatest := halfEven_mono hgreatest
  rw [halfEven_intCast] at hleast hgreatest
  simp [holds, hleast, hgreatest]

theorem toRat_saturate_of_isNaN (ht : t ∈ all) {x : Float32} (hx : x.isNaN = true) :
    toRat (ofSingle (t.saturate x)) = 0 := by
  obtain ⟨_, hplace⟩ := toRat_saturate ht x
  have hceiling : (0 : EReal) ≤ ((t.ceiling : ℝ) : EReal) := by
    exact_mod_cast t.greatest_nonneg.trans t.greatest_le_ceiling
  have hleast : ((t.least : ℝ) : EReal) ≤ 0 := by exact_mod_cast t.least_nonpos
  rw [extended_of_isNaN (x := ofSingle x) hx, min_eq_left hceiling, max_eq_right hleast] at hplace
  exact_mod_cast hplace

/-- Within the range it does not matter that the upper end was rounded up. -/
theorem toRat_saturate_eq_clamp (ht : t ∈ all) {x : Float32} (h : ¬ t.Exceeds x)
    (hx : x.isFinite = true) :
    toRat (ofSingle (t.saturate x)) = max (t.least : ℚ) (min (toRat (ofSingle x)) t.greatest) := by
  have hgreatest := toRat_saturate_le ht h
  rw [toRat_saturate_of_isFinite ht hx, max_le_iff, min_le_iff] at hgreatest
  rw [toRat_saturate_of_isFinite ht hx]
  rcases hgreatest.2 with hle | hle
  · have hle' : toRat (ofSingle x) ≤ t.ceiling := hle.trans (Int.cast_le.mpr t.greatest_le_ceiling)
    rw [min_eq_left hle, min_eq_left hle']
  · rw [le_antisymm (Int.cast_le.mp hle) t.greatest_le_ceiling]

/-- An element stores the nearest integer to a saturated value. -/
theorem toInt_round_saturate (ht : t ∈ all) {x : Float32} (h : ¬ t.Exceeds x) :
    t.toInt ((ElementType.integer t).round (ofSingle (t.saturate x))) =
      halfEven (toRat (ofSingle (t.saturate x))) := by
  have hholds := holds_halfEven (least_le_toRat_saturate ht x) (toRat_saturate_le ht h)
  rw [ElementType.round, ElementType.ofExact, truncate_integral (toRat_saturate ht x).1,
    toInt_ofInt (bits_of_mem ht).1 hholds]

/-- **Saturation.** A saturated value is a number from the least number of its type up, zero
for a NaN. A value that does not exceed a wide type is clamped to the range, and an element
of the type stores the nearest integer to it. A value that does is clamped to the integer
after the range, which no element stores. -/
theorem saturate_range (ht : t ∈ all) (x : Float32) :
    let q := toRat (ofSingle (t.saturate x))
    (ofSingle (t.saturate x)).isFinite = true ∧ t.least ≤ q ∧ (x.isNaN = true → q = 0) ∧
      (t.Exceeds x → q = t.greatest + 1 ∧ t.holds (halfEven q) = false) ∧
      (¬ t.Exceeds x →
        q ≤ t.greatest ∧
        (x.isFinite = true → q = max (t.least : ℚ) (min (toRat (ofSingle x)) t.greatest)) ∧
        t.holds (halfEven q) = true ∧
        t.toInt ((ElementType.integer t).round (ofSingle (t.saturate x))) = halfEven q) := by
  intro q
  have hleast := least_le_toRat_saturate ht x
  refine ⟨(toRat_saturate ht x).1, hleast, toRat_saturate_of_isNaN ht, fun hexceeds => ?_,
    fun hwithin => ?_⟩
  · have hq : q = (t.greatest + 1 : Int) := by
      rw [Int.cast_add, Int.cast_one]
      exact toRat_saturate_of_exceeds ht hexceeds
    refine ⟨toRat_saturate_of_exceeds ht hexceeds, ?_⟩
    rw [hq, halfEven_intCast]
    simp [holds]
  · have hgreatest := toRat_saturate_le ht hwithin
    exact ⟨hgreatest, toRat_saturate_eq_clamp ht hwithin, holds_halfEven hleast hgreatest,
      toInt_round_saturate ht hwithin⟩

end IntegerType

/-- Three thousand millions in the words of 8 and of 32 bits. -/
theorem saturate_range_large :
    ((⟨true, 8⟩ : IntegerType) ∈ IntegerType.all ∧ ¬ IntegerType.Exceeds ⟨true, 8⟩ 3000000000 ∧
      IntegerType.toInt ⟨true, 8⟩ ((ElementType.integer ⟨true, 8⟩).round
        (ofSingle (IntegerType.saturate ⟨true, 8⟩ 3000000000))) =
        halfEven (toRat (ofSingle (IntegerType.saturate ⟨true, 8⟩ 3000000000)))) ∧
    (⟨true, 32⟩ : IntegerType) ∈ IntegerType.all ∧ IntegerType.Exceeds ⟨true, 32⟩ 3000000000 ∧
      toRat (ofSingle (IntegerType.saturate ⟨true, 32⟩ 3000000000)) =
        (⟨true, 32⟩ : IntegerType).greatest + 1 := by
  have hbyte : (⟨true, 8⟩ : IntegerType) ∈ IntegerType.all := by decide
  have hword : (⟨true, 32⟩ : IntegerType) ∈ IntegerType.all := by decide
  have hwithin : ¬ IntegerType.Exceeds ⟨true, 8⟩ 3000000000 := by
    rintro ⟨hwide, _⟩
    exact absurd hwide (by decide)
  have hexceeds : IntegerType.Exceeds ⟨true, 32⟩ 3000000000 := ⟨by decide, by decide +kernel⟩
  obtain ⟨_, _, _, _, hrange⟩ := IntegerType.saturate_range hbyte 3000000000
  obtain ⟨_, _, _, hbeyond, _⟩ := IntegerType.saturate_range hword 3000000000
  exact ⟨⟨hbyte, hwithin, (hrange hwithin).2.2.2⟩, hword, hexceeds, (hbeyond hexceeds).1⟩

/-- A saturated value may be beyond its type: the words of 32 bits with a sign end one before
a power of two, and that power is what is left of three thousand millions. -/
theorem saturate_leaves_range :
    ¬ ∀ t ∈ [⟨true, 8⟩, ⟨true, 16⟩, ⟨true, 32⟩, ⟨true, 64⟩, ⟨false, 8⟩], ∀ x : Float32,
      (IntegerType.least t : ℚ) ≤ toRat (ofSingle (t.saturate x)) ∧
        toRat (ofSingle (t.saturate x)) ≤ t.greatest := by
  intro hall
  have hword := (hall ⟨true, 32⟩ (by decide) 3000000000).2
  have hvalue : ofSingle (IntegerType.saturate ⟨true, 32⟩ 3000000000) =
      .finite .positive (2 ^ 23) 8 (by decide) := rfl
  have hgreatest : (⟨true, 32⟩ : IntegerType).greatest = 2147483647 := rfl
  rw [hvalue, toRat_positive, hgreatest] at hword
  norm_num at hword

/-! ## Signed bytes -/

/-- The integer that a signed byte stores for a number. -/
def storedByte (x : Float) : Int := IntegerType.int8.toInt (Precision.store .s8 x)

/-- What a signed byte is to the binary32 number that it is stored for. -/
structure NearestByte (r : Float32) (n : Int) : Prop where
  range : -128 ≤ n ∧ n ≤ 127
  notANumber : r.isNaN = true → n = 0
  above : ofSingle r = .infinity .positive → n = 127
  below : ofSingle r = .infinity .negative → n = -128
  clamped : r.isFinite = true → n = halfEven (max (-128) (min (toRat (ofSingle r)) 127))
  /-- Rounding may come first. -/
  rounded : r.isFinite = true → n = max (-128) (min (halfEven (toRat (ofSingle r))) 127)
  near : r.isFinite = true → -128 ≤ toRat (ofSingle r) → toRat (ofSingle r) ≤ 127 →
    |(n : ℚ) - toRat (ofSingle r)| ≤ 1 / 2 ∧
      (|(n : ℚ) - toRat (ofSingle r)| = 1 / 2 → Even n)

theorem int8_mem : IntegerType.int8 ∈ IntegerType.all := by decide

/-- A signed byte has the range of a narrow type. -/
theorem not_exceeds_int8 (x : Float32) : ¬ IntegerType.int8.Exceeds x :=
  fun h => absurd h.1 (by decide)

theorem storedByte_eq (x : Float) :
    storedByte x = halfEven (toRat (ofSingle (IntegerType.int8.saturate (narrow x)))) :=
  IntegerType.toInt_round_saturate int8_mem (not_exceeds_int8 (narrow x))

theorem nearestByte_storedByte (x : Float) : NearestByte (narrow x) (storedByte x) := by
  have hleast := IntegerType.least_le_toRat_saturate int8_mem (narrow x)
  have hgreatest := IntegerType.toRat_saturate_le int8_mem (not_exceeds_int8 (narrow x))
  have hplace := (IntegerType.toRat_saturate int8_mem (narrow x)).2
  have hceiling : IntegerType.int8.ceiling = 127 := rfl
  have hleast' : IntegerType.int8.least = -128 := rfl
  have hgreatest' : IntegerType.int8.greatest = 127 := rfl
  have hclamped : (narrow x).isFinite = true → storedByte x =
      halfEven (max (-128 : Int) (min (toRat (ofSingle (narrow x))) (127 : Int))) := by
    intro hx
    rw [storedByte_eq, IntegerType.toRat_saturate_eq_clamp int8_mem (not_exceeds_int8 _) hx,
      hleast', hgreatest']
  constructor
  case range =>
    have hholds := IntegerType.holds_halfEven hleast hgreatest
    rw [← storedByte_eq] at hholds
    simpa [IntegerType.holds, hleast', hgreatest'] using hholds
  case notANumber =>
    intro hnan
    rw [storedByte_eq, IntegerType.toRat_saturate_of_isNaN int8_mem hnan]
    exact halfEven_intCast 0
  case above =>
    intro hr
    have hq : toRat (ofSingle (IntegerType.int8.saturate (narrow x))) = (127 : Int) := by
      rw [hr, extended, min_eq_right le_top, max_eq_right IntegerType.int8.place_least_le] at hplace
      exact_mod_cast hplace
    rw [storedByte_eq, hq, halfEven_intCast]
  case below =>
    intro hr
    have hq : toRat (ofSingle (IntegerType.int8.saturate (narrow x))) = (-128 : Int) := by
      rw [hr, extended, min_eq_left bot_le, max_eq_left bot_le] at hplace
      exact_mod_cast hplace
    rw [storedByte_eq, hq, halfEven_intCast]
  case clamped =>
    intro hx
    exact_mod_cast hclamped hx
  case rounded =>
    intro hx
    rw [hclamped hx, halfEven_clamp]
  case near =>
    intro hx hlow hhigh
    have hq : storedByte x = halfEven (toRat (ofSingle (narrow x))) := by
      rw [hclamped hx, min_eq_left (by exact_mod_cast hhigh), max_eq_right (by exact_mod_cast hlow)]
    rw [hq]
    exact ⟨abs_halfEven_sub_le _, even_halfEven⟩

theorem storedByte_mono {x y : Float} (h : x ≤ y) : storedByte x ≤ storedByte y := by
  have hnarrow := narrow_mono h
  obtain ⟨hx, hy⟩ := Float32.isNaN_of_le hnarrow
  rw [Float32.le_iff_extended hx hy] at hnarrow
  rw [storedByte_eq, storedByte_eq]
  exact halfEven_mono (IntegerType.saturate_mono int8_mem hnarrow)

theorem storedByte_ofInt {i : Int} (hlow : -128 ≤ i) (hhigh : i ≤ 127) :
    storedByte (ofInt i).toFloat = i := by
  obtain ⟨hfinite, hvalue⟩ := toRat_narrow_ofInt (i := i) (by omega)
  have hlow : (-128 : ℚ) ≤ i := by exact_mod_cast hlow
  have hhigh : (i : ℚ) ≤ 127 := by exact_mod_cast hhigh
  rw [(nearestByte_storedByte _).clamped hfinite, hvalue, min_eq_left hhigh, max_eq_right hlow,
    halfEven_intCast]

/-- **Signed bytes.** Narrowing keeps the order, the NaNs, the infinities and the integers of
a byte. What a signed byte stores of a number is the nearest integer to what narrowing makes
of it, clamped to the range; it stores a larger number as a larger integer or as the same, and
the integers of the range as they are. -/
theorem signed_bytes :
    ((∀ x y : Float, x ≤ y → narrow x ≤ narrow y) ∧
      (∀ x : Float, (narrow x).isNaN = x.isNaN) ∧
      (∀ (x : Float) s, ofFloat x = .infinity s → ofSingle (narrow x) = .infinity s) ∧
      ∀ i : Int, -128 ≤ i → i ≤ 127 → toRat (ofSingle (narrow (ofInt i).toFloat)) = i) ∧
    (∀ x : Float, NearestByte (narrow x) (storedByte x)) ∧
    (∀ x y : Float, x ≤ y → storedByte x ≤ storedByte y) ∧
    ∀ i : Int, -128 ≤ i → i ≤ 127 → storedByte (ofInt i).toFloat = i := by
  refine ⟨⟨fun _ _ => narrow_mono, isNaN_narrow, fun x s hx => ?_, fun i hlow hhigh => ?_⟩,
    nearestByte_storedByte, fun _ _ => storedByte_mono, fun _ => storedByte_ofInt⟩
  · show converted Format.binary32 (ofFloat x) = .infinity s
    rw [hx, converted_infinity]
  · exact (toRat_narrow_ofInt (by omega)).2

/-- A tie beyond the range, a NaN, a tie within, and the ends. -/
theorem signed_bytes_ties :
    (-2.5 : Float) ≤ 127.5 ∧ storedByte (-2.5) ≤ storedByte 127.5 ∧
      (narrow (0.0 / 0.0)).isNaN = true ∧ storedByte (0.0 / 0.0) = 0 ∧
      (narrow 127.5).isFinite = true ∧
      storedByte 127.5 = max (-128) (min (halfEven (toRat (ofSingle (narrow 127.5)))) 127) ∧
      storedByte (Exact.ofInt (-128)).toFloat = -128 := by
  obtain ⟨_, hbyte, hmono, hinteger⟩ := signed_bytes
  have hle : (-2.5 : Float) ≤ 127.5 := by decide +kernel
  have hnan : (narrow (0.0 / 0.0)).isNaN = true := by decide +kernel
  have hfinite : (narrow 127.5).isFinite = true := by decide +kernel
  exact ⟨hle, hmono _ _ hle, hnan, (hbyte _).notANumber hnan, hfinite, (hbyte _).rounded hfinite,
    hinteger (-128) (by decide) (by decide)⟩

end BatchNorm
