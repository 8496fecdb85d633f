import BatchNorm.Proofs.Numeric.Binary32
import BatchNorm.Reference.Quantize

/-!
# The nearest integer

`halfEven` is the integer nearest to a rational number, and of two that are equally near
the even one. That says all about it (`halfEven_eq_iff`): it is monotone and leaves integers
as they are, so it does not matter whether a number is clamped to integers before it is
rounded or after (`halfEven_clamp`).

Rounding a finite value to an integral one and reading off the integer is `halfEven`
(`truncate_integral`).
-/

set_option autoImplicit false

namespace BatchNorm

/-- The nearest integer, and of two that are equally near the even one. -/
def halfEven (q : ℚ) : ℤ :=
  if Int.fract q = 1 / 2 ∧ Even ⌊q⌋ then ⌊q⌋ else round q

section

variable {q r : ℚ} {n : ℤ}

theorem abs_halfEven_sub_le (q : ℚ) : |(halfEven q : ℚ) - q| ≤ 1 / 2 := by
  unfold halfEven
  split
  · rename_i htie
    rw [abs_sub_comm, Int.self_sub_floor, htie.1, abs_of_pos one_half_pos]
  · rw [abs_sub_comm]
    exact abs_sub_round q

/-- Of two integers that are equally near, the even one is taken. -/
theorem even_halfEven (h : |(halfEven q : ℚ) - q| = 1 / 2) : Even (halfEven q) := by
  unfold halfEven at h ⊢
  split at h
  · rename_i htie
    rw [if_pos htie]
    exact htie.2
  · rename_i hne
    rw [if_neg hne]
    -- a tie that is rounded up has an odd integer below it
    rw [abs_sub_comm, abs_sub_round_eq_min] at h
    have hsum : Int.fract q + (1 - Int.fract q) = 1 := by ring
    have hfract : Int.fract q = 1 / 2 := by
      rcases min_choice (Int.fract q) (1 - Int.fract q) with hmin | hmin
      · rwa [hmin] at h
      · rw [hmin] at h
        linarith
    have hround : round q = ⌊q⌋ + 1 := by
      rw [round_eq, ← Int.floor_add_one, Int.floor_eq_iff]
      have hfloor := Int.self_sub_floor q
      have hnext : (⌊q + 1⌋ : ℚ) = ⌊q⌋ + 1 := by
        rw [Int.floor_add_one]
        push_cast
        rfl
      rw [hnext]
      constructor
      · linarith
      · linarith
    rw [hround, Int.even_add_one]
    exact fun heven => hne ⟨hfract, heven⟩

/-- **The nearest integer.** -/
theorem halfEven_eq_iff :
    halfEven q = n ↔ |(n : ℚ) - q| ≤ 1 / 2 ∧ (|(n : ℚ) - q| = 1 / 2 → Even n) := by
  constructor
  · rintro rfl
    exact ⟨abs_halfEven_sub_le q, even_halfEven⟩
  · rintro ⟨hle, heven⟩
    -- two integers near to the number are the same or neighbours on both sides of it
    have hle' := abs_halfEven_sub_le q
    have heven' := even_halfEven (q := q)
    generalize halfEven q = k at hle' heven'
    have hneighbours : ∀ {i j : ℤ}, |(i : ℚ) - q| ≤ 1 / 2 → |(j : ℚ) - q| ≤ 1 / 2 → i < j →
        j = i + 1 ∧ |(i : ℚ) - q| = 1 / 2 ∧ |(j : ℚ) - q| = 1 / 2 := by
      intro i j hi hj hlt
      rw [abs_le] at hi hj
      have hstep : (i : ℚ) + 1 ≤ j := by exact_mod_cast hlt
      have hj' : (j : ℚ) = i + 1 := by linarith
      refine ⟨by exact_mod_cast hj', ?_, ?_⟩
      · rw [abs_of_nonpos (by linarith)]
        linarith
      · rw [abs_of_nonneg (by linarith)]
        linarith
    rcases lt_trichotomy k n with hlt | heq | hgt
    · obtain ⟨rfl, hk, hn⟩ := hneighbours hle' hle hlt
      exact absurd (heven' hk) (Int.even_add_one.mp (heven hn))
    · exact heq
    · obtain ⟨rfl, hn, hk⟩ := hneighbours hle hle' hgt
      exact absurd (heven hn) (Int.even_add_one.mp (heven' hk))

theorem halfEven_intCast (n : ℤ) : halfEven n = n := by
  rw [halfEven_eq_iff, sub_self, abs_zero]
  exact ⟨by norm_num, fun h => absurd h (by norm_num)⟩

theorem halfEven_neg (q : ℚ) : halfEven (-q) = -halfEven q := by
  have hdistance : |((-halfEven q : ℤ) : ℚ) - -q| = |(halfEven q : ℚ) - q| := by
    rw [Int.cast_neg, neg_sub_neg, abs_sub_comm]
  rw [halfEven_eq_iff, hdistance, even_neg]
  exact ⟨abs_halfEven_sub_le q, even_halfEven⟩

theorem halfEven_mono : Monotone halfEven := by
  intro q r hqr
  by_contra hlt
  -- a larger number is rounded down further only if both are the tie in between
  have hstep : (halfEven r : ℚ) + 1 ≤ halfEven q := by exact_mod_cast not_le.mp hlt
  obtain ⟨_, hq⟩ := abs_le.mp (abs_halfEven_sub_le q)
  obtain ⟨hr, _⟩ := abs_le.mp (abs_halfEven_sub_le r)
  obtain rfl : q = r := by linarith
  exact hlt le_rfl

/-- Clamping to integers may be done before rounding or after. -/
theorem halfEven_clamp (q : ℚ) (least greatest : ℤ) :
    halfEven (max least (min q greatest)) = max least (min (halfEven q) greatest) := by
  rw [halfEven_mono.map_max, halfEven_mono.map_min, halfEven_intCast, halfEven_intCast]

end

/-! ## Exact values -/

namespace Exact

open Float.Model.UnpackedFloat

/-- A quotient of natural numbers that is as far from its nearest integer as can be. -/
theorem even_divideHalfEven {a b : Nat} (hb : 0 < b)
    (h : 2 * (divideHalfEven a b * b) = 2 * a + b ∨ 2 * a = 2 * (divideHalfEven a b * b) + b) :
    Even (divideHalfEven a b) := by
  have hdivision := Nat.div_add_mod a b
  have hmod := Nat.mod_lt a hb
  have hcomm : b * (a / b) = a / b * b := Nat.mul_comm _ _
  rw [Nat.even_iff]
  unfold divideHalfEven at h ⊢
  dsimp only at h ⊢
  split_ifs at h ⊢
  · omega
  · rw [Nat.add_mul] at h
    omega
  · omega

theorem halfEven_div (a : Nat) {b : Nat} (hb : 0 < b) :
    halfEven ((a : ℚ) / b) = divideHalfEven a b := by
  have hpos : (0 : ℚ) < b := Nat.cast_pos.mpr hb
  rw [halfEven_eq_iff]
  refine ⟨by exact_mod_cast abs_divideHalfEven_sub_le a hb, fun htie => ?_⟩
  rw [Int.even_coe_nat]
  refine even_divideHalfEven hb ?_
  have hscaled : ((divideHalfEven a b : ℚ) - a / b) * b = divideHalfEven a b * b - a := by
    rw [sub_mul, div_mul_cancel₀ _ hpos.ne']
  rw [Int.cast_natCast, abs_eq one_half_pos.le] at htie
  rcases htie with htie | htie
  · left
    rw [htie] at hscaled
    have htwice : 2 * ((divideHalfEven a b : ℚ) * b) = 2 * a + b := by linarith
    exact_mod_cast htwice
  · right
    rw [htie] at hscaled
    have htwice : 2 * (a : ℚ) = 2 * (divideHalfEven a b * b) + b := by linarith
    exact_mod_cast htwice

theorem halfEven_signed (s : Sign) {n : Nat} {q : ℚ} (h : halfEven q = n) :
    halfEven (signed s 1 * q) = signed s n := by
  cases s with
  | positive => simpa [signed] using h
  | negative => simpa [signed, halfEven_neg] using h

/-- **Rounding to an integral value.** -/
theorem truncate_integral {x : Exact} (hx : x.isFinite = true) :
    x.integral.truncate = halfEven x.toRat := by
  cases x with
  | infinity s => exact absurd hx nofun
  | notANumber => exact absurd hx nofun
  | zero s => exact (halfEven_intCast 0).symm
  | finite s m e hm =>
      have hvalue : toRat (.finite s m e hm) = signed s 1 * (m * 2 ^ e) := by
        rw [toRat, signed_eq]
        push_cast
        ring
      rw [hvalue]
      cases e with
      | ofNat k =>
          have hinteger : (m : ℚ) * 2 ^ (Int.ofNat k) = ((m * 2 ^ k : Nat) : ℤ) := by
            push_cast
            rfl
          rw [halfEven_signed s (n := m * 2 ^ k) (by rw [hinteger, halfEven_intCast])]
          simp [integral, truncate]
      | negSucc k =>
          have hquotient : (m : ℚ) * 2 ^ (Int.negSucc k) = (m : ℚ) / (2 ^ (k + 1) : Nat) := by
            rw [zpow_negSucc, div_eq_mul_inv]
            push_cast
            rfl
          rw [halfEven_signed s (by rw [hquotient, halfEven_div m (Nat.two_pow_pos _)])]
          simp only [integral]
          split_ifs with hpos
          · simp [truncate]
          · have hzero : divideHalfEven m (2 ^ (k + 1)) = 0 := Nat.eq_zero_of_not_pos hpos
            rw [hzero]
            cases s <;> rfl

end Exact

end BatchNorm
