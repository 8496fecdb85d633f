import BatchNorm.Proofs.Numeric.Arithmetic
import BatchNorm.Proofs.Numeric.SumTree

/-!
# Sums and counts in binary64

What is added up in few levels does not get large: every level doubles a bound at most
(`AddedUp.within`). A sum of numbers from zero up is not below any of them
(`AddedUp.le_valueOf`), and a sum of equal numbers is exact as long as binary64 has room for
its digits (`AddedUp.eq_card_mul`). It has for 2 ^ 29 times a binary32 number
(`IsSingle.representable_mul`). Two binary32 numbers that differ are not close to each other
(`IsSingle.two_pow_le_sub`).
-/

set_option autoImplicit false

namespace BatchNorm

open Exact
open Float.Model (Format UnpackedFloat)

/-! ## Sums of binary64 numbers -/

theorem Exact.Within.mono {x : Exact} {q r : ℚ} (h : Within x q) (hle : q ≤ r) : Within x r :=
  ⟨h.isFinite, h.abs_le.trans hle⟩

theorem within_zero {q : ℚ} (hq : 0 ≤ q) : Within (ofFloat 0) q ∧ Within (ofFloat (-0)) q := by
  have hzero : |toRat (.zero .positive)| ≤ q := by
    show |(0 : ℚ)| ≤ q
    rwa [abs_zero]
  exact ⟨⟨rfl, hzero⟩, ⟨rfl, hzero⟩⟩

theorem two_pow_add_one (k : Int) : (2 : ℚ) ^ k + 2 ^ k = 2 ^ (k + 1) := by
  rw [zpow_add_one₀ two_ne_zero]
  ring

section

variable {x y : Float}

/-- A sum is not below a term if the other one is not negative. -/
theorem Float.valueOf_le_add_right (hx : x.isFinite = true) (hy : y.isFinite = true)
    (hsum : (x + y).isFinite = true) (hnonneg : 0 ≤ valueOf y) : valueOf x ≤ valueOf (x + y) :=
  (Float.rounds_add hx hy).le_toRat hsum (representable_abs_ofFloat hx) (le_add_of_nonneg_right hnonneg)

theorem Float.valueOf_le_add_left (hx : x.isFinite = true) (hy : y.isFinite = true)
    (hsum : (x + y).isFinite = true) (hnonneg : 0 ≤ valueOf x) : valueOf y ≤ valueOf (x + y) :=
  (Float.rounds_add hx hy).le_toRat hsum (representable_abs_ofFloat hy) (le_add_of_nonneg_left hnonneg)

end

namespace AddedUp

variable {d : Nat} {s : Multiset Float} {a : Float} {k : Int}

/-- Every level doubles a bound. -/
theorem within (h : AddedUp d s a) (hleast : -1022 ≤ k) (hmost : k + d ≤ 1023)
    (hs : ∀ x ∈ s, Within (ofFloat x) (2 ^ k)) : Within (ofFloat a) (2 ^ (k + d)) := by
  induction h with
  | zero d => exact (within_zero (by positivity)).1
  | negZero d => exact (within_zero (by positivity)).2
  | value d x =>
      refine (hs x (Multiset.mem_singleton_self x)).mono (zpow_le_zpow_right₀ one_le_two ?_)
      omega
  | @add d s t a b _ _ ihfirst ihsecond =>
      have hfirst := ihfirst (by omega) fun x hx => hs x (Multiset.mem_add.mpr (Or.inl hx))
      have hsecond := ihsecond (by omega) fun x hx => hs x (Multiset.mem_add.mpr (Or.inr hx))
      refine (Float.rounds_add hfirst.isFinite hsecond.isFinite).within_two_pow (by omega) hmost ?_
      calc |valueOf a + valueOf b| ≤ |valueOf a| + |valueOf b| := abs_add_le _ _
        _ ≤ 2 ^ (k + d) + 2 ^ (k + d) := add_le_add hfirst.abs_le hsecond.abs_le
        _ = 2 ^ (k + (d + 1 : Nat)) := by rw [two_pow_add_one, Nat.cast_succ, add_assoc]

/-- A sum of numbers from zero up is not below any of them. -/
theorem le_valueOf (h : AddedUp d s a) (hleast : -1022 ≤ k) (hmost : k + d ≤ 1023)
    (hs : ∀ x ∈ s, Within (ofFloat x) (2 ^ k)) (hnonneg : ∀ x ∈ s, 0 ≤ valueOf x) :
    0 ≤ valueOf a ∧ ∀ x ∈ s, valueOf x ≤ valueOf a := by
  induction h with
  | zero d => exact ⟨le_rfl, nofun⟩
  | negZero d => exact ⟨le_rfl, nofun⟩
  | value d x =>
      refine ⟨hnonneg x (Multiset.mem_singleton_self x), fun y hy => ?_⟩
      rw [Multiset.mem_singleton.mp hy]
  | @add d s t a b first second ihfirst ihsecond =>
      have hsum := (first.add second).within hleast hmost hs
      simp only [Multiset.mem_add, or_imp, forall_and] at hs hnonneg
      have hfirst := first.within hleast (by omega) hs.1
      have hsecond := second.within hleast (by omega) hs.2
      obtain ⟨ha, hlea⟩ := ihfirst (by omega) hs.1 hnonneg.1
      obtain ⟨hb, hleb⟩ := ihsecond (by omega) hs.2 hnonneg.2
      have hle := Float.valueOf_le_add_right hfirst.isFinite hsecond.isFinite hsum.isFinite hb
      have hle' := Float.valueOf_le_add_left hfirst.isFinite hsecond.isFinite hsum.isFinite ha
      refine ⟨ha.trans hle, fun x hx => ?_⟩
      rcases Multiset.mem_add.mp hx with hx | hx
      · exact (hlea x hx).trans hle
      · exact (hleb x hx).trans hle'

/-- A sum of equal numbers is exact if all their multiples are numbers of the format. -/
theorem eq_card_mul (h : AddedUp d s a) {c : ℚ} (hs : ∀ x ∈ s, x.isFinite = true ∧ valueOf x = c)
    (hc : ∀ n ≤ Multiset.card s, Representable .binary64 |(n : ℚ) * c|) :
    a.isFinite = true ∧ valueOf a = Multiset.card s * c := by
  induction h with
  | zero d => exact ⟨rfl, by rw [Multiset.card_zero, Nat.cast_zero, zero_mul]; rfl⟩
  | negZero d => exact ⟨rfl, by rw [Multiset.card_zero, Nat.cast_zero, zero_mul]; rfl⟩
  | value d x =>
      obtain ⟨hx, hvalue⟩ := hs x (Multiset.mem_singleton_self x)
      exact ⟨hx, by rw [Multiset.card_singleton, Nat.cast_one, one_mul, hvalue]⟩
  | @add d s t a b _ _ ihfirst ihsecond =>
      rw [Multiset.card_add] at hc ⊢
      obtain ⟨ha, hvaluea⟩ := ihfirst (fun x hx => hs x (Multiset.mem_add.mpr (Or.inl hx)))
        fun n hn => hc n (by omega)
      obtain ⟨hb, hvalueb⟩ := ihsecond (fun x hx => hs x (Multiset.mem_add.mpr (Or.inr hx)))
        fun n hn => hc n (by omega)
      have hvalue : valueOf a + valueOf b = ((Multiset.card s + Multiset.card t : Nat) : ℚ) * c := by
        rw [hvaluea, hvalueb, Nat.cast_add, add_mul]
      have hsum := (Float.rounds_add ha hb).exact (hvalue ▸ hc _ le_rfl)
      exact ⟨hsum.1, hsum.2.trans hvalue⟩

end AddedUp

/-! ## Binary32 numbers -/

/-- A binary64 number that is a finite binary32 number. -/
def IsSingle (x : Float) : Prop := ∃ y : Float32, y.isFinite = true ∧ widen y = x

namespace IsSingle

variable {x y : Float}

theorem within (h : IsSingle x) : Within (ofFloat x) (2 ^ (128 : Int)) := by
  obtain ⟨y, hy, rfl⟩ := h
  obtain ⟨hfinite, hvalue⟩ := valueOf_widen hy
  refine ⟨hfinite, ?_⟩
  rw [← valueOf, hvalue]
  exact (abs_toRat_le (bounded_ofSingle hy)).trans (by norm_num [largestSingle])

theorem isFinite (h : IsSingle x) : x.isFinite = true := h.within.isFinite

theorem exists_digits (h : IsSingle x) :
    ∃ i e : Int, i.natAbs < 2 ^ 24 ∧ -149 ≤ e ∧ e ≤ 104 ∧ valueOf x = i * 2 ^ e := by
  obtain ⟨y, hy, rfl⟩ := h
  have hcanonical : Canonical .binary32 (ofSingle y) := canonical_ofSingle hy
  have hbounded := bounded_ofSingle hy
  rw [(valueOf_widen hy).2]
  generalize ofSingle y = y at hcanonical hbounded
  cases hcanonical with
  | zero s => exact ⟨0, 0, by decide, by decide, by decide, by rw [Int.cast_zero, zero_mul]; rfl⟩
  | finite hfits =>
      rename_i s m e hm
      cases hbounded with
      | finite _ hmost =>
          have hdigits : (signed s m).natAbs = m := by cases s <;> simp [signed]
          exact ⟨signed s m, e, hdigits.trans_lt hfits.lt, hfits.least, hmost, rfl⟩

/-- **The least distance** of two binary32 numbers. -/
theorem two_pow_le_sub (hx : IsSingle x) (hy : IsSingle y) (hlt : valueOf x < valueOf y) :
    (2 : ℚ) ^ (-149 : Int) ≤ valueOf y - valueOf x := by
  have hunits : ∀ {z : Float}, IsSingle z → ∃ i : Int, valueOf z = i * 2 ^ (-149 : Int) := by
    intro z hz
    obtain ⟨i, e, _, hleast, _, hvalue⟩ := hz.exists_digits
    obtain ⟨k, hk⟩ := Int.eq_ofNat_of_zero_le (by omega : 0 ≤ e + 149)
    refine ⟨i * 2 ^ k, ?_⟩
    have hpow : (2 : ℚ) ^ e = 2 ^ k * 2 ^ (-149 : Int) := by
      rw [← zpow_natCast, ← zpow_add₀ two_ne_zero]
      congr 1
      omega
    rw [hvalue, hpow, ← mul_assoc]
    push_cast
    rfl
  obtain ⟨i, hi⟩ := hunits hx
  obtain ⟨j, hj⟩ := hunits hy
  have hunit : (0 : ℚ) < 2 ^ (-149 : Int) := by positivity
  rw [hi, hj] at hlt ⊢
  have hstep : i + 1 ≤ j := by exact_mod_cast lt_of_mul_lt_mul_right hlt hunit.le
  have hone : (1 : ℚ) ≤ j - i := by
    have hcast : (i : ℚ) + 1 ≤ j := by exact_mod_cast hstep
    linarith
  rw [← sub_mul]
  exact le_mul_of_one_le_left hunit.le hone

/-- Few enough multiples of a binary32 number are binary64 numbers. -/
theorem representable_mul (h : IsSingle x) {n : Nat} (hn : n ≤ 2 ^ 29) :
    Representable .binary64 |(n : ℚ) * valueOf x| := by
  obtain ⟨i, e, hdigits, hleast, hmost, hvalue⟩ := h.exists_digits
  have hpow : (0 : ℚ) ≤ 2 ^ e := by positivity
  have habs : |(n : ℚ) * valueOf x| = (n * i.natAbs : Nat) * 2 ^ e := by
    rw [hvalue, abs_mul, abs_mul, abs_of_nonneg hpow, Nat.abs_cast, ← Int.cast_abs,
      Int.abs_eq_natAbs, Int.cast_natCast, Nat.cast_mul, mul_assoc]
  have hlt : n * i.natAbs < 2 ^ 53 := by
    calc n * i.natAbs ≤ 2 ^ 29 * i.natAbs := Nat.mul_le_mul_right _ hn
      _ < 2 ^ 29 * 2 ^ 24 := Nat.mul_lt_mul_of_pos_left hdigits (Nat.two_pow_pos 29)
      _ = 2 ^ 53 := by norm_num
  rw [habs]
  generalize n * i.natAbs = m at hlt
  rcases Nat.eq_zero_or_pos m with rfl | hm
  · rw [Nat.cast_zero, zero_mul]
    exact representable_zero (by decide)
  · have hlog : m.log2 < 53 := (Nat.log2_lt hm.ne').mpr hlt
    refine representable_of_digits (q := 2 ^ (157 : Int)) (by decide) hm ?_
      (representable_two_pow (by decide) (by decide)) ?_
    · simp only [Format.targetExponent, Float.Model.totalExponent, Format.mantissaBits,
        Format.minExponent]
      omega
    · have hcount : (m : ℚ) ≤ 2 ^ 53 := by exact_mod_cast hlt.le
      calc (m : ℚ) * 2 ^ e ≤ 2 ^ 53 * 2 ^ (104 : Int) :=
            mul_le_mul hcount (zpow_le_zpow_right₀ one_le_two hmost) hpow (by positivity)
        _ = 2 ^ (157 : Int) := by norm_num

theorem representable (h : IsSingle x) : Representable .binary64 |valueOf x| := by
  have hone := h.representable_mul (n := 1) (by norm_num)
  rwa [Nat.cast_one, one_mul] at hone

end IsSingle

/-! ## Counts -/

section

variable {n : Nat} {x : Float} {k : Int}

theorem count_bounds (hn : 0 < n) (hlt : n < 2 ^ 64) :
    (n : Float).isFinite = true ∧ 1 ≤ valueOf n ∧ valueOf n ≤ 2 ^ (64 : Int) := by
  have hcount : |(n : ℚ)| ≤ 2 ^ (64 : Int) := by
    rw [Nat.abs_cast]
    exact_mod_cast hlt.le
  have hrounds := rounds_natCast hn
  have hwithin := hrounds.within_two_pow (by decide) (by decide) hcount
  have hone : Representable .binary64 |(1 : ℚ)| := by
    rw [abs_one]
    exact representable_one
  exact ⟨hwithin.isFinite, hrounds.le_toRat hwithin.isFinite hone (Nat.one_le_cast.mpr hn),
    (le_abs_self _).trans hwithin.abs_le⟩

theorem count_exact (hn : 0 < n) (hle : n ≤ 2 ^ 29) : (n : Float).isFinite = true ∧ valueOf n = n := by
  have hlog : n.log2 < 30 := (Nat.log2_lt hn.ne').mpr (by omega)
  have hcount : (n : ℚ) * 2 ^ (0 : Int) ≤ 2 ^ (29 : Int) := by
    rw [zpow_zero, mul_one]
    exact_mod_cast hle
  have hrepresentable := representable_of_digits (f := Format.binary64) (by decide) hn (e := 0) (by
    simp only [Format.targetExponent, Float.Model.totalExponent, Format.mantissaBits,
      Format.minExponent]
    omega) (representable_two_pow (by decide) (by decide)) hcount
  rw [zpow_zero, mul_one] at hrepresentable
  exact (rounds_natCast hn).exact (by rwa [Nat.abs_cast])

/-- A quotient by a count is within the bounds of the dividend. -/
theorem within_div_count (hn : 0 < n) (hlt : n < 2 ^ 64) (hx : Within (ofFloat x) (2 ^ k))
    (hleast : -1022 ≤ k) (hmost : k ≤ 1023) : Within (ofFloat (x / n)) (2 ^ k) := by
  obtain ⟨hfinite, hone, _⟩ := count_bounds hn hlt
  have hpos := zero_lt_one.trans_le hone
  refine (Float.rounds_div hx.isFinite hfinite hpos.ne').within_two_pow hleast hmost
    (le_trans ?_ hx.abs_le)
  rw [abs_div, abs_of_pos hpos]
  exact div_le_self (abs_nonneg _) hone

/-- A quotient by a count loses at most 64 digits. -/
theorem two_pow_le_div_count (hn : 0 < n) (hlt : n < 2 ^ 64) (hx : x.isFinite = true)
    (hquotient : (x / n).isFinite = true) (hleast : -958 ≤ k) (hmost : k ≤ 1023)
    (hle : 2 ^ k ≤ valueOf x) : 2 ^ (k - 64) ≤ valueOf (x / n) := by
  obtain ⟨hfinite, hone, hcount⟩ := count_bounds hn hlt
  have hpos := zero_lt_one.trans_le hone
  refine (Float.rounds_div hx hfinite hpos.ne').two_pow_le hquotient (by omega) (by omega) ?_
  rw [le_div_iff₀ hpos]
  calc (2 : ℚ) ^ (k - 64) * valueOf n ≤ 2 ^ (k - 64) * 2 ^ (64 : Int) :=
        mul_le_mul_of_nonneg_left hcount (by positivity)
    _ = 2 ^ k := by rw [← zpow_add₀ two_ne_zero, sub_add_cancel]
    _ ≤ valueOf x := hle

theorem div_count_nonneg (hn : 0 < n) (hlt : n < 2 ^ 64) (hx : x.isFinite = true)
    (hquotient : (x / n).isFinite = true) (hnonneg : 0 ≤ valueOf x) : 0 ≤ valueOf (x / n) := by
  obtain ⟨hfinite, hone, _⟩ := count_bounds hn hlt
  have hpos := zero_lt_one.trans_le hone
  exact (Float.rounds_div hx hfinite hpos.ne').nonneg hquotient (div_nonneg hnonneg hpos.le)

end

end BatchNorm
