import BatchNorm.Proofs.Numeric.Finite
import BatchNorm.Proofs.Numeric.Rounding

/-!
# Special values

A result of binary64 arithmetic is the exact result, rounded, packed and unpacked again
(`Exact.repacked`). Packing keeps what kind of value it is given, except that a finite
number may become a zero or an infinity of its sign. From this follow the rules for zeros
and NaNs that a comparison rests on: the difference of equal finite numbers is a zero
(`sub_beq_zero`), a zero over anything but a zero and a NaN is a zero (`div_beq_zero`),
and a number that is not negative, times a count, is not negative (`mul_natCast_nonneg`).
-/

set_option autoImplicit false

namespace BatchNorm

namespace Exact

open Float.Model (Format UnpackedFloat totalExponent)
open Float.Model.UnpackedFloat

/-! ## Packing and unpacking -/

/-- What is left of an exact value when it is stored as a binary64 number. -/
def repacked (x : Exact) : Exact := unpack .binary64 (pack .binary64 x)

theorem repacked_zero (s : Sign) : repacked (.zero s) = .zero s := by
  cases s with
  | negative => rfl
  | positive => rfl

theorem repacked_infinity (s : Sign) : repacked (.infinity s) = .infinity s := by
  cases s with
  | negative => rfl
  | positive => rfl

theorem repacked_notANumber : repacked .notANumber = .notANumber := rfl

/-- A mantissa with its implicit bit. -/
theorem toNat_implicit {n : Nat} (m : BitVec n) :
    2 ^ n ≤ (1#1 ++ m).toNat ∧ (1#1 ++ m).toNat < 2 ^ (1 + n) := by
  have hm := m.isLt
  rw [BitVec.toNat_append, ← Nat.shiftLeft_add_eq_or_of_lt hm, BitVec.toNat_ofNat,
    Nat.shiftLeft_eq, Nat.pow_add]
  omega

/-- An exponent that is not all ones is that of a zero or of a finite number. -/
theorem unpack_packComponents (s : Sign) {e : BitVec 11} (he : e ≠ -1#11) (m : BitVec 52) :
    unpack .binary64 (packComponents .binary64 s e m) = .zero s ∨
      ∃ m' e' hm', unpack .binary64 (packComponents .binary64 s e m) = .finite s m' e' hm' := by
  simp only [unpack, unpackExponent_packComponents, unpackMantissa_packComponents,
    unpackSign_packComponents, Sign.ofBitVec_toBitVec]
  rw [if_neg he]
  split
  · split
    · exact Or.inl rfl
    · rename_i hne
      have hpos : 0 < m.toNat := Nat.pos_of_ne_zero fun h => hne (BitVec.eq_of_toNat_eq h)
      exact Or.inr ⟨m.toNat, _, hpos, rfl⟩
  · obtain ⟨hfull, _⟩ := toNat_implicit m
    exact Or.inr ⟨(1#1 ++ m).toNat, _, by omega, rfl⟩

/-- A finite number keeps its sign. -/
theorem repacked_finite (s : Sign) {m : Nat} {e : Int} (hm : 0 < m) :
    repacked (.finite s m e hm) = .infinity s ∨ repacked (.finite s m e hm) = .zero s ∨
      ∃ m' e' hm', repacked (.finite s m e hm) = .finite s m' e' hm' := by
  rw [repacked, pack]
  dsimp only
  split
  · exact Or.inl (repacked_infinity s)
  · rename_i hbiased
    right
    split
    · refine unpack_packComponents s (fun hones => ?_) _
      have htoNat := congrArg BitVec.toNat hones
      rw [BitVec.toNat_ofNat] at htoNat
      simp at htoNat hbiased
      omega
    · exact unpack_packComponents s (by decide) _

/-- Each result of binary64 arithmetic is the exact one, rounded and stored. -/
theorem ofFloat_sub (x y : Float) :
    ofFloat (x - y) = repacked (sub .binary64 (ofFloat x) (ofFloat y)) := rfl

theorem ofFloat_mul (x y : Float) :
    ofFloat (x * y) = repacked (mul .binary64 (ofFloat x) (ofFloat y)) := rfl

theorem ofFloat_div (x y : Float) :
    ofFloat (x / y) = repacked (div .binary64 (ofFloat x) (ofFloat y)) := rfl

theorem ofFloat_zero : ofFloat 0 = .zero .positive := rfl

theorem isNaN_repacked (x : Exact) : (repacked x).isNaN = x.isNaN := by
  cases x with
  | infinity s => rw [repacked_infinity]
  | notANumber => rw [repacked_notANumber]
  | zero s => rw [repacked_zero]
  | finite s m e hm =>
      rcases repacked_finite s (e := e) hm with h | h | ⟨m', e', hm', h⟩
      · rw [h]
        rfl
      · rw [h]
        rfl
      · rw [h]
        rfl

theorem isZero_repacked {x : Exact} (h : x.isZero = true) : (repacked x).isZero = true := by
  cases x with
  | zero s => rwa [repacked_zero]
  | infinity s => exact absurd h nofun
  | notANumber => exact absurd h nofun
  | finite s m e hm => exact absurd h nofun

/-! ## Arithmetic with zeros -/

/-- Equal finite values of one format leave a zero. -/
theorem isZero_sub {x y : Exact} (h : x.beq y = true) (hy : y.isFinite = true) :
    isZero (sub .binary64 x y) = true := by
  have hcompare : x.compare y = some .eq := eq_of_beq h
  cases y with
  | infinity s => exact absurd hy nofun
  | notANumber => exact absurd hy nofun
  | zero s =>
      cases x with
      | infinity s' => cases s' <;> exact absurd hcompare nofun
      | notANumber => exact absurd hcompare nofun
      | zero s' => cases s <;> cases s' <;> rfl
      | finite s' m e hm => cases s' <;> exact absurd hcompare nofun
  | finite s m e hm =>
      cases x with
      | infinity s' => cases s' <;> exact absurd hcompare nofun
      | notANumber => exact absurd hcompare nofun
      | zero s' => cases s <;> exact absurd hcompare nofun
      | finite s' m' e' hm' =>
          -- equal numbers of one format have the same sign, mantissa and exponent
          have hsame : s' = s ∧ m' = m ∧ e' = e := by
            cases s <;> cases s' <;>
              simp_all [Float.Model.UnpackedFloat.compare, Ordering.then_eq_eq]
          obtain ⟨rfl, rfl, rfl⟩ := hsame
          simp only [sub, Int.sub_self, UnpackedFloat.normalize]
          rfl

theorem isZero_zero_sub {x : Exact} (h : x.isZero = true) :
    isZero (sub .binary64 (.zero .positive) x) = true := by
  cases x with
  | zero s => cases s <;> rfl
  | infinity s => exact absurd h nofun
  | notANumber => exact absurd h nofun
  | finite s m e hm => exact absurd h nofun

theorem isNaN_zero_sub (x : Exact) : (sub .binary64 (.zero .positive) x).isNaN = x.isNaN := by
  cases x with
  | zero s => cases s <;> rfl
  | infinity s => rfl
  | notANumber => rfl
  | finite s m e hm => rfl

theorem isZero_div {x y : Exact} (hx : x.isZero = true) (hy : y.isZero = false)
    (hnan : y.isNaN = false) : isZero (div .binary64 x y) = true := by
  cases x with
  | infinity s => exact absurd hx nofun
  | notANumber => exact absurd hx nofun
  | finite s m e hm => exact absurd hx nofun
  | zero s =>
      cases y with
      | infinity s' => rfl
      | notANumber => exact absurd hnan nofun
      | zero s' => exact absurd hy nofun
      | finite s' m e hm => rfl

/-- The sign of a zero does not matter in a comparison. -/
theorem le_of_isZero {x y : Exact} (hx : x.isZero = true) :
    x.le y = Float.Model.UnpackedFloat.le (.zero .positive) y := by
  cases x with
  | infinity s => exact absurd hx nofun
  | notANumber => exact absurd hx nofun
  | finite s m e hm => exact absurd hx nofun
  | zero s =>
      cases y with
      | infinity s' => cases s' <;> rfl
      | notANumber => rfl
      | zero s' => rfl
      | finite s' m e hm => cases s' <;> rfl

theorem beq_zero (x : Exact) : x.beq (.zero .positive) = x.isZero := by
  cases x with
  | infinity s => cases s <;> rfl
  | notANumber => rfl
  | zero s => rfl
  | finite s m e hm => cases s <;> rfl

/-! ## Values that are not negative -/

/-- A zero of either sign, or a positive number. -/
inductive Nonneg : Exact → Prop
  | zero (s : Sign) : Nonneg (.zero s)
  | finite {m : Nat} {e : Int} {hm : 0 < m} : Nonneg (.finite .positive m e hm)
  | infinity : Nonneg (.infinity .positive)

theorem zero_le_iff {x : Exact} :
    Float.Model.UnpackedFloat.le (.zero .positive) x = true ↔ x.Nonneg := by
  constructor
  · intro h
    cases x with
    | zero s => exact .zero s
    | notANumber => exact absurd h nofun
    | infinity s =>
        cases s with
        | negative => exact absurd h nofun
        | positive => exact .infinity
    | finite s m e hm =>
        cases s with
        | negative => exact absurd h nofun
        | positive => exact .finite
  · rintro (s | _ | _)
    · rfl
    · rfl
    · rfl

theorem Nonneg.repacked {x : Exact} (h : x.Nonneg) : (repacked x).Nonneg := by
  cases h with
  | zero s =>
      rw [repacked_zero]
      exact .zero s
  | infinity => exact .infinity
  | finite =>
      rename_i m e hm
      rcases repacked_finite .positive (e := e) hm with h | h | ⟨m', e', hm', h⟩
      · rw [h]
        exact .infinity
      · rw [h]
        exact .zero _
      · rw [h]
        exact .finite

theorem nonneg_roundWithAccuracy (m : Nat) (e : Int) (acc : Accuracy) :
    Nonneg (roundWithAccuracy .binary64 .positive m e acc) := by
  unfold roundWithAccuracy
  dsimp only
  split
  · exact .zero _
  · exact .finite

theorem Nonneg.mul {x : Exact} (h : x.Nonneg) {m : Nat} {e : Int} {hm : 0 < m} :
    Nonneg (mul .binary64 x (.finite .positive m e hm)) := by
  cases h with
  | zero s => exact .zero _
  | infinity => exact .infinity
  | finite => exact nonneg_roundWithAccuracy _ _ _

/-! ## Counts are positive -/

/-- A positive number with a full mantissa, or the positive infinity. -/
inductive Full : Exact → Prop
  | infinity : Full (.infinity .positive)
  | finite {m : Nat} {e : Int} {hm : 0 < m} (hfull : 2 ^ 52 ≤ m) (hlt : m < 2 ^ 53)
      (hleast : -1074 ≤ e) : Full (.finite .positive m e hm)

theorem full_settled {r : Nat} {t : Int} (hfull : 2 ^ 52 ≤ r) (ht : -1074 ≤ t) :
    Full (settled .binary64 .positive r t) := by
  unfold settled
  split_ifs with hzero hlt
  · omega
  · exact .finite hfull hlt ht
  · exact .finite le_rfl (by decide) (by omega)

theorem full_ofNat {n : Nat} (h : 0 < n) : Full (UnpackedFloat.ofNat .binary64 n) := by
  have htarget : Format.binary64.targetExponent (totalExponent n 0) = (n.log2 : Int) - 52 := by
    simp only [Format.targetExponent, totalExponent, Format.mantissaBits, Format.minExponent]
    omega
  have hround : UnpackedFloat.ofNat .binary64 n = UnpackedFloat.round .binary64 .positive n 0 :=
    normalize_signed .binary64 .positive h 0 .positive
  have hdecreased := target_decreased .binary64 h htarget
  have hfull := full_nearest .binary64 hdecreased (by omega)
  rw [nearest_mul_two_pow n one_pos] at hfull
  have hnormal : (n.log2 : Int) - 52 ≠ Format.binary64.minExponent := by
    simp only [Format.minExponent, Format.mantissaBits]
    omega
  rw [hround, round_eq_settled .binary64 .positive h htarget]
  exact full_settled (hfull.resolve_right hnormal) (by omega)

/-- A full mantissa is kept. -/
theorem Full.repacked {x : Exact} (h : x.Full) : (repacked x).Full := by
  cases h with
  | infinity => exact .infinity
  | finite hfull hlt hleast =>
      rename_i m e hm
      rw [Exact.repacked]
      rcases lt_or_ge e (endExponent .binary64) with hmost | hmost
      · rw [unpack_pack_finite .binary64 .positive hm ⟨hlt, Or.inl hfull, hleast⟩ hmost]
        exact .finite hfull hlt hleast
      · rw [unpack_pack_infinity .binary64 .positive hm hmost]
        exact .infinity

/-- A product that is long enough for its exponent has a full mantissa. -/
theorem full_mul {m m' j : Nat} {e e' : Int} {hm : 0 < m} {hm' : 0 < m'}
    (h : 2 ^ (52 + j) ≤ m * m') (he : -1074 ≤ e + e' + j) :
    Full (mul .binary64 (.finite .positive m e hm) (.finite .positive m' e' hm')) := by
  have hlog : 52 + j ≤ (m * m').log2 := (Nat.le_log2 (Nat.mul_pos hm hm').ne').mpr h
  have htarget : Format.binary64.targetExponent (totalExponent (m * m' / 1) (e + e')) =
      e + e' + ((m * m').log2 - 52 : Nat) := by
    simp only [Nat.div_one, Format.targetExponent, totalExponent, Format.mantissaBits,
      Format.minExponent]
    omega
  have hrounded := roundWithAccuracy_ofFraction .binary64 .positive one_pos htarget (by omega)
  have hfull : 2 ^ 52 ≤ nearest (m * m') 1 (e + e') (e + e' + ((m * m').log2 - 52 : Nat)) := by
    have hunits : (e + e' - (e + e' + ((m * m').log2 - 52 : Nat))).toNat = 0 := by omega
    have hcount : (e + e' + ((m * m').log2 - 52 : Nat) - (e + e')).toNat = (m * m').log2 - 52 := by
      omega
    rw [nearest, hunits, hcount, Nat.pow_zero, Nat.mul_one, Nat.one_mul]
    refine le_trans ?_ (div_le_divideHalfEven _ _)
    rw [Nat.le_div_iff_mul_le (Nat.two_pow_pos _), ← Nat.pow_add, ← Nat.le_log2 (by positivity)]
    omega
  rw [Nat.div_one, Nat.mod_one] at hrounded
  have hmul : mul .binary64 (.finite .positive m e hm) (.finite .positive m' e' hm') =
      roundWithAccuracy .binary64 .positive (m * m') (e + e') (accuracyOfFraction 0 1) := rfl
  rw [hmul, hrounded]
  exact full_settled hfull (by omega)

theorem Full.mul_one {x : Exact} (h : x.Full) :
    Full (mul .binary64 x (.finite .positive (2 ^ 52) (-52) (by decide))) := by
  cases h with
  | infinity => exact .infinity
  | finite hfull hlt hleast =>
      refine full_mul (j := 52) ?_ (by omega)
      rw [Nat.pow_add]
      exact Nat.mul_le_mul_right _ hfull

theorem full_ofScientific {n : Nat} (h : 0 < n) :
    Full (UnpackedFloat.ofScientific .binary64 n (Int.ofNat 0)) := by
  rw [ofScientific_natCast h]
  exact full_mul (j := 0) (by omega) (by decide)

/-- A short count is converted as a word and multiplied with one, a long one is rounded as a
decimal number without an exponent. -/
theorem ofFloat_natCast (n : Nat) :
    n < 2 ^ 53 ∧ ofFloat (n : Float) = repacked (mul .binary64
        (repacked (UnpackedFloat.ofNat .binary64 n)) (.finite .positive (2 ^ 52) (-52) (by decide))) ∨
      2 ^ 53 ≤ n ∧ ofFloat (n : Float) =
        repacked (UnpackedFloat.ofScientific .binary64 n (Int.ofNat 0)) := by
  have hcast : (n : Float) = Float.ofScientific n false 0 := rfl
  rw [hcast]
  unfold Float.ofScientific
  split
  · rename_i hshort
    have hword : n.toUInt64.toNat = n := Nat.mod_eq_of_lt (by omega)
    have hcount : ofFloat (UInt64.toFloat n.toUInt64) =
        repacked (UnpackedFloat.ofNat .binary64 n.toUInt64.toNat) := rfl
    have hone : ofFloat Float.exactlyRepresentablePowersOfTen[0] =
        .finite .positive (2 ^ 52) (-52) (by decide) := rfl
    refine Or.inl ⟨hshort.1, (ofFloat_mul _ _).trans ?_⟩
    rw [hcount, hword, hone]
  · rename_i hlong
    exact Or.inr ⟨by omega, rfl⟩

theorem full_natCast {n : Nat} (h : 0 < n) : Full (ofFloat (n : Float)) := by
  rcases ofFloat_natCast n with ⟨_, hcount⟩ | ⟨_, hcount⟩
  · rw [hcount]
    exact (full_ofNat h).repacked.mul_one.repacked
  · rw [hcount]
    exact (full_ofScientific h).repacked

end Exact

/-! ## Binary64 numbers -/

open Exact

theorem Float.beq_zero (x : Float) : (x == 0) = (ofFloat x).isZero := by
  rw [← Exact.beq_zero, ← ofFloat_zero]
  rfl

theorem Float.le_iff {x y : Float} : x ≤ y ↔ (ofFloat x).le (ofFloat y) = true := by
  show decide (x.toModel ≤ y.toModel) = true ↔ _
  rw [decide_eq_true_iff]
  rfl

theorem Float.zero_le_iff {x : Float} : 0 ≤ x ↔ (ofFloat x).Nonneg := by
  rw [Float.le_iff, ofFloat_zero, Exact.zero_le_iff]

/-- Equal finite numbers differ by a zero. -/
theorem sub_beq_zero {x y : Float} (h : (x == y) = true) (hy : y.isFinite = true) :
    (x - y == 0) = true := by
  rw [Float.beq_zero, ofFloat_sub]
  exact isZero_repacked (isZero_sub h hy)

theorem zero_sub_beq_zero {x : Float} (h : (x == 0) = true) : (0 - x == 0) = true := by
  rw [Float.beq_zero] at h ⊢
  rw [ofFloat_sub, ofFloat_zero]
  exact isZero_repacked (isZero_zero_sub h)

theorem isNaN_zero_sub (x : Float) : (0 - x).isNaN = x.isNaN := by
  show (ofFloat (0 - x)).isNaN = (ofFloat x).isNaN
  rw [ofFloat_sub, isNaN_repacked, ofFloat_zero, Exact.isNaN_zero_sub]

/-- A zero over anything but a zero and a NaN is a zero. -/
theorem div_beq_zero {x y : Float} (hx : (x == 0) = true) (hy : (y == 0) = false)
    (hnan : y.isNaN = false) : (x / y == 0) = true := by
  rw [Float.beq_zero] at hx hy ⊢
  rw [ofFloat_div]
  exact isZero_repacked (isZero_div hx hy hnan)

theorem le_of_beq_zero {x y : Float} (hx : (x == 0) = true) (hy : 0 ≤ y) : x ≤ y := by
  rw [Float.beq_zero] at hx
  rw [Float.le_iff] at hy ⊢
  rwa [le_of_isZero hx, ← ofFloat_zero]

/-- A number that is not negative, times a count, is not negative. The count has to be
finite: a zero times an infinity is a NaN. -/
theorem mul_natCast_nonneg {x : Float} {n : Nat} (hx : 0 ≤ x) (hn : 0 < n)
    (hfinite : (n : Float).isFinite = true) : 0 ≤ x * (n : Float) := by
  rw [Float.zero_le_iff] at hx ⊢
  rw [ofFloat_mul]
  have hfinite : (ofFloat (n : Float)).isFinite = true := hfinite
  have hfull := full_natCast hn
  cases hcount : ofFloat (n : Float) with
  | finite s m e hm =>
      rw [hcount] at hfull
      cases hfull
      exact hx.mul.repacked
  | zero s =>
      rw [hcount] at hfull
      cases hfull
  | infinity s =>
      rw [hcount] at hfinite
      exact absurd hfinite nofun
  | notANumber =>
      rw [hcount] at hfinite
      exact absurd hfinite nofun

end BatchNorm
