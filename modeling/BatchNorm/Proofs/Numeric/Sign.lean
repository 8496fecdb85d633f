import BatchNorm.Proofs.Numeric.Special

/-!
# Signs and orders

Rounding, packing and unpacking leave the sign alone, so an operation may be negated
before or after them (`repacked_neg`, `repacked_abs`). A difference taken the other way
round has the same magnitude (`abs_sub_comm`), and so has the difference of the negated
numbers (`abs_sub_neg_neg`). Two magnitudes are ordered one way or the other, are the same
value, or one of them is a NaN (`exists_compare`, `eq_of_compare_abs`).

Which operands lead to a NaN is decided before anything is rounded: a difference of finite
numbers is none, a quotient of numbers that are not finite is one.
-/

set_option autoImplicit false

namespace BatchNorm

namespace Exact

open Float.Model (Format UnpackedFloat)
open Float.Model.UnpackedFloat

/-! ## Stored numbers -/

theorem repacked_ofFloat (x : Float) : repacked (ofFloat x) = ofFloat x :=
  congrArg (unpack .binary64) (pack_unpack_of_valid x.toModel.valid)

theorem ofFloat_injective : Function.Injective ofFloat := by
  intro x y h
  rw [← Float.toBits_inj, ← UInt64.toBitVec_inj]
  exact (unpack_inj_of_valid x.toModel.valid y.toModel.valid).mp h

theorem unpack_packComponents_neg (f : Format) (s : Sign) (e : BitVec f.exponentBits)
    (m : BitVec f.mantissaBitsWithoutImplicit) :
    unpack f (packComponents f (-s) e m) = (unpack f (packComponents f s e m)).neg := by
  simp only [unpack, unpackExponent_packComponents, unpackMantissa_packComponents,
    unpackSign_packComponents, Sign.ofBitVec_toBitVec]
  split_ifs <;> rfl

theorem abs_unpack_packComponents (f : Format) (s : Sign) (e : BitVec f.exponentBits)
    (m : BitVec f.mantissaBitsWithoutImplicit) :
    (unpack f (packComponents f s e m)).abs = unpack f (packComponents f .positive e m) := by
  simp only [unpack, unpackExponent_packComponents, unpackMantissa_packComponents,
    unpackSign_packComponents, Sign.ofBitVec_toBitVec]
  split_ifs <;> rfl

theorem repacked_neg (x : Exact) : repacked x.neg = (repacked x).neg := by
  cases x with
  | zero s => rw [UnpackedFloat.neg, repacked_zero, repacked_zero, UnpackedFloat.neg]
  | infinity s => rw [UnpackedFloat.neg, repacked_infinity, repacked_infinity, UnpackedFloat.neg]
  | notANumber => rfl
  | finite s m e hm =>
      simp only [repacked, pack, packedInfinity, UnpackedFloat.neg]
      -- too large, normal, subnormal
      split_ifs
      · exact unpack_packComponents_neg _ _ _ _
      · exact unpack_packComponents_neg _ _ _ _
      · exact unpack_packComponents_neg _ _ _ _

theorem repacked_abs (x : Exact) : repacked x.abs = (repacked x).abs := by
  cases x with
  | zero s => rw [UnpackedFloat.abs, repacked_zero, repacked_zero, UnpackedFloat.abs]
  | infinity s => rw [UnpackedFloat.abs, repacked_infinity, repacked_infinity, UnpackedFloat.abs]
  | notANumber => rfl
  | finite s m e hm =>
      simp only [repacked, pack, packedInfinity, UnpackedFloat.abs]
      split_ifs
      · exact (abs_unpack_packComponents _ _ _ _).symm
      · exact (abs_unpack_packComponents _ _ _ _).symm
      · exact (abs_unpack_packComponents _ _ _ _).symm

theorem ofFloat_neg (x : Float) : ofFloat (-x) = (ofFloat x).neg := by
  calc ofFloat (-x) = repacked (ofFloat x).neg := rfl
    _ = (ofFloat x).neg := by rw [repacked_neg, repacked_ofFloat]

@[simp] theorem isFinite_abs (x : Exact) : x.abs.isFinite = x.isFinite := by
  cases x <;> rfl

@[simp] theorem isNaN_abs (x : Exact) : x.abs.isNaN = x.isNaN := by
  cases x <;> rfl

@[simp] theorem abs_neg (x : Exact) : x.neg.abs = x.abs := by
  cases x <;> rfl

/-! ## Magnitudes of differences -/

theorem abs_roundWithAccuracy (f : Format) (s : Sign) (m : Nat) (e : Int) (acc : Accuracy) :
    (roundWithAccuracy f s m e acc).abs = roundWithAccuracy f .positive m e acc := by
  unfold roundWithAccuracy
  dsimp only
  split
  · rfl
  · rfl

theorem neg_roundWithAccuracy (f : Format) (s : Sign) (m : Nat) (e : Int) (acc : Accuracy) :
    (roundWithAccuracy f s m e acc).neg = roundWithAccuracy f (-s) m e acc := by
  unfold roundWithAccuracy
  dsimp only
  split
  · rfl
  · rfl

theorem abs_normalize_neg (f : Format) (m : Int) (e : Int) (s : Sign) :
    (UnpackedFloat.normalize f (-m) e s).abs = (UnpackedFloat.normalize f m e s).abs := by
  rcases lt_trichotomy m 0 with h | rfl | h
  · rw [UnpackedFloat.normalize, UnpackedFloat.normalize,
      Int.compare_eq_gt.mpr (by omega : -m > 0), Int.compare_eq_lt.mpr h]
    simp only [UnpackedFloat.round, abs_roundWithAccuracy]
  · rfl
  · rw [UnpackedFloat.normalize, UnpackedFloat.normalize,
      Int.compare_eq_lt.mpr (by omega : -m < 0), Int.compare_eq_gt.mpr h]
    simp only [UnpackedFloat.round, abs_roundWithAccuracy, neg_neg]

theorem abs_sub_comm (f : Format) (x y : Exact) : (sub f x y).abs = (sub f y x).abs := by
  cases x with
  | notANumber => cases y <;> rfl
  | infinity s => cases y with
    | infinity s' => cases s <;> cases s' <;> rfl
    | _ => rfl
  | zero s => cases y with
    | zero s' => cases s <;> cases s' <;> rfl
    | _ => rfl
  | finite s m e hm => cases y with
    | finite s' m' e' hm' =>
        simp only [sub]
        rw [min_comm e e', ← abs_normalize_neg, neg_sub]
    | _ => rfl

theorem apply_neg (s : Sign) (n : Int) : (-s).apply n = -s.apply n := by
  cases s with
  | negative => exact (neg_neg n).symm
  | positive => rfl

theorem abs_sub_neg_neg (f : Format) (x y : Exact) : (sub f x.neg y.neg).abs = (sub f x y).abs := by
  cases x with
  | notANumber => cases y <;> rfl
  | infinity s => cases y with
    | infinity s' => cases s <;> cases s' <;> rfl
    | _ => rfl
  | zero s => cases y with
    | zero s' => cases s <;> cases s' <;> rfl
    | _ => rfl
  | finite s m e hm => cases y with
    | finite s' m' e' hm' =>
        simp only [sub, UnpackedFloat.neg, apply_neg]
        rw [neg_sub_neg, ← neg_sub, abs_normalize_neg]
    | _ => rfl

theorem zero_sub_eq_abs (f : Format) {x : Exact} (h : x.le (.zero .positive) = true) :
    sub f (.zero .positive) x = x.abs := by
  cases x with
  | notANumber => exact absurd h nofun
  | zero s => cases s <;> rfl
  | infinity s =>
      cases s with
      | negative => rfl
      | positive => exact absurd h nofun
  | finite s m e hm =>
      cases s with
      | negative => rfl
      | positive => exact absurd h nofun

theorem abs_eq_self {x : Exact} (h : x.le (.zero .positive) ≠ true) : x.abs = x := by
  cases x with
  | notANumber => rfl
  | zero s => exact absurd rfl h
  | infinity s =>
      cases s with
      | negative => exact absurd rfl h
      | positive => rfl
  | finite s m e hm =>
      cases s with
      | negative => exact absurd rfl h
      | positive => rfl

/-! ## The order -/

theorem compare_swap (x y : Exact) : y.compare x = (x.compare y).map Ordering.swap := by
  cases x with
  | notANumber => cases y <;> rfl
  | infinity s => cases y with
    | infinity s' => cases s <;> cases s' <;> rfl
    | _ => cases s <;> rfl
  | zero s => cases y with
    | zero s' => rfl
    | notANumber => rfl
    | infinity s' => cases s' <;> rfl
    | finite s' m' e' hm' => cases s' <;> rfl
  | finite s m e hm => cases y with
    | zero s' => cases s <;> rfl
    | notANumber => cases s <;> rfl
    | infinity s' => cases s <;> cases s' <;> rfl
    | finite s' m' e' hm' =>
        have hswap : (compare e' e).then (compare m' m) =
            ((compare e e').then (compare m m')).swap := by
          rw [Ordering.swap_then, Int.compare_swap, Nat.compare_swap]
        cases s with
        | negative => cases s' with
          | negative => exact congrArg (fun o => some (Ordering.swap o)) hswap
          | positive => rfl
        | positive => cases s' with
          | negative => rfl
          | positive => exact congrArg some hswap

theorem exists_compare {x y : Exact} (hx : x.isNaN = false) (hy : y.isNaN = false) :
    ∃ o, x.compare y = some o := by
  cases x with
  | notANumber => exact absurd hx nofun
  | infinity s => cases y with
    | notANumber => exact absurd hy nofun
    | infinity s' => exact ⟨_, rfl⟩
    | _ => cases s <;> exact ⟨_, rfl⟩
  | zero s => cases y with
    | notANumber => exact absurd hy nofun
    | zero s' => exact ⟨_, rfl⟩
    | infinity s' => cases s' <;> exact ⟨_, rfl⟩
    | finite s' m' e' hm' => cases s' <;> exact ⟨_, rfl⟩
  | finite s m e hm => cases y with
    | notANumber => exact absurd hy nofun
    | zero s' => cases s <;> exact ⟨_, rfl⟩
    | infinity s' => cases s <;> cases s' <;> exact ⟨_, rfl⟩
    | finite s' m' e' hm' => cases s <;> cases s' <;> exact ⟨_, rfl⟩

/-- Of the two zeros, only one is a magnitude. -/
theorem eq_of_compare_abs {x y : Exact} (h : x.abs.compare y.abs = some .eq) : x.abs = y.abs := by
  obtain ⟨_, _, heq | ⟨_, hzero⟩ | ⟨hzero, _⟩⟩ :=
    (beq_iff_ne_notANumber_and_eq x.abs y.abs).mp (beq_iff_eq.mpr h)
  · exact heq
  · cases y <;> exact absurd hzero nofun
  · cases x <;> exact absurd hzero nofun

/-! ## Values that are not finite -/

theorem isNaN_roundWithAccuracy (f : Format) (s : Sign) (m : Nat) (e : Int) (acc : Accuracy) :
    (roundWithAccuracy f s m e acc).isNaN = false := by
  unfold roundWithAccuracy
  dsimp only
  split
  · rfl
  · rfl

theorem isNaN_sub_of_isFinite (f : Format) {x y : Exact} (hx : x.isFinite = true)
    (hy : y.isFinite = true) : (sub f x y).isNaN = false := by
  cases x with
  | notANumber => exact absurd hx nofun
  | infinity s => exact absurd hx nofun
  | zero s => cases y with
    | notANumber => exact absurd hy nofun
    | infinity s' => exact absurd hy nofun
    | zero s' => cases s <;> cases s' <;> rfl
    | finite s' m' e' hm' => rfl
  | finite s m e hm => cases y with
    | notANumber => exact absurd hy nofun
    | infinity s' => exact absurd hy nofun
    | zero s' => rfl
    | finite s' m' e' hm' =>
        simp only [sub, UnpackedFloat.normalize]
        split
        · exact isNaN_roundWithAccuracy _ _ _ _ _
        · rfl
        · exact isNaN_roundWithAccuracy _ _ _ _ _

theorem not_isFinite_sub (f : Format) {x : Exact} (y : Exact) (hx : x.isFinite = false) :
    (sub f x y).isFinite = false := by
  cases x with
  | zero s => exact absurd hx nofun
  | finite s m e hm => exact absurd hx nofun
  | notANumber => cases y <;> rfl
  | infinity s => cases y with
    | infinity s' => cases s <;> cases s' <;> rfl
    | _ => rfl

theorem not_isFinite_repacked {x : Exact} (h : x.isFinite = false) :
    (repacked x).isFinite = false := by
  cases x with
  | zero s => exact absurd h nofun
  | finite s m e hm => exact absurd h nofun
  | notANumber => rfl
  | infinity s => rwa [repacked_infinity]

theorem isNaN_div_of_not_isFinite (f : Format) {x y : Exact} (hx : x.isFinite = false)
    (hy : y.isFinite = false) : (div f x y).isNaN = true := by
  cases x with
  | zero s => exact absurd hx nofun
  | finite s m e hm => exact absurd hx nofun
  | notANumber => rfl
  | infinity s => cases y with
    | zero s' => exact absurd hy nofun
    | finite s' m' e' hm' => exact absurd hy nofun
    | notANumber => rfl
    | infinity s' => rfl

theorem isNaN_div_of_isFinite (f : Format) {x y : Exact} (hx : x.isNaN = false)
    (hy : y.isFinite = true) (hzero : y.isZero = false) : (div f x y).isNaN = false := by
  cases y with
  | notANumber => exact absurd hy nofun
  | infinity s => exact absurd hy nofun
  | zero s => exact absurd hzero nofun
  | finite s m e hm => cases x with
    | notANumber => exact absurd hx nofun
    | infinity s' => rfl
    | zero s' => rfl
    | finite s' m' e' hm' => exact isNaN_roundWithAccuracy _ _ _ _ _

/-- The magnitude of an infinity is above every number, and a NaN is not ordered. -/
theorem not_abs_lt {x : Exact} (h : x.isFinite = false) (y : Exact) : x.abs.lt y = false := by
  cases x with
  | zero s => exact absurd h nofun
  | finite s m e hm => exact absurd h nofun
  | notANumber => rfl
  | infinity s => cases y with
    | infinity s' => cases s' <;> rfl
    | _ => rfl

theorem not_isZero {x : Exact} (h : x.isFinite = false) : x.isZero = false := by
  cases x with
  | zero s => exact absurd h nofun
  | finite s m e hm => rfl
  | notANumber => rfl
  | infinity s => rfl

theorem not_le_of_isNaN {x : Exact} (h : x.isNaN = true) (y : Exact) : x.le y = false := by
  cases x with
  | notANumber => rfl
  | zero s => exact absurd h nofun
  | infinity s => exact absurd h nofun
  | finite s m e hm => exact absurd h nofun

end Exact

open Exact

theorem Float.lt_iff {x y : Float} : x < y ↔ (ofFloat x).lt (ofFloat y) = true := by
  show decide (x.toModel < y.toModel) = true ↔ _
  rw [decide_eq_true_iff]
  rfl

theorem Float.not_le_of_isNaN {x : Float} (h : x.isNaN = true) (y : Float) : ¬ x ≤ y := by
  rw [Float.le_iff, Exact.not_le_of_isNaN (x := ofFloat x) h]
  exact Bool.false_ne_true

end BatchNorm
