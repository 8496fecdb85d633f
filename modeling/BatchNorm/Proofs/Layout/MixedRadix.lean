import Mathlib.Algebra.BigOperators.Group.List.Basic
import Mathlib.Data.List.Forall2
import Mathlib.Data.List.Lex
import Mathlib.Tactic.Linarith
import Mathlib.Tactic.Ring

/-!
# Mixed radix numbers

A list of extents is read as a list of radices, the first digit counting most.
Digits below their extents are numbered without gaps: `value` keeps the
lexicographic order of the digits (`value_lt_value_iff`) and takes every number
below the product of the extents (`value_digits`). Extents may be zero; then
there are no digits and no numbers.
-/

set_option autoImplicit false

namespace BatchNorm

namespace MixedRadix

/-- The number that some digits stand for. -/
def value : List Nat → List Int → Int
  | _ :: es, d :: ds => d * (es.prod : Nat) + value es ds
  | _, _ => 0

/-- The digits of a number. -/
def digits : List Nat → Int → List Int
  | [], _ => []
  | _ :: es, i => i / (es.prod : Nat) :: digits es (i % (es.prod : Nat))

/-- Each digit is below its extent. -/
def Within (es : List Nat) (ds : List Int) : Prop :=
  List.Forall₂ (fun (e : Nat) (d : Int) => 0 ≤ d ∧ d < e) es ds

@[simp] theorem within_nil {ds : List Int} : Within [] ds ↔ ds = [] :=
  List.forall₂_nil_left_iff

@[simp] theorem within_cons {e : Nat} {es : List Nat} {d : Int} {ds : List Int} :
    Within (e :: es) (d :: ds) ↔ (0 ≤ d ∧ d < e) ∧ Within es ds :=
  List.forall₂_cons

theorem value_nonneg {es : List Nat} {ds : List Int} (h : Within es ds) : 0 ≤ value es ds := by
  induction h with
  | nil => exact le_refl _
  | @cons e d es ds hd _ ih => exact add_nonneg (mul_nonneg hd.1 (Int.natCast_nonneg _)) ih

theorem value_lt_prod {es : List Nat} {ds : List Int} (h : Within es ds) :
    value es ds < (es.prod : Nat) := by
  induction h with
  | nil => decide
  | @cons e d es ds hd _ ih =>
      -- the digits after the first one stand for less than one more of its units
      have hmul : (d + 1) * (es.prod : Nat) ≤ e * (es.prod : Nat) :=
        mul_le_mul_of_nonneg_right (by omega) (Int.natCast_nonneg _)
      rw [List.prod_cons, Nat.cast_mul]
      show d * (es.prod : Nat) + value es ds < _
      linarith

/-- The largest digits stand for the last number. -/
theorem value_largest (es : List Nat) :
    value es (es.map fun (e : Nat) => (e : Int) - 1) = (es.prod : Nat) - 1 := by
  induction es with
  | nil => rfl
  | cons e es ih =>
      rw [List.prod_cons, Nat.cast_mul]
      show ((e : Int) - 1) * (es.prod : Nat) + value es (es.map fun (e : Nat) => (e : Int) - 1) = _
      rw [ih]
      ring

/-- **Order.** The first digit that differs decides, since the digits after it
stand for less than one of its units. -/
theorem value_lt_value_iff {es : List Nat} {ds ds' : List Int} (h : Within es ds)
    (h' : Within es ds') : value es ds < value es ds' ↔ ds < ds' := by
  induction h generalizing ds' with
  | nil => rw [within_nil.mp h']; simp [value]
  | @cons e d es ds hd hds ih =>
      cases h' with
      | @cons _ d' _ ds' hd' hds' =>
          have hlo := value_nonneg hds
          have hlo' := value_nonneg hds'
          have hhi := value_lt_prod hds
          have hhi' := value_lt_prod hds'
          rw [List.cons_lt_cons_iff, ← ih hds']
          show d * (es.prod : Nat) + value es ds < d' * (es.prod : Nat) + value es ds' ↔ _
          -- unless the first digits are equal, the digits after them are outweighed
          rcases lt_trichotomy d d' with hlt | rfl | hgt
          · have hmul : (d + 1) * (es.prod : Nat) ≤ d' * (es.prod : Nat) :=
              mul_le_mul_of_nonneg_right hlt (Int.natCast_nonneg _)
            refine iff_of_true ?_ (Or.inl hlt)
            linarith
          · simp
          · have hmul : (d' + 1) * (es.prod : Nat) ≤ d * (es.prod : Nat) :=
              mul_le_mul_of_nonneg_right hgt (Int.natCast_nonneg _)
            refine iff_of_false ?_ ?_
            · linarith
            · rintro (hlt | ⟨rfl, _⟩)
              · exact lt_asymm hlt hgt
              · exact lt_irrefl _ hgt

theorem value_injective {es : List Nat} {ds ds' : List Int} (h : Within es ds)
    (h' : Within es ds') (heq : value es ds = value es ds') : ds = ds' := by
  rcases lt_trichotomy ds ds' with hlt | rfl | hgt
  · have := (value_lt_value_iff h h').mpr hlt
    omega
  · rfl
  · have := (value_lt_value_iff h' h).mpr hgt
    omega

theorem prod_pos_of_lt {e p : Nat} {i : Int} (h0 : 0 ≤ i) (h : i < (e * p : Nat)) : 0 < p := by
  rcases Nat.eq_zero_or_pos p with rfl | hp
  · simp only [Nat.mul_zero, Nat.cast_zero] at h
    omega
  · exact hp

theorem within_digits {es : List Nat} {i : Int} (h0 : 0 ≤ i) (h : i < (es.prod : Nat)) :
    Within es (digits es i) := by
  induction es generalizing i with
  | nil => exact List.Forall₂.nil
  | cons e es ih =>
      rw [List.prod_cons] at h
      have hp : (0 : Int) < (es.prod : Nat) := Int.natCast_pos.mpr (prod_pos_of_lt h0 h)
      refine within_cons.mpr ⟨⟨Int.ediv_nonneg h0 hp.le, ?_⟩, ?_⟩
      · rw [Nat.cast_mul] at h
        exact Int.ediv_lt_of_lt_mul hp h
      · exact ih (Int.emod_nonneg _ hp.ne') (Int.emod_lt_of_pos _ hp)

/-- **No gaps.** Every number below the product of the extents has its digits. -/
theorem value_digits {es : List Nat} {i : Int} (h0 : 0 ≤ i) (h : i < (es.prod : Nat)) :
    value es (digits es i) = i := by
  induction es generalizing i with
  | nil =>
      simp only [List.prod_nil, Nat.cast_one] at h
      show (0 : Int) = i
      omega
  | cons e es ih =>
      rw [List.prod_cons] at h
      have hp : (0 : Int) < (es.prod : Nat) := Int.natCast_pos.mpr (prod_pos_of_lt h0 h)
      show i / (es.prod : Nat) * (es.prod : Nat) + value es (digits es (i % (es.prod : Nat))) = i
      rw [ih (Int.emod_nonneg _ hp.ne') (Int.emod_lt_of_pos _ hp)]
      exact Int.ediv_mul_add_emod i _

end MixedRadix

end BatchNorm
