import BatchNorm.Numeric.PairwiseSum
import Mathlib.Algebra.BigOperators.Group.List.Basic
import Mathlib.Tactic.Abel

/-!
# Exact sums

Where addition is exact, its order does not show: the lanes hold the sum of what was
added to them, a cut loses nothing, and the total of a list is its sum
(`PairwiseSum.total_eq_sum`).

`PairwiseSum.Computes` is the recursion as a relation: a derivation is a finite tree of
cuts. Every list has exactly one result (`PairwiseSum.computes_iff`).
-/

set_option autoImplicit false

namespace BatchNorm

namespace PairwiseSum

section

variable {α : Type} [Add α] [Neg α] [Zero α]

/-- The recursion comes to a result for a list: at once if the list is short, and else by
way of its two parts. -/
inductive Computes : List α → α → Prop
  | short {xs : List α} (h : xs.length ≤ 128) : Computes xs (short xs)
  | cut {xs : List α} {a b : α} (h : 128 < xs.length)
      (first : Computes (xs.take (cut xs.length)) a)
      (second : Computes (xs.drop (cut xs.length)) b) : Computes xs (a + b)

theorem computes_sum (xs : List α) : Computes xs (sum xs) := by
  fun_induction sum xs with
  | case1 xs h ihfirst ihsecond => exact .cut h ihfirst ihsecond
  | case2 xs h => exact .short (not_lt.mp h)

/-- The recursion ends for every list, and with one result. -/
theorem computes_iff {xs : List α} {r : α} : Computes xs r ↔ r = sum xs := by
  constructor
  · intro h
    induction h with
    | short h => rw [sum, if_neg (not_lt.mpr h)]
    | @cut xs a b h _ _ ihfirst ihsecond => rw [sum, if_pos h, ihfirst, ihsecond]
  · rintro rfl
    exact computes_sum xs

end

variable {α : Type} [AddCommGroup α]

theorem foldl_add_eq (init : α) (xs : List α) : xs.foldl (· + ·) init = init + xs.sum := by
  induction xs generalizing init with
  | nil => simp
  | cons x xs ih => rw [List.foldl_cons, ih, List.sum_cons, add_assoc]

/-- A group of eight adds its sum to the lanes. -/
theorem joinLanes_zipWith_add (lanes group : Vector α 8) :
    joinLanes (lanes.zipWith (· + ·) group) = joinLanes lanes + joinLanes group := by
  simp only [joinLanes, Vector.getElem_zipWith]
  abel

/-- Between the lanes and the rest, nothing is lost. -/
theorem joinLanes_addGroups (lanes : Vector α 8) (xs : List α) :
    joinLanes (addGroups lanes xs).1 + (addGroups lanes xs).2.sum = joinLanes lanes + xs.sum := by
  fun_induction addGroups lanes xs with
  | case1 lanes a₀ a₁ a₂ a₃ a₄ a₅ a₆ a₇ rest ih =>
      rw [ih, joinLanes_zipWith_add]
      simp only [joinLanes, List.sum_cons]
      show _ + (a₀ + a₁ + (a₂ + a₃) + (a₄ + a₅ + (a₆ + a₇))) + _ = _
      abel
  | case2 lanes rest h => rfl

theorem short_eq_sum (xs : List α) : short xs = xs.sum := by
  unfold short
  split
  · rename_i a₀ a₁ a₂ a₃ a₄ a₅ a₆ a₇ rest
    -- the first group fills the lanes
    have hlanes := joinLanes_addGroups #v[a₀, a₁, a₂, a₃, a₄, a₅, a₆, a₇] rest
    have hfirst : joinLanes #v[a₀, a₁, a₂, a₃, a₄, a₅, a₆, a₇] =
        (a₀ + a₁ + (a₂ + a₃)) + (a₄ + a₅ + (a₆ + a₇)) := rfl
    simp only [foldl_add_eq, hlanes, hfirst, List.sum_cons]
    abel
  · rw [foldl_add_eq, neg_zero, zero_add]

theorem sum_eq_sum (xs : List α) : sum xs = xs.sum := by
  fun_induction sum xs with
  | case1 xs h ihleft ihright => rw [ihleft, ihright, ← List.sum_append, List.take_append_drop]
  | case2 xs h => exact short_eq_sum xs

/-- **Exact totals.** The total of a list is its sum. -/
theorem total_eq_sum (xs : List α) : total xs = xs.sum := by
  rw [total, sum_eq_sum, zero_add]

end PairwiseSum

end BatchNorm
