import BatchNorm.Proofs.Numeric.ExactSum
import Mathlib.Algebra.BigOperators.Fin

/-!
# The tree of a pairwise sum

Where addition rounds, a sum is known by the tree of its additions only: its leaves are the
numbers and some zeros, and its levels bound how far a rounding error, or a bound, is carried
(`AddedUp`). A pairwise sum has few levels: 25 for the longest list that is not cut, and one
more for every doubling (`PairwiseSum.addedUp_total`).
-/

set_option autoImplicit false

namespace BatchNorm

theorem length_lt_eight {α : Type} {xs : List α}
    (h : ∀ a₀ a₁ a₂ a₃ a₄ a₅ a₆ a₇ rest, xs = a₀ :: a₁ :: a₂ :: a₃ :: a₄ :: a₅ :: a₆ :: a₇ :: rest →
      False) : xs.length < 8 := by
  rcases xs with
    _ | ⟨_, _ | ⟨_, _ | ⟨_, _ | ⟨_, _ | ⟨_, _ | ⟨_, _ | ⟨_, _ | ⟨_, _⟩⟩⟩⟩⟩⟩⟩⟩
  all_goals first
    | exact (h _ _ _ _ _ _ _ _ _ rfl).elim
    | simp

section

variable {α : Type} [Add α] [Neg α] [Zero α]

/-- A number is made of the numbers of a collection, and of zeros, by at most `d` levels of
additions. -/
inductive AddedUp : Nat → Multiset α → α → Prop
  | zero (d : Nat) : AddedUp d 0 0
  | negZero (d : Nat) : AddedUp d 0 (-0)
  | value (d : Nat) (x : α) : AddedUp d {x} x
  | add {d : Nat} {s t : Multiset α} {a b : α} (first : AddedUp d s a) (second : AddedUp d t b) :
      AddedUp (d + 1) (s + t) (a + b)

namespace AddedUp

variable {d : Nat} {s : Multiset α} {a : α}

theorem mono (h : AddedUp d s a) {d' : Nat} (hle : d ≤ d') : AddedUp d' s a := by
  induction h generalizing d' with
  | zero d => exact .zero d'
  | negZero d => exact .negZero d'
  | value d x => exact .value d' x
  | add _ _ ihfirst ihsecond =>
      obtain ⟨d', rfl⟩ : ∃ k, d' = k + 1 := ⟨d' - 1, by omega⟩
      exact .add (ihfirst (by omega)) (ihsecond (by omega))

/-- Numbers that are added one after the other. -/
theorem foldl (h : AddedUp d s a) (xs : List α) :
    AddedUp (d + xs.length) (s + (xs : Multiset α)) (xs.foldl (· + ·) a) := by
  induction xs generalizing d s a with
  | nil => simpa using h
  | cons x xs ih =>
      have hleaves : s + {x} + (xs : Multiset α) = s + ((x :: xs : List α) : Multiset α) := by
        rw [add_assoc, Multiset.singleton_add, Multiset.cons_coe]
      have hlevels : d + 1 + xs.length = d + (x :: xs).length := by
        rw [List.length_cons]
        omega
      rw [← hleaves, ← hlevels]
      exact ih (h.add (.value d x))

end AddedUp

namespace PairwiseSum

/-- The lanes are made of one collection each. -/
def LanesOf (d : Nat) (s : Fin 8 → Multiset α) (lanes : Vector α 8) : Prop :=
  ∀ i : Fin 8, AddedUp d (s i) lanes[i]

theorem LanesOf.mono {d d' : Nat} {s : Fin 8 → Multiset α} {lanes : Vector α 8}
    (h : LanesOf d s lanes) (hle : d ≤ d') : LanesOf d' s lanes :=
  fun i => (h i).mono hle

theorem LanesOf.join {d : Nat} {s : Fin 8 → Multiset α} {lanes : Vector α 8}
    (h : LanesOf d s lanes) : AddedUp (d + 3) (∑ i, s i) (joinLanes lanes) := by
  have hpairs := (((h 0).add (h 1)).add ((h 2).add (h 3))).add (((h 4).add (h 5)).add ((h 6).add (h 7)))
  have hsum : ∑ i, s i = s 0 + s 1 + (s 2 + s 3) + (s 4 + s 5 + (s 6 + s 7)) := by
    rw [Fin.sum_univ_eight]
    abel
  rw [hsum]
  exact hpairs

/-- A group of eight numbers adds one level to the lanes. -/
theorem LanesOf.zipWith {d : Nat} {s : Fin 8 → Multiset α} {lanes : Vector α 8}
    (h : LanesOf d s lanes) (group : Vector α 8) :
    LanesOf (d + 1) (fun i => s i + {group[i]}) (lanes.zipWith (· + ·) group) := by
  intro i
  have hstep := (h i).add (.value d group[i])
  simpa using hstep

theorem lanesOf_addGroups (lanes : Vector α 8) (xs : List α) {d : Nat} {s : Fin 8 → Multiset α}
    (h : LanesOf d s lanes) :
    ∃ t, LanesOf (d + xs.length / 8) t (addGroups lanes xs).1 ∧
      ∑ i, t i + ((addGroups lanes xs).2 : Multiset α) = ∑ i, s i + (xs : Multiset α) ∧
      (addGroups lanes xs).2.length < 8 := by
  fun_induction addGroups lanes xs generalizing d s with
  | case1 lanes a₀ a₁ a₂ a₃ a₄ a₅ a₆ a₇ rest ih =>
      obtain ⟨t, ht, hsum, hlength⟩ := ih (h.zipWith #v[a₀, a₁, a₂, a₃, a₄, a₅, a₆, a₇])
      refine ⟨t, ht.mono ?_, hsum.trans ?_, hlength⟩
      · simp only [List.length_cons]
        omega
      · rw [Finset.sum_add_distrib, add_assoc]
        exact congrArg (∑ i, s i + ·) rfl
  | case2 lanes rest hshort =>
      exact ⟨s, h.mono (Nat.le_add_right _ _), rfl, length_lt_eight hshort⟩

/-- Fifteen groups, eight lanes and seven numbers at the end make the most levels of a list
that is not cut. -/
theorem addedUp_short {xs : List α} (h : xs.length ≤ 128) : AddedUp 25 xs (short xs) := by
  unfold short
  split
  · rename_i a₀ a₁ a₂ a₃ a₄ a₅ a₆ a₇ rest
    have hfirst : LanesOf 0 (fun i => {#v[a₀, a₁, a₂, a₃, a₄, a₅, a₆, a₇][i]})
        #v[a₀, a₁, a₂, a₃, a₄, a₅, a₆, a₇] := fun i => .value 0 _
    obtain ⟨t, ht, hsum, hlength⟩ := lanesOf_addGroups _ rest hfirst
    have hleaves : ∑ i, t i + ((addGroups #v[a₀, a₁, a₂, a₃, a₄, a₅, a₆, a₇] rest).2 : Multiset α) =
        (a₀ :: a₁ :: a₂ :: a₃ :: a₄ :: a₅ :: a₆ :: a₇ :: rest : List α) := hsum
    rw [← hleaves]
    refine (ht.join.foldl _).mono ?_
    simp only [List.length_cons] at h
    omega
  · rename_i hshort
    have hlength := length_lt_eight hshort
    have hsum := (AddedUp.negZero 0 : AddedUp 0 0 (-0 : α)).foldl xs
    rw [Multiset.zero_add] at hsum
    exact hsum.mono (by omega)

/-- Each cut adds one level. -/
theorem addedUp_sum (k : Nat) {xs : List α} (h : xs.length ≤ 112 * 2 ^ k + 16) :
    AddedUp (25 + k) xs (sum xs) := by
  induction k generalizing xs with
  | zero =>
      have hshort : ¬ 128 < xs.length := by omega
      rw [sum, if_neg hshort]
      exact addedUp_short (not_lt.mp hshort)
  | succ k ih =>
      rw [sum]
      split
      · rename_i hlong
        rw [Nat.pow_succ] at h
        have hfirst : AddedUp (25 + k) _ (sum (xs.take (cut xs.length))) := ih (by
          rw [List.length_take, cut]
          omega)
        have hsecond : AddedUp (25 + k) _ (sum (xs.drop (cut xs.length))) := ih (by
          rw [List.length_drop, cut]
          omega)
        have hleaves : (xs : Multiset α) =
            (xs.take (cut xs.length) : Multiset α) + (xs.drop (cut xs.length) : Multiset α) := by
          rw [Multiset.coe_add, List.take_append_drop]
        rw [hleaves]
        exact hfirst.add hsecond
      · rename_i hshort
        exact (addedUp_short (not_lt.mp hshort)).mono (by omega)

/-- **The total** of a list that a memory holds has fewer than a hundred levels. -/
theorem addedUp_total {xs : List α} (h : xs.length < 2 ^ 64) : AddedUp 84 xs (total xs) := by
  have hsum : AddedUp 83 (xs : Multiset α) (sum xs) := addedUp_sum 58 (by omega)
  have htotal := (AddedUp.zero 83 : AddedUp 83 0 (0 : α)).add hsum
  rwa [Multiset.zero_add] at htotal

end PairwiseSum

end

end BatchNorm
