import BatchNorm.Proofs.Comparison.Listing
import Mathlib.Data.List.FinRange

/-!
# Failing values

Whether a value fails is decided twice: for two numbers by `nearlyEqual`, and for the values
of a channel over the list of their deviations, negated. Both decisions are the same, also
where a NaN is involved (`compareChannel_lists_failing`). The values are a function on
`Fin n`, and so are the grids that say where they belong (`Grids`); a grid may be longer
than there are values.
-/

set_option autoImplicit false

namespace BatchNorm

/-! ## Limits as bounds -/

/-- A limit is the upper bound of a slice. -/
theorem upTo_some_eq_take {α : Type} (k : Int) (xs : List α) :
    upTo (some k) xs = xs.take (Buffer.bound xs.length k) := by
  cases k with
  | ofNat k =>
      have hbound : Buffer.bound xs.length (Int.ofNat k) = min k xs.length :=
        if_neg (not_lt.mpr (Int.natCast_nonneg k))
      rw [hbound, ← List.take_eq_take_min]
      rfl
  | negSucc k =>
      have hbound : Buffer.bound xs.length (Int.negSucc k) = xs.length - (k + 1) := by
        rw [Buffer.bound, if_pos (Int.negSucc_lt_zero k)]
        omega
      rw [hbound]
      rfl

/-! ## Grids -/

/-- Where `n` values belong: for each axis but that of the channels a list with an entry for
each value. -/
structure Grids (n : Nat) where
  batch : List Int
  depth : List Int
  height : List Int
  width : List Int
  batch_le : n ≤ batch.length
  depth_le : n ≤ depth.length
  height_le : n ≤ height.length
  width_le : n ≤ width.length

namespace Grids

variable {n : Nat}

def columns (g : Grids n) : List (List Int) := [g.batch, g.depth, g.height, g.width]

/-- The position of a value in a channel. -/
def position (g : Grids n) (channel : Int) (i : Fin n) : Position where
  n := g.batch.get (i.castLE g.batch_le)
  c := channel
  d := g.depth.get (i.castLE g.depth_le)
  h := g.height.get (i.castLE g.height_le)
  w := g.width.get (i.castLE g.width_le)

theorem elementAt_get {xs : List Int} (h : n ≤ xs.length) (i : Fin n) :
    elementAt xs i = .ok (xs.get (i.castLE h)) := by
  have hlt : (i : Nat) < xs.length := lt_of_lt_of_le i.isLt h
  rw [elementAt, List.getElem?_eq_getElem hlt]
  rfl

theorem positionAt_columns (g : Grids n) (channel : Int) (i : Fin n) :
    positionAt g.columns channel i = .ok (g.position channel i) := by
  simp only [positionAt, columns, List.take_succ_cons, List.take_nil, List.mapM_cons,
    List.mapM_nil, elementAt_get g.batch_le, elementAt_get g.depth_le, elementAt_get g.height_le,
    elementAt_get g.width_le, ok_bind, pure_eq_ok, position]

end Grids

/-! ## The failing values of a channel -/

section

variable {n : Nat} {quantity : String} {channel : Int} {actual expected : Fin n → Float}
  {epsilon floor : Float} {grids : Option (Grids n)} {limit : Option Int}

/-- The indices of the values that are not near to the expected ones, ascending. -/
def failing (actual expected : Fin n → Float) (epsilon floor : Float) : List (Fin n) :=
  (List.finRange n).filter fun i => !nearlyEqual (actual i) (expected i) epsilon floor

theorem failing_ascending : (failing actual expected epsilon floor).Pairwise (· < ·) :=
  (List.pairwise_lt_finRange n).filter _

theorem mem_failing_iff {i : Fin n} :
    i ∈ failing actual expected epsilon floor ↔
      nearlyEqual (actual i) (expected i) epsilon floor = false := by
  simp [failing]

theorem compareChannel_ofFn :
    compareChannel quantity channel (List.ofFn actual) (List.ofFn expected) epsilon floor
        (grids.map (·.columns)) limit =
      .ok ((upTo limit (failing actual expected epsilon floor)).map fun i =>
        .ofValues quantity channel (grids.map (·.position channel i)) (actual i) (expected i)
          epsilon floor) := by
  have hposition : ∀ (k : Nat) (i : Fin n), (List.finRange n)[k]? = some i →
      (grids.map (·.columns)).mapM (positionAt · channel k) =
        .ok (grids.map (·.position channel i)) := by
    intro k i hi
    obtain ⟨hk, hi⟩ := List.getElem?_eq_some_iff.mp hi
    have hki : k = i := by
      rw [← hi, List.getElem_finRange]
      rfl
    subst hki
    cases grids with
    | none => rfl
    | some g =>
        rw [Option.map_some, Option.mapM_some, g.positionAt_columns]
        rfl
  rw [List.ofFn_eq_map, List.ofFn_eq_map]
  exact compareChannel_eq hposition

end

/-- **Failing values.** A comparison of as many values as expected ones does not fail. It
describes the values that are not near to the expected ones, in the order of their indices
and up to the limit, each with its deviation, the largest deviation allowed and, where there
are grids, its position. -/
theorem compareChannel_lists_failing {n : Nat} (quantity : String) (channel : Int)
    (actual expected : Fin n → Float) (epsilon floor : Float) (grids : Option (Grids n))
    (limit : Option Int) :
    ∃ indices kept : List (Fin n), indices.Pairwise (· < ·) ∧
      (∀ i, i ∈ indices ↔ nearlyEqual (actual i) (expected i) epsilon floor = false) ∧
      (limit = none → kept = indices) ∧
      (∀ k, limit = some k → kept = indices.take (Buffer.bound indices.length k)) ∧
      compareChannel quantity channel (List.ofFn actual) (List.ofFn expected) epsilon floor
          (grids.map (·.columns)) limit =
        .ok (kept.map fun i =>
          { quantity, channel
            position := grids.map (·.position channel i)
            expected := expected i
            actual := actual i
            deviation := relativeDeviation (actual i) (expected i) floor
            epsilon }) := by
  refine ⟨failing actual expected epsilon floor,
    upTo limit (failing actual expected epsilon floor), failing_ascending,
    fun i => mem_failing_iff, fun h => ?_, fun k h => ?_, compareChannel_ofFn⟩
  · rw [h]
    rfl
  · rw [h, upTo_some_eq_take]

end BatchNorm
