import BatchNorm.Proofs.Layout.Order
import Mathlib.Data.List.Sort

/-!
# Lists of positions

The positions of a tensor and those of its padding are listed in lexicographic
order, each once, and together they are all that the memory holds. Since offsets
number the held positions without gaps, the two lists of offsets together are the
places of the buffer in some order (`offsets_perm`).
-/

set_option autoImplicit false

namespace BatchNorm

/-! ## Membership and order -/

namespace Shape

theorem mem_sites {s : Shape} {x : Site} :
    x ∈ s.sites ↔ x.n < s.batch ∧ x.d < s.depth ∧ x.h < s.height ∧ x.w < s.width := by
  obtain ⟨n, d, h, w⟩ := x
  simp only [sites, List.mem_flatMap, List.mem_map, List.mem_range, Site.mk.injEq]
  constructor
  · rintro ⟨_, hn, _, hd, _, hh, _, hw, rfl, rfl, rfl, rfl⟩
    exact ⟨hn, hd, hh, hw⟩
  · rintro ⟨hn, hd, hh, hw⟩
    exact ⟨n, hn, d, hd, h, hh, w, hw, rfl, rfl, rfl, rfl⟩

theorem length_sites (s : Shape) : s.sites.length = s.reductionSize := by
  simp [sites, reductionSize, spatialSize, List.length_flatMap, Nat.mul_assoc]

theorem mem_cells {s : Shape} {first count : Nat} {p : Position} :
    p ∈ s.cells first count ↔
      (0 ≤ p.n ∧ p.n < s.batch) ∧ ((first : Int) ≤ p.c ∧ p.c < (first + count : Nat)) ∧
        (0 ≤ p.d ∧ p.d < s.depth) ∧ (0 ≤ p.h ∧ p.h < s.height) ∧ (0 ≤ p.w ∧ p.w < s.width) := by
  obtain ⟨n, c, d, h, w⟩ := p
  simp only [cells, List.mem_flatMap, List.mem_map, List.mem_range, Position.mk.injEq]
  constructor
  · rintro ⟨_, hn, _, hc, _, hd, _, hh, _, hw, rfl, rfl, rfl, rfl, rfl⟩
    omega
  · rintro ⟨hn, hc, hd, hh, hw⟩
    refine ⟨n.toNat, by omega, (c - first).toNat, by omega, d.toNat, by omega, h.toNat, by omega,
      w.toNat, by omega, ?_⟩
    omega

theorem pairwise_flatMap_range {α : Type} {r : α → α → Prop} {f : Nat → List α} {count : Nat}
    (hin : ∀ i, (f i).Pairwise r) (hout : ∀ i j, i < j → ∀ x ∈ f i, ∀ y ∈ f j, r x y) :
    ((List.range count).flatMap f).Pairwise r :=
  List.pairwise_flatMap.mpr ⟨fun i _ => hin i, List.pairwise_lt_range.imp fun {i j} h => hout i j h⟩

/-- Cells are listed in lexicographic order. -/
theorem cells_sorted (s : Shape) (first count : Nat) :
    (s.cells first count).Pairwise fun p q => p.toList < q.toList := by
  refine pairwise_flatMap_range (fun n => pairwise_flatMap_range (fun c => pairwise_flatMap_range
    (fun d => pairwise_flatMap_range (fun h => ?_) ?_) ?_) ?_) ?_
  · rw [List.pairwise_map]
    refine List.pairwise_lt_range.imp fun {w w'} hw => ?_
    simp [Position.toList, List.cons_lt_cons_iff, hw]
  -- an axis before the last: the indices up to it agree, and at it one is smaller
  all_goals
    intro i j hij x hx y hy
    simp only [List.mem_flatMap, List.mem_map] at hx hy
  · obtain ⟨_, _, rfl⟩ := hx
    obtain ⟨_, _, rfl⟩ := hy
    simp [Position.toList, List.cons_lt_cons_iff, hij]
  · obtain ⟨_, _, _, _, rfl⟩ := hx
    obtain ⟨_, _, _, _, rfl⟩ := hy
    simp [Position.toList, List.cons_lt_cons_iff, hij]
  · obtain ⟨_, _, _, _, _, _, rfl⟩ := hx
    obtain ⟨_, _, _, _, _, _, rfl⟩ := hy
    simp [Position.toList, List.cons_lt_cons_iff, hij]
  · obtain ⟨_, _, _, _, _, _, _, _, rfl⟩ := hx
    obtain ⟨_, _, _, _, _, _, _, _, rfl⟩ := hy
    simp [Position.toList, List.cons_lt_cons_iff, hij]

theorem cells_nodup (s : Shape) (first count : Nat) : (s.cells first count).Nodup :=
  (s.cells_sorted first count).imp fun {p q} h heq => by
    subst heq
    exact lt_irrefl _ h

end Shape

/-! ## All that the memory holds -/

namespace Layout

theorem holds_iff_mem (l : Layout) (p : Position) :
    l.Holds p ↔ p ∈ l.shape.positions ∨ p ∈ l.paddingPositions := by
  have hle := l.channels_le
  simp only [Shape.positions, paddingPositions, Shape.mem_cells]
  constructor
  · rintro ⟨hn, hc, hd, hh, hw⟩
    by_cases hlog : p.c < l.shape.channels
    · exact Or.inl ⟨hn, ⟨by omega, by omega⟩, hd, hh, hw⟩
    · exact Or.inr ⟨hn, ⟨by omega, by omega⟩, hd, hh, hw⟩
  · rintro (⟨hn, hc, hd, hh, hw⟩ | ⟨hn, hc, hd, hh, hw⟩)
    · exact ⟨hn, ⟨by omega, by omega⟩, hd, hh, hw⟩
    · exact ⟨hn, ⟨by omega, by omega⟩, hd, hh, hw⟩

theorem holds_of_mem_positions {l : Layout} {p : Position} (h : p ∈ l.shape.positions) :
    l.Holds p := (l.holds_iff_mem p).mpr (Or.inl h)

theorem holds_of_mem_padding {l : Layout} {p : Position} (h : p ∈ l.paddingPositions) :
    l.Holds p := (l.holds_iff_mem p).mpr (Or.inr h)

theorem paddingPositions_eq_nil {l : Layout} (h : l.hasPadding = false) :
    l.paddingPositions = [] := by
  have hle : l.paddedChannels ≤ l.shape.channels := by simpa [hasPadding] using h
  refine List.eq_nil_iff_forall_not_mem.mpr fun p hp => ?_
  obtain ⟨_, hc, _⟩ := Shape.mem_cells.mp hp
  omega

theorem positions_append_padding_nodup (l : Layout) :
    (l.shape.positions ++ l.paddingPositions).Nodup := by
  refine List.nodup_append'.mpr ⟨Shape.cells_nodup _ _ _, Shape.cells_nodup _ _ _, ?_⟩
  intro p hp hq
  have hlog := (Shape.mem_cells.mp hp).2.1.2
  have hpad := (Shape.mem_cells.mp hq).2.1.1
  omega

/-- The places of the buffer in order. -/
def places (l : Layout) : List Int := (List.range l.size).map Int.ofNat

theorem mem_places {l : Layout} {i : Int} : i ∈ l.places ↔ 0 ≤ i ∧ i < l.size := by
  simp only [places, List.mem_map, List.mem_range]
  constructor
  · rintro ⟨k, hk, rfl⟩
    exact ⟨Int.natCast_nonneg k, Int.ofNat_lt.mpr hk⟩
  · rintro ⟨h0, h⟩
    exact ⟨i.toNat, by omega, Int.toNat_of_nonneg h0⟩

/-- The offsets of the tensor and of its padding are the places of the buffer,
each once. -/
theorem offsets_perm (l : Layout) : (l.logicalOffsets ++ l.paddingOffsets).Perm l.places := by
  have hmap : l.logicalOffsets ++ l.paddingOffsets =
      (l.shape.positions ++ l.paddingPositions).map l.offset := by
    rw [List.map_append]; rfl
  have hmem : ∀ p, p ∈ l.shape.positions ++ l.paddingPositions ↔ l.Holds p := fun p => by
    rw [List.mem_append, holds_iff_mem]
  have hnodup : ((l.shape.positions ++ l.paddingPositions).map l.offset).Nodup :=
    l.positions_append_padding_nodup.map_on fun p hp q hq =>
      offset_injective ((hmem p).mp hp) ((hmem q).mp hq)
  have hplaces : l.places.Nodup :=
    List.nodup_range.map fun _ _ h => Int.ofNat.inj h
  rw [hmap, List.perm_ext_iff_of_nodup hnodup hplaces]
  intro i
  -- both lists have no duplicates, so it is enough that they have the same members
  simp only [List.mem_map, hmem, mem_places]
  constructor
  · rintro ⟨p, hp, rfl⟩
    exact ⟨offset_nonneg hp, offset_lt_size hp⟩
  · rintro ⟨h0, h⟩
    exact exists_offset_eq h0 h

end Layout

end BatchNorm
