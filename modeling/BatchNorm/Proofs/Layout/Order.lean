import BatchNorm.Layout.Basic
import BatchNorm.Proofs.Layout.MixedRadix

/-!
# The order of memory

A layout lists the elements of its padded tensor in the order of its axes, the
slowest axis first: `Layout.axes` are the coordinates of a position in that
order, and `Layout.extents` the extents they stay below. The offset of a position
is the mixed radix number of these coordinates (`offset_eq_value`), so it keeps
their lexicographic order and takes every number below the size once.
-/

set_option autoImplicit false

namespace BatchNorm

namespace Layout

/-- The coordinates of a position in the order in which memory runs through
them, the slowest first. -/
def axes (l : Layout) (p : Position) : List Int :=
  match l.order with
  | .plain => [p.n, p.c, p.d, p.h, p.w]
  | .channelsLast => [p.n, p.d, p.h, p.w, p.c]
  | .blocked => [p.n, p.c / l.block, p.d, p.h, p.w, p.c % l.block]

/-- The extents of the axes, padding included. -/
def extents (l : Layout) : List Nat :=
  let s := l.shape
  match l.order with
  | .plain => [s.batch, l.paddedChannels, s.depth, s.height, s.width]
  | .channelsLast => [s.batch, s.depth, s.height, s.width, l.paddedChannels]
  | .blocked => [s.batch, l.paddedChannels / l.block, s.depth, s.height, s.width, l.block]

/-- The positions that the memory has room for: those of the tensor and those of
the padding. -/
structure Holds (l : Layout) (p : Position) : Prop where
  n : 0 ≤ p.n ∧ p.n < l.shape.batch
  /-- The channel is in range, padding included. -/
  c : 0 ≤ p.c ∧ p.c < l.paddedChannels
  d : 0 ≤ p.d ∧ p.d < l.shape.depth
  h : 0 ≤ p.h ∧ p.h < l.shape.height
  w : 0 ≤ p.w ∧ p.w < l.shape.width

/-! ## Offsets are mixed radix numbers -/

theorem offset_eq_value (l : Layout) (p : Position) :
    l.offset p = MixedRadix.value l.extents (l.axes p) := by
  cases ho : l.order with
  | plain => simp [offset, axes, extents, ho, MixedRadix.value]; ring
  | channelsLast => simp [offset, axes, extents, ho, MixedRadix.value]; ring
  | blocked => simp [offset, axes, extents, ho, MixedRadix.value]; ring

theorem prod_extents (l : Layout) : l.extents.prod = l.size := by
  cases ho : l.order with
  | plain => simp [extents, ho, size, Shape.spatialSize]; ring
  | channelsLast => simp [extents, ho, size, Shape.spatialSize]; ring
  | blocked =>
      have hfill := Nat.div_mul_cancel (l.block_dvd ho)
      simp only [extents, ho, size, Shape.spatialSize, List.prod_cons, List.prod_nil]
      -- the room is the number of blocks times their size, on one side only
      conv_rhs => rw [← hfill]
      ring

/-- A channel is below the padded channels exactly when its block is below the
number of blocks. This needs the last block to be filled. -/
theorem block_index_lt_iff {l : Layout} (ho : l.order = .blocked) (c : Int) :
    (0 ≤ c / l.block ∧ c / l.block < (l.paddedChannels / l.block : Nat)) ↔
      0 ≤ c ∧ c < l.paddedChannels := by
  have hpos : (0 : Int) < l.block := Int.natCast_pos.mpr l.block_pos
  have hfill : ((l.paddedChannels / l.block : Nat) : Int) * l.block = l.paddedChannels := by
    exact_mod_cast Nat.div_mul_cancel (l.block_dvd ho)
  rw [Int.ediv_nonneg_iff_of_pos hpos, Int.ediv_lt_iff_lt_mul hpos, hfill]

theorem within_axes_iff (l : Layout) (p : Position) :
    MixedRadix.Within l.extents (l.axes p) ↔ l.Holds p := by
  cases ho : l.order with
  | plain =>
      simp only [axes, extents, ho, MixedRadix.within_cons, MixedRadix.within_nil, and_true]
      constructor
      · rintro ⟨hn, hc, hd, hh, hw⟩
        exact ⟨hn, hc, hd, hh, hw⟩
      · rintro ⟨hn, hc, hd, hh, hw⟩
        exact ⟨hn, hc, hd, hh, hw⟩
  | channelsLast =>
      simp only [axes, extents, ho, MixedRadix.within_cons, MixedRadix.within_nil, and_true]
      constructor
      · rintro ⟨hn, hd, hh, hw, hc⟩
        exact ⟨hn, hc, hd, hh, hw⟩
      · rintro ⟨hn, hc, hd, hh, hw⟩
        exact ⟨hn, hd, hh, hw, hc⟩
  | blocked =>
      have hpos : (0 : Int) < l.block := Int.natCast_pos.mpr l.block_pos
      simp only [axes, extents, ho, MixedRadix.within_cons, MixedRadix.within_nil,
        block_index_lt_iff ho, and_true]
      constructor
      · rintro ⟨hn, hc, hd, hh, hw, _⟩
        exact ⟨hn, hc, hd, hh, hw⟩
      · rintro ⟨hn, hc, hd, hh, hw⟩
        exact ⟨hn, hc, hd, hh, hw, Int.emod_nonneg _ hpos.ne', Int.emod_lt_of_pos _ hpos⟩

theorem axes_injective (l : Layout) : Function.Injective l.axes := by
  rintro ⟨n, c, d, h, w⟩ ⟨n', c', d', h', w'⟩ heq
  cases ho : l.order with
  | plain => simpa [axes, ho] using heq
  | channelsLast =>
      simp only [axes, ho, List.cons.injEq, and_true] at heq
      simp [heq]
  | blocked =>
      simp only [axes, ho, List.cons.injEq, and_true] at heq
      obtain ⟨hn, hq, hd, hh, hw, hr⟩ := heq
      have hc : c = c' := by
        rw [← Int.ediv_mul_add_emod c l.block, ← Int.ediv_mul_add_emod c' l.block, hq, hr]
      simp [hn, hc, hd, hh, hw]

/-- Coordinates within the extents are those of a position. -/
theorem exists_axes_eq {l : Layout} {ds : List Int} (h : MixedRadix.Within l.extents ds) :
    ∃ p, l.axes p = ds := by
  have hlen := List.Forall₂.length_eq h
  cases ho : l.order with
  | plain =>
      simp only [extents, ho] at hlen
      match ds, hlen with
      | [n, c, d, h, w], _ => exact ⟨⟨n, c, d, h, w⟩, by simp [axes, ho]⟩
  | channelsLast =>
      simp only [extents, ho] at hlen
      match ds, hlen with
      | [n, d, h, w, c], _ => exact ⟨⟨n, c, d, h, w⟩, by simp [axes, ho]⟩
  | blocked =>
      simp only [extents, ho] at hlen
      match ds, hlen with
      | [n, q, d, h', w, r], _ =>
          simp only [extents, ho, MixedRadix.within_cons] at h
          obtain ⟨_, _, _, _, _, hr, _⟩ := h
          refine ⟨⟨n, q * l.block + r, d, h', w⟩, ?_⟩
          have hpos : (0 : Int) < l.block := Int.natCast_pos.mpr l.block_pos
          -- the index within the block is below its size, so division brings both back
          have hq : (q * l.block + r) / l.block = q := by
            rw [Int.add_comm, Int.add_mul_ediv_right _ _ hpos.ne', Int.ediv_eq_zero_of_lt hr.1 hr.2,
              Int.zero_add]
          have hm : (q * l.block + r) % l.block = r := by
            rw [Int.add_comm, Int.add_mul_emod_self_right, Int.emod_eq_of_lt hr.1 hr.2]
          simp [axes, ho, hq, hm]

/-! ## Offsets of held positions -/

/-- Offsets run through memory in the order of the axes. -/
theorem offset_lt_offset_iff {l : Layout} {p q : Position} (hp : l.Holds p) (hq : l.Holds q) :
    l.offset p < l.offset q ↔ l.axes p < l.axes q := by
  rw [offset_eq_value, offset_eq_value]
  exact MixedRadix.value_lt_value_iff ((within_axes_iff l p).mpr hp) ((within_axes_iff l q).mpr hq)

theorem offset_nonneg {l : Layout} {p : Position} (hp : l.Holds p) : 0 ≤ l.offset p := by
  rw [offset_eq_value]
  exact MixedRadix.value_nonneg ((within_axes_iff l p).mpr hp)

theorem offset_lt_size {l : Layout} {p : Position} (hp : l.Holds p) : l.offset p < l.size := by
  rw [offset_eq_value, ← prod_extents]
  exact MixedRadix.value_lt_prod ((within_axes_iff l p).mpr hp)

theorem offset_injective {l : Layout} {p q : Position} (hp : l.Holds p) (hq : l.Holds q)
    (heq : l.offset p = l.offset q) : p = q := by
  rw [offset_eq_value, offset_eq_value] at heq
  exact l.axes_injective (MixedRadix.value_injective ((within_axes_iff l p).mpr hp)
    ((within_axes_iff l q).mpr hq) heq)

/-- Every place of the buffer belongs to a position. -/
theorem exists_offset_eq {l : Layout} {i : Int} (h0 : 0 ≤ i) (h : i < l.size) :
    ∃ p, l.Holds p ∧ l.offset p = i := by
  rw [← prod_extents] at h
  have hds := MixedRadix.within_digits h0 h
  obtain ⟨p, hp⟩ := exists_axes_eq hds
  refine ⟨p, (within_axes_iff l p).mp (hp ▸ hds), ?_⟩
  rw [offset_eq_value, hp]
  exact MixedRadix.value_digits h0 h

/-! ## The last place -/

/-- The position with the largest coordinates that the memory has room for. -/
def last (l : Layout) : Position :=
  ⟨l.shape.batch - 1, l.paddedChannels - 1, l.shape.depth - 1, l.shape.height - 1, l.shape.width - 1⟩

theorem axes_last (l : Layout) : l.axes l.last = l.extents.map fun (e : Nat) => (e : Int) - 1 := by
  cases ho : l.order with
  | plain => simp [axes, extents, ho, last]
  | channelsLast => simp [axes, extents, ho, last]
  | blocked =>
      have hpos : (0 : Int) < l.block := Int.natCast_pos.mpr l.block_pos
      have hfill : (l.block : Int) * (l.paddedChannels / l.block : Nat) = l.paddedChannels := by
        exact_mod_cast Nat.mul_div_cancel' (l.block_dvd ho)
      -- the last channel is the last one of the last block
      have hchannel : ((l.paddedChannels : Int) - 1) / l.block =
            (l.paddedChannels / l.block : Nat) - 1 ∧
          ((l.paddedChannels : Int) - 1) % l.block = l.block - 1 := by
        refine (Int.ediv_emod_unique hpos).mpr ⟨?_, by omega, by omega⟩
        rw [mul_sub, hfill]
        ring
      simp only [axes, extents, ho, last, hchannel, List.map_cons, List.map_nil]

theorem offset_last (l : Layout) : l.offset l.last = l.size - 1 := by
  rw [offset_eq_value, axes_last, MixedRadix.value_largest, prod_extents]

end Layout

end BatchNorm
