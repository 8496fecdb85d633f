import BatchNorm.Proofs.Layout.Cells

/-!
# Dense layouts

Without padding and in the plain order the memory is the tensor: its places, in
order, are those of the positions in lexicographic order
(`logicalOffsets_dense`), and the place of a position is its number in row-major
order (`offset_dense`).
-/

set_option autoImplicit false

namespace BatchNorm

namespace Layout

/-- The plain layout without padding. -/
def dense (s : Shape) : Layout where
  order := .plain
  shape := s
  paddedChannels := s.channels
  channels_le := le_rfl
  block_dvd := nofun

@[simp] theorem dense_shape (s : Shape) : (dense s).shape = s := rfl

theorem dense_hasPadding (s : Shape) : (dense s).hasPadding = false := by
  simp [hasPadding, dense]

/-- The place of a position in a dense layout is its row-major number. -/
theorem offset_dense (s : Shape) (p : Position) :
    (dense s).offset p = MixedRadix.value s.dims p.toList := offset_eq_value _ _

theorem logicalOffsets_sorted_dense (s : Shape) : (dense s).logicalOffsets.Pairwise (· < ·) := by
  rw [logicalOffsets, List.pairwise_map]
  refine (Shape.cells_sorted s 0 s.channels).imp_of_mem fun {p q} hp hq hlt => ?_
  exact (offset_lt_offset_iff (l := dense s) (holds_of_mem_positions hp)
    (holds_of_mem_positions hq)).mpr hlt

/-- In a dense layout the elements of the tensor take the places in order. -/
theorem logicalOffsets_dense (s : Shape) : (dense s).logicalOffsets = (dense s).places := by
  have hperm : (dense s).logicalOffsets.Perm (dense s).places := by
    have hall := (dense s).offsets_perm
    rwa [paddingOffsets, paddingPositions_eq_nil (dense_hasPadding s), List.map_nil, List.append_nil] at hall
  have hplaces : (dense s).places.Pairwise (· < ·) := by
    rw [places, List.pairwise_map]
    exact List.pairwise_lt_range.imp fun {i j} h => Int.ofNat_lt.mpr h
  -- two ascending lists with the same members are the same list
  refine hperm.eq_of_pairwise (fun i j _ _ hij hji => ?_) (logicalOffsets_sorted_dense s) hplaces
  exact absurd (lt_trans hij hji) (lt_irrefl i)

theorem length_positions (s : Shape) : s.positions.length = (dense s).size := by
  have h := congrArg List.length (logicalOffsets_dense s)
  simpa [logicalOffsets, places] using h

/-- The number of a position is where the list of positions has it. -/
theorem positions_getElem?_offset {s : Shape} {p : Position} (hp : p ∈ s.positions) :
    s.positions[((dense s).offset p).toNat]? = some p := by
  obtain ⟨k, hk, rfl⟩ := List.mem_iff_getElem.mp hp
  have hoffset : (dense s).offset s.positions[k] = k := by
    have hmap : (dense s).logicalOffsets[k]? = (dense s).places[k]? := by
      rw [logicalOffsets_dense]
    have hsize : k < (dense s).size := length_positions s ▸ hk
    simpa [logicalOffsets, places, hk, hsize] using hmap
  rw [hoffset, Int.toNat_natCast, List.getElem?_eq_getElem hk]

end Layout

/-! ## One channel -/

namespace Shape

/-- The shape of a single channel. -/
def oneChannel (s : Shape) : Shape := { s with channels := 1 }

@[simp] theorem oneChannel_sites (s : Shape) : s.oneChannel.sites = s.sites := rfl

@[simp] theorem oneChannel_reductionSize (s : Shape) :
    s.oneChannel.reductionSize = s.reductionSize := rfl

/-- The positions of a single channel are its sites. -/
theorem positions_oneChannel (s : Shape) :
    s.oneChannel.positions = s.sites.map (·.inChannel 0) := by
  simp [positions, cells, sites, oneChannel, List.map_flatMap, Site.inChannel, Function.comp_def]

theorem sites_nodup (s : Shape) : s.sites.Nodup :=
  List.Nodup.of_map (·.inChannel 0) (s.positions_oneChannel ▸ cells_nodup _ _ _)

theorem inChannel_mem_positions {s : Shape} {x : Site} {c : Nat} (hx : x ∈ s.sites)
    (hc : c < s.channels) : x.inChannel c ∈ s.positions := by
  obtain ⟨hn, hd, hh, hw⟩ := mem_sites.mp hx
  refine mem_cells.mpr ⟨?_, ?_, ?_, ?_, ?_⟩ <;> simp only [Site.inChannel] <;> omega

end Shape

end BatchNorm
