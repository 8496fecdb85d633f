import BatchNorm.Proofs.Buffer.RoundTrip

/-!
# Slices of a channel

A channel is read in two ways: by itself, at the sites that are listed for it, and as a slice
of the tensor, whose positions are listed with their channels. In row-major order the slice
is a row of elements for each sample (`Shape.channelSlice`), and the sites run through these
rows one after the other, so both ways give the same indices and the same values
(`channel_reads_agree`). The tables of the two lists differ in their number of axes; the one
for all positions is the larger one. It may be too large for a tensor without elements
(`hollow_sites`).
-/

set_option autoImplicit false

namespace BatchNorm

/-! ## Rows of a list -/

/-- A row of a list that is made of rows of one length. -/
theorem take_drop_flatMap_range {α : Type} {row : Nat → List α} {length count k : Nat}
    (hlength : ∀ i, (row i).length = length) (hk : k < count) :
    (((List.range count).flatMap row).drop (k * length)).take length = row k := by
  obtain ⟨rest, rfl⟩ : ∃ rest, count = k + (rest + 1) := ⟨count - k - 1, by omega⟩
  have hbefore : ((List.range k).flatMap row).length = k * length := by
    simp [List.length_flatMap, hlength]
  have hafter : ((List.range (rest + 1)).map (k + ·)).flatMap row =
      row k ++ ((List.range rest).map fun i => k + (i + 1)).flatMap row := by
    rw [List.range_succ_eq_map, List.map_cons, List.flatMap_cons, List.map_map]
    rfl
  rw [List.range_add, List.flatMap_append, List.drop_left' hbefore, hafter,
    List.take_left' (hlength k)]

theorem take_drop_of_take {α : Type} {xs ys : List α} {first count length : Nat}
    (hxs : xs.take length = ys) (hle : first + count ≤ length) :
    (xs.drop first).take count = (ys.drop first).take count := by
  rw [← hxs, List.drop_take, List.take_take, Nat.min_eq_left (by omega)]

namespace Shape

variable {α : Type}

/-- The elements of a channel among the elements of a tensor: a row for each sample. -/
def channelSlice (s : Shape) (c : Nat) (xs : List α) : List α :=
  (List.range s.batch).flatMap fun n =>
    (xs.drop ((n * s.channels + c) * s.spatialSize)).take s.spatialSize

theorem channelSlice_map {β : Type} (s : Shape) (c : Nat) (f : α → β) (xs : List α) :
    s.channelSlice c (xs.map f) = (s.channelSlice c xs).map f := by
  simp only [channelSlice, List.map_flatMap, List.map_take, List.map_drop]

/-- The positions of a channel in one sample. -/
def rowPositions (s : Shape) (n c : Nat) : List Position :=
  (List.range s.depth).flatMap fun (d : Nat) =>
    (List.range s.height).flatMap fun (h : Nat) =>
      (List.range s.width).map fun (w : Nat) => ⟨n, c, d, h, w⟩

theorem length_rowPositions (s : Shape) (n c : Nat) :
    (s.rowPositions n c).length = s.spatialSize := by
  simp [rowPositions, spatialSize, List.length_flatMap, Nat.mul_assoc]

theorem positions_eq_rows (s : Shape) :
    s.positions =
      (List.range s.batch).flatMap fun n => (List.range s.channels).flatMap (s.rowPositions n) := by
  simp only [positions, cells, Nat.zero_add]
  rfl

theorem sites_eq_rows (s : Shape) (c : Nat) :
    s.sites.map (·.inChannel c) = (List.range s.batch).flatMap fun n => s.rowPositions n c := by
  simp [sites, rowPositions, List.map_flatMap, Site.inChannel, Function.comp_def]

/-- The slice of all positions at a channel lists the sites of the channel. -/
theorem channelSlice_positions {s : Shape} {c : Nat} (hc : c < s.channels) :
    s.channelSlice c s.positions = s.sites.map (·.inChannel c) := by
  rw [sites_eq_rows, channelSlice]
  refine List.flatMap_congr fun n hn => ?_
  have hsample : ∀ n, ((List.range s.channels).flatMap (s.rowPositions n)).length =
      s.channels * s.spatialSize := fun n => by
    simp [List.length_flatMap, length_rowPositions]
  -- first the rows of the sample, then that of the channel among them
  have hrows := take_drop_flatMap_range hsample (List.mem_range.mp hn)
  rw [← positions_eq_rows] at hrows
  have hroom : c * s.spatialSize + s.spatialSize ≤ s.channels * s.spatialSize := by
    rw [← Nat.succ_mul]
    exact Nat.mul_le_mul_right _ hc
  rw [Nat.add_mul, Nat.mul_assoc, ← List.drop_drop, take_drop_of_take hrows hroom]
  exact take_drop_flatMap_range (s.length_rowPositions n) hc

theorem channelSlice_positions_map {s : Shape} {c : Nat} (hc : c < s.channels) (f : Position → α) :
    s.channelSlice c (s.positions.map f) = s.sites.map fun x => f (x.inChannel c) := by
  rw [channelSlice_map, channelSlice_positions hc, List.map_map]
  rfl

/-! ## The sites of a channel -/

/-- A list of the sites of a shape in lexicographic order, each at the place of its
row-major number. -/
structure Enumerated (s : Shape) (sites : List Site) : Prop where
  ascending : sites.Pairwise fun x y => [x.n, x.d, x.h, x.w] < [y.n, y.d, y.h, y.w]
  mem_iff : ∀ x, x ∈ sites ↔ x.n < s.batch ∧ x.d < s.depth ∧ x.h < s.height ∧ x.w < s.width
  number : ∀ (i : Nat) (x : Site), sites[i]? = some x →
    ((x.n * s.depth + x.d) * s.height + x.h) * s.width + x.w = i

theorem sites_ascending (s : Shape) :
    s.sites.Pairwise fun x y => [x.n, x.d, x.h, x.w] < [y.n, y.d, y.h, y.w] := by
  have hsorted := s.oneChannel.cells_sorted 0 1
  rw [show s.oneChannel.cells 0 1 = s.oneChannel.positions from rfl, positions_oneChannel,
    List.pairwise_map] at hsorted
  refine hsorted.imp fun {x y} hlt => ?_
  simpa [Position.toList, Site.inChannel, List.cons_lt_cons_iff] using hlt

/-- In a single channel a site has the row-major number of its position. -/
theorem sites_number {s : Shape} {i : Nat} {x : Site} (h : s.sites[i]? = some x) :
    ((x.n * s.depth + x.d) * s.height + x.h) * s.width + x.w = i := by
  have hmem : x.inChannel 0 ∈ s.oneChannel.positions := by
    rw [positions_oneChannel]
    exact List.mem_map_of_mem (List.mem_of_getElem? h)
  have hplace : s.oneChannel.positions[i]? = some (x.inChannel 0) := by
    rw [positions_oneChannel, List.getElem?_map, h, Option.map_some]
  have hoffset : (Layout.dense s.oneChannel).offset (x.inChannel 0) =
      (((x.n * s.depth + x.d) * s.height + x.h) * s.width + x.w : Nat) := by
    simp [Layout.offset, Layout.dense, oneChannel, Site.inChannel]
  have hnumber := Layout.positions_getElem?_offset hmem
  rw [hoffset, Int.toNat_natCast, ← hplace] at hnumber
  have hlt := (List.getElem?_eq_some_iff.mp hplace).1
  exact ((List.getElem?_inj hlt (cells_nodup _ _ _)).mp hnumber.symm).symm

theorem enumerated_sites (s : Shape) : s.Enumerated s.sites where
  ascending := s.sites_ascending
  mem_iff _ := mem_sites
  number _ _ := sites_number

end Shape

/-! ## Indices of a channel -/

namespace Layout

variable {l : Layout}

/-- The table of all positions is larger than that of the sites. -/
theorem demandSites_of_demandPositions (h : l.demandPositions = .ok ()) :
    l.demandSites = .ok () := by
  obtain ⟨_, htable, _⟩ := bind_eq_ok_iff.mp h
  exact demandSites_of_demandTable htable

/-- A channel of the tensor is a word where the table of all positions exists. -/
theorem channelFactor_holds (h : l.demandPositions = .ok ()) {c : Nat} (hc : c < l.shape.channels) :
    IntegerType.int64.holds (l.channelFactor c) = true := by
  obtain ⟨_, htable, _⟩ := bind_eq_ok_iff.mp h
  have hpositions := (demandTable_eq_ok_iff rfl).mp htable
  have hle : l.shape.channels ≤ (l.shape.dims.map (max 1)).prod := by
    refine (Nat.le_max_right 1 l.shape.channels).trans (Nat.le_of_dvd ?_ ?_)
    · exact List.prod_pos_iff_forall_pos_nat.mpr (by simp [Shape.dims])
    · exact List.dvd_prod (by simp [Shape.dims])
  exact channelFactor_holds_of_lt (by omega)

/-- The indices of a channel are a slice of all indices. -/
theorem channelIndices_eq_slice {logical : List Int} (h : l.logicalIndices = .ok logical) {c : Nat}
    (hc : c < l.shape.channels) :
    l.channelIndices c = .ok (l.shape.channelSlice c logical) := by
  obtain ⟨_, hdemand, hlogical⟩ := bind_eq_ok_iff.mp h
  obtain ⟨_, _, hfactors⟩ := bind_eq_ok_iff.mp hdemand
  have hwords : demandWords (l.channelFactor c :: l.factors) = .ok () := by
    refine demandWords_eq_ok_iff.mpr fun n hn => ?_
    rcases List.mem_cons.mp hn with rfl | hn
    · exact channelFactor_holds hdemand hc
    · exact demandWords_eq_ok_iff.mp hfactors n hn
  have hlogical := Except.ok.inj hlogical
  subst hlogical
  rw [logicalOffsets, List.map_map, Shape.channelSlice_positions_map hc]
  simp only [channelIndices, demandSites_of_demandPositions hdemand, hwords, ok_bind, pure_eq_ok,
    channelOffsets, List.map_map]
  rfl

end Layout

/-! ## Values of a channel -/

namespace Layout

variable {l : Layout} {b : Buffer} {c : Nat}

/-- Below the words the indices of a channel are its offsets. -/
theorem channelIndices_eq_ok (hdemand : l.demandPositions = .ok ()) (hsize : l.size < 2 ^ 63)
    (hc : c < l.shape.channels) : l.channelIndices c = .ok (l.channelOffsets c) := by
  rw [channelIndices_eq_slice (logicalIndices_eq_ok hdemand hsize) hc, logicalOffsets,
    Shape.channelSlice_positions_map hc]
  rfl

/-- The elements that are read of a channel are a slice of the tensor in the buffer. -/
theorem channelValues_eq_slice (hdemand : l.demandPositions = .ok ()) (hsize : l.size ≤ b.size)
    (hwords : b.size < 2 ^ 63) (hc : c < l.shape.channels) :
    l.channelValues b c =
      .ok ((l.shape.channelSlice c (l.unpacked b).elements.values.toList).map b.type.toSingle) := by
  have hslice : l.shape.channelSlice c (l.unpacked b).elements.values.toList =
      (l.channelOffsets c).map b.element := by
    show l.shape.channelSlice c (l.logicalOffsets.map b.element) = _
    rw [logicalOffsets, List.map_map, Shape.channelSlice_positions_map hc, channelOffsets,
      List.map_map]
    rfl
  rw [channelValues, channelIndices_eq_ok hdemand (lt_of_le_of_lt hsize hwords) hc, ok_bind,
    Buffer.gatherSingles_eq_ok (inside_of_mem_channelOffsets hsize hc), hslice, List.map_map]
  rfl

end Layout

namespace Layout

/-- **A channel and its slice.** The columns of the coordinates of a channel, where there are
any, enumerate the sites of the shape. The indices of a channel are the slice of the indices
of the tensor, where there are any. And of an array that is long enough for the layout the
values of a channel are the slice of the unpacked tensor in binary32, of the array as it is
held and of its elements. All of these exist where the table of all positions does, that is
for countable layouts with room for a channel; where that table does not exist, unpacking
and the list of all indices are a misuse. -/
theorem channel_reads_agree (l : Layout) :
    (∀ columns, l.siteColumns = .ok columns →
      ∃ sites : List Site, l.shape.Enumerated sites ∧
        columns = [sites.map fun x => (x.n : Int), sites.map fun x => (x.d : Int),
          sites.map fun x => (x.h : Int), sites.map fun x => (x.w : Int)]) ∧
    (∀ logical, l.logicalIndices = .ok logical → ∀ c < l.shape.channels,
      l.channelIndices c = .ok (l.shape.channelSlice c logical)) ∧
    (∀ a : Tensor, l.size ≤ a.elements.size → a.elements.size < 2 ^ 63 →
      ∀ t, Held.unpack (some a) l = .ok t → ∀ c < l.shape.channels, ∃ values,
        values = (l.shape.channelSlice c t.elements.values.toList).map t.elements.type.toSingle ∧
          Held.channelValues (some a) l c = .ok values ∧
          l.channelValues a.elements c = .ok values) ∧
    (l.demandPositions = .ok () →
      (∃ columns, l.siteColumns = .ok columns) ∧ (∃ logical, l.logicalIndices = .ok logical) ∧
        ∀ a : Tensor, l.size ≤ a.elements.size → ∃ t, Held.unpack (some a) l = .ok t) ∧
    (l.demandPositions ≠ .ok () → ∃ cause, TooLarge cause ∧ l.logicalIndices = misuse cause ∧
      ∀ a : Tensor, l.size ≤ a.elements.size → Held.unpack (some a) l = misuse cause) ∧
    (l.Countable → 0 < l.paddedChannels → l.demandPositions = .ok ()) := by
  refine ⟨fun columns hcolumns => ?_, fun logical hlogical c hc => channelIndices_eq_slice hlogical hc,
    fun a hsize hwords t ht c hc => ?_, fun hdemand => ⟨?_, ?_, fun a hsize => ?_⟩, fun hdemand => ?_,
    fun h hpos => h.demandPositions hpos⟩
  · obtain ⟨_, _, hcolumns⟩ := bind_eq_ok_iff.mp hcolumns
    exact ⟨l.shape.sites, l.shape.enumerated_sites, (Except.ok.inj hcolumns).symm⟩
  · have hdemand : l.demandPositions = .ok () := by
      by_contra hdemand
      obtain ⟨cause, _, hmisuse⟩ := Held.unpack_eq_misuse hsize hdemand
      rw [hmisuse] at ht
      cases ht
    have ht := Except.ok.inj (ht.symm.trans (Held.unpack_eq_ok hsize hdemand))
    subst ht
    have hvalues := channelValues_eq_slice hdemand hsize hwords hc
    exact ⟨_, rfl, hvalues, hvalues⟩
  · simp only [siteColumns, demandSites_of_demandPositions hdemand, ok_bind, pure_eq_ok]
    exact ⟨_, rfl⟩
  · simp only [logicalIndices, hdemand, ok_bind, pure_eq_ok]
    exact ⟨_, rfl⟩
  · exact ⟨_, Held.unpack_eq_ok hsize hdemand⟩
  · obtain ⟨cause, hcause, hmisuse⟩ := l.checksWords_demandPositions.exists_misuse hdemand
    refine ⟨cause, hcause, ?_, fun a hsize => ?_⟩
    · rw [logicalIndices, hmisuse]
      rfl
    · have hfits : l.demandSize a.elements = .ok () := require_eq_ok hsize
      simp only [Held.unpack, Held.elements, hfits, hmisuse, ok_bind]
      rfl

/-- In blocks of two channels the third channel of two samples is read as a slice. -/
theorem channel_reads_twoBlocks :
    let bytes : Tensor := .ofBuffer (.ofList .int8 [1, 2, 3, 0, 4, 5, 6, 0])
    ∃ t values, Held.unpack (some bytes) twoBlocks = .ok t ∧
      values = (twoBlocks.shape.channelSlice 2 t.elements.values.toList).map
        t.elements.type.toSingle ∧
      Held.channelValues (some bytes) twoBlocks 2 = .ok values := by
  intro bytes
  obtain ⟨_, _, hslices, hexist, _, hlimits⟩ := channel_reads_agree twoBlocks
  have hcountable : twoBlocks.Countable := by
    unfold Countable
    decide
  obtain ⟨_, _, hunpack⟩ := hexist (hlimits hcountable (by decide))
  obtain ⟨t, ht⟩ := hunpack bytes (by decide)
  obtain ⟨values, hvalues, hread, _⟩ := hslices bytes (by decide) (by decide) t ht 2 (by decide)
  exact ⟨t, values, ht, hvalues, hread⟩

/-- One channel of samples without sites, of more samples than a table of sites has room
for. -/
def hollow : Layout := dense ⟨2 ^ 61, 1, 0, 1, 1⟩

/-- The sites of `hollow` are none, and still they cannot be listed, nor can the indices of
its channel. -/
theorem hollow_sites :
    hollow.size = 0 ∧ 0 < hollow.shape.channels ∧ hollow.siteColumns = misuse .arrayTooLarge ∧
      hollow.channelIndices 0 = misuse .arrayTooLarge :=
  ⟨rfl, by decide, rfl, rfl⟩

end Layout

end BatchNorm
