import BatchNorm.Layout.Index
import BatchNorm.Proofs.Layout.Dense
import BatchNorm.Proofs.Outcome
import Mathlib.Algebra.BigOperators.Group.List.Lemmas

/-!
# Index lists in words

The index lists are computed in words of 64 bits. Where both tables of coordinates
can be counted, the size of the layout is far below the words
(`size_lt_of_demands`), so no place wraps and the two lists of indices are the
lists of offsets. The limits are needed for both lists: the list of the tensor
alone may exist and still wrap (`wide_logicalIndices`). A layout of which five words for
each place can be counted (`Countable`) is within all limits.
-/

set_option autoImplicit false

namespace BatchNorm

/-! ## Tables that can be counted -/

theorem demandBytes_eq_ok_iff {count : Nat} :
    Buffer.demandBytes count = .ok () ↔ count < 2 ^ 63 := by
  have hholds : IntegerType.int64.holds count = true ↔ count < 2 ^ 63 := by
    simp [IntegerType.holds, IntegerType.least, IntegerType.greatest, IntegerType.int64]
    omega
  unfold Buffer.demandBytes
  split
  · exact iff_of_true rfl (hholds.mp ‹_›)
  · exact iff_of_false (by simp [misuse]) (mt hholds.mpr ‹_›)

/-- The check of the bytes fails in one way only. -/
theorem demandBytes_eq_misuse {count : Nat} (h : Buffer.demandBytes count ≠ .ok ()) :
    Buffer.demandBytes count = misuse .arrayTooLarge := by
  unfold Buffer.demandBytes at h ⊢
  split at h
  · exact absurd rfl h
  · exact if_neg ‹_›

theorem demandWords_eq_ok_iff {numbers : List Int} :
    demandWords numbers = .ok () ↔ ∀ n ∈ numbers, IntegerType.int64.holds n = true := by
  unfold demandWords
  split
  · exact iff_of_true rfl (List.all_eq_true.mp ‹_›)
  · exact iff_of_false (by simp [misuse]) (mt List.all_eq_true.mpr ‹_›)

/-- Leaving out the extents of zero is counting them as one. -/
theorem foldl_filter_ne_zero (bytes : Nat) (dims : List Nat) :
    (dims.filter (· ≠ 0)).foldl (· * ·) bytes = bytes * (dims.map (max 1)).prod := by
  induction dims generalizing bytes with
  | nil => simp
  | cons e es ih =>
      rcases Nat.eq_zero_or_pos e with rfl | he
      · simpa using ih bytes
      · have hfilter : (e :: es).filter (· ≠ 0) = e :: es.filter (· ≠ 0) :=
          List.filter_cons_of_pos (by simpa using he.ne')
        rw [hfilter, List.foldl_cons, ih, List.map_cons, List.prod_cons, Nat.max_eq_right he,
          Nat.mul_assoc]

theorem demandDims_eq_ok_iff {bytes : Nat} {dims : List Nat} :
    Buffer.demandDims bytes dims = .ok () ↔ bytes * (dims.map (max 1)).prod < 2 ^ 63 := by
  rw [Buffer.demandDims, foldl_filter_ne_zero, demandBytes_eq_ok_iff]

/-- A table of coordinates has a word of eight bytes for each axis at every
position. -/
theorem demandTable_eq_ok_iff {dims : List Nat} (hlen : dims.length = 5) :
    demandTable dims = .ok () ↔ 40 * (dims.map (max 1)).prod < 2 ^ 63 := by
  rw [demandTable, demandDims_eq_ok_iff, hlen, List.map_cons, List.prod_cons, ← Nat.mul_assoc]
  rfl

theorem prod_le_prod_max_one (dims : List Nat) : dims.prod ≤ (dims.map (max 1)).prod := by
  induction dims with
  | nil => exact le_refl _
  | cons e es ih =>
      rw [List.map_cons, List.prod_cons, List.prod_cons]
      exact Nat.mul_le_mul (Nat.le_max_right 1 e) ih

namespace Layout

/-- The bytes of the two tables bound the size of the layout. -/
theorem size_lt_of_demands {l : Layout} (hlog : l.demandPositions = .ok ())
    (hpad : l.demandPaddingCells = .ok ()) : l.size < 2 ^ 63 := by
  obtain ⟨_, hlog, _⟩ := bind_eq_ok_iff.mp hlog
  obtain ⟨_, hpad, _⟩ := bind_eq_ok_iff.mp hpad
  have hlog := (demandTable_eq_ok_iff rfl).mp hlog
  have hpad := (demandTable_eq_ok_iff rfl).mp hpad
  have hlogLe := prod_le_prod_max_one l.shape.dims
  have hpadLe := prod_le_prod_max_one
    [l.shape.batch, l.paddedChannels - l.shape.channels, l.shape.depth, l.shape.height,
      l.shape.width]
  -- the tensor and its padding share the places among them
  have hsplit : l.size = l.shape.dims.prod + [l.shape.batch, l.paddedChannels - l.shape.channels,
      l.shape.depth, l.shape.height, l.shape.width].prod := by
    simp only [Shape.dims, List.prod_cons, List.prod_nil]
    rw [← Nat.mul_add, ← Nat.add_mul, Nat.add_sub_cancel' l.channels_le]
    simp only [size, Shape.spatialSize]
    ring
  omega

theorem int64_holds_of_lt {i : Int} (h0 : 0 ≤ i) (h : i < 2 ^ 63) :
    IntegerType.int64.holds i = true := by
  simp [IntegerType.holds, IntegerType.least, IntegerType.greatest, IntegerType.int64]
  omega

/-- A channel that the memory holds is below the size of the layout. -/
theorem channel_lt_size {l : Layout} {p : Position} (hp : l.Holds p) : p.c < l.size := by
  obtain ⟨hn, hc, hd, hh, hw⟩ := hp
  have hspatial : 0 < l.shape.spatialSize :=
    Nat.mul_pos (Nat.mul_pos (by omega) (by omega)) (by omega)
  have hle : l.paddedChannels ≤ l.size :=
    calc l.paddedChannels = 1 * l.paddedChannels * 1 := by ring
      _ ≤ l.shape.batch * l.paddedChannels * l.shape.spatialSize :=
          Nat.mul_le_mul (Nat.mul_le_mul_right _ (by omega)) hspatial
  omega

theorem wrap_offset {l : Layout} {p : Position} (hsize : l.size < 2 ^ 63) (hp : l.Holds p) :
    IntegerType.int64.wrap (l.offset p) = l.offset p := by
  have hlt := offset_lt_size hp
  exact IntegerType.wrap_int64_of_holds (int64_holds_of_lt (offset_nonneg hp) (by omega))

theorem wrap_channel {l : Layout} {p : Position} (hsize : l.size < 2 ^ 63) (hp : l.Holds p) :
    { p with c := IntegerType.int64.wrap p.c } = p := by
  have hlt := channel_lt_size hp
  rw [IntegerType.wrap_int64_of_holds (int64_holds_of_lt hp.c.1 (by omega))]

/-- Below the words no place of a held position wraps. -/
theorem map_wrap_offset {l : Layout} {ps : List Position} (hsize : l.size < 2 ^ 63)
    (hps : ∀ p ∈ ps, l.Holds p) :
    ps.map (fun p => IntegerType.int64.wrap (l.offset p)) = ps.map l.offset :=
  List.map_congr_left fun p hp => wrap_offset hsize (hps p hp)

theorem logicalIndices_eq_ok {l : Layout} (hdemand : l.demandPositions = .ok ())
    (hsize : l.size < 2 ^ 63) : l.logicalIndices = .ok l.logicalOffsets := by
  have hwrap := map_wrap_offset hsize fun p (hp : p ∈ l.shape.positions) => holds_of_mem_positions hp
  simp only [logicalIndices, hdemand, ok_bind, pure_eq_ok, logicalOffsets, List.map_map]
  exact congrArg Except.ok hwrap

theorem paddingCells_eq_ok {l : Layout} (hdemand : l.demandPaddingCells = .ok ())
    (hsize : l.size < 2 ^ 63) : l.paddingCells = .ok l.paddingPositions := by
  have hwrap : (l.paddingPositions.map fun p => { p with c := IntegerType.int64.wrap p.c }) =
      l.paddingPositions := by
    rw [List.map_congr_left fun p hp => wrap_channel hsize (holds_of_mem_padding hp), List.map_id']
  simp only [paddingCells, hdemand, ok_bind, pure_eq_ok, hwrap]

theorem paddingIndices_eq_ok {l : Layout} (hdemand : l.demandPadding = .ok ())
    (hsize : l.size < 2 ^ 63) : l.paddingIndices = .ok l.paddingOffsets := by
  obtain ⟨_, hcells, hfactors⟩ := bind_eq_ok_iff.mp hdemand
  have hwrap := map_wrap_offset hsize fun p (hp : p ∈ l.paddingPositions) => holds_of_mem_padding hp
  simp only [paddingIndices, paddingCells_eq_ok hcells hsize, hfactors, ok_bind, pure_eq_ok,
    paddingOffsets]
  exact congrArg Except.ok hwrap

/-- The list of the padding has been made from its table. -/
theorem demandPadding_of_paddingIndices {l : Layout} {padding : List Int}
    (h : l.paddingIndices = .ok padding) : l.demandPadding = .ok () := by
  obtain ⟨_, hcells, hrest⟩ := bind_eq_ok_iff.mp h
  obtain ⟨_, hdemand, _⟩ := bind_eq_ok_iff.mp hcells
  obtain ⟨_, hfactors, _⟩ := bind_eq_ok_iff.mp hrest
  exact bind_eq_ok_iff.mpr ⟨_, hdemand, hfactors⟩

/-- Where both lists of indices exist, they are the lists of offsets. -/
theorem indices_eq_offsets {l : Layout} {logical padding : List Int}
    (hlog : l.logicalIndices = .ok logical) (hpad : l.paddingIndices = .ok padding) :
    logical = l.logicalOffsets ∧ padding = l.paddingOffsets := by
  obtain ⟨_, hpositions, _⟩ := bind_eq_ok_iff.mp hlog
  have hpadding := demandPadding_of_paddingIndices hpad
  obtain ⟨_, hdemand, _⟩ := bind_eq_ok_iff.mp hpadding
  have hsize := size_lt_of_demands hpositions hdemand
  constructor
  · exact Except.ok.inj (hlog.symm.trans (logicalIndices_eq_ok hpositions hsize))
  · exact Except.ok.inj (hpad.symm.trans (paddingIndices_eq_ok hpadding hsize))

/-! ## The padding -/

/-- The table of the padding, where there is any, exists. -/
def Paddable (l : Layout) : Prop := l.hasPadding = true → l.demandPadding = .ok ()

/-- The limits within which the indices of the padding, where there is any, are the places
of the padding. -/
def PaddingInWords (l : Layout) : Prop :=
  l.hasPadding = true → l.demandPadding = .ok () ∧ l.size < 2 ^ 63

theorem Paddable.inWords {l : Layout} (h : l.Paddable) (hsize : l.size < 2 ^ 63) :
    l.PaddingInWords := fun hpad => ⟨h hpad, hsize⟩

theorem PaddingInWords.paddingCells {l : Layout} (h : l.PaddingInWords)
    (hpad : l.hasPadding = true) : l.paddingCells = .ok l.paddingPositions := by
  obtain ⟨hdemand, hsize⟩ := h hpad
  obtain ⟨_, hcells, _⟩ := bind_eq_ok_iff.mp hdemand
  exact paddingCells_eq_ok hcells hsize

theorem PaddingInWords.paddingIndices {l : Layout} (h : l.PaddingInWords)
    (hpad : l.hasPadding = true) : l.paddingIndices = .ok l.paddingOffsets :=
  paddingIndices_eq_ok (h hpad).1 (h hpad).2

/-- Either the table of the padding does not exist, or its places are computed from what
is no word. -/
theorem demandPadding_eq_misuse {l : Layout} {cause : Misuse} (h : l.demandPadding = misuse cause) :
    l.demandPaddingCells = misuse cause ∨
      l.demandPaddingCells = .ok () ∧ demandWords l.factors = misuse cause := by
  rw [demandPadding] at h
  cases hcells : l.demandPaddingCells with
  | error e =>
      rw [hcells] at h
      exact Or.inl h
  | ok u =>
      rw [hcells, ok_bind] at h
      exact Or.inr ⟨rfl, h⟩

theorem paddingIndices_eq_misuse {l : Layout} {cause : Misuse}
    (h : l.demandPadding = misuse cause) : l.paddingIndices = misuse cause := by
  rw [paddingIndices, paddingCells]
  rcases demandPadding_eq_misuse h with hcells | ⟨hcells, hfactors⟩
  · rw [hcells]
    rfl
  · rw [hcells, ok_bind, pure_eq_ok, ok_bind, hfactors]
    rfl

/-! ## When the lists exist -/

/-- Five words can be counted for each place, where extents of zero count as one. -/
def Countable (l : Layout) : Prop :=
  40 * ([l.shape.batch, l.paddedChannels, l.shape.depth, l.shape.height, l.shape.width].map
    (max 1)).prod < 2 ^ 63

theorem Countable.paddedChannels_lt {l : Layout} (h : l.Countable) :
    40 * l.paddedChannels < 2 ^ 63 := by
  refine lt_of_le_of_lt (Nat.mul_le_mul_left 40 ?_) h
  refine (Nat.le_max_right 1 l.paddedChannels).trans (Nat.le_of_dvd ?_ ?_)
  · exact List.prod_pos_iff_forall_pos_nat.mpr (by simp)
  · exact List.dvd_prod (by simp)

theorem size_eq_prod (l : Layout) :
    l.size =
      [l.shape.batch, l.paddedChannels, l.shape.depth, l.shape.height, l.shape.width].prod := by
  simp only [size, Shape.spatialSize, List.prod_cons, List.prod_nil]
  ring

theorem Countable.size_lt {l : Layout} (h : l.Countable) : l.size < 2 ^ 63 := by
  have hle := prod_le_prod_max_one
    [l.shape.batch, l.paddedChannels, l.shape.depth, l.shape.height, l.shape.width]
  have hwords : 40 * _ < 2 ^ 63 := h
  rw [l.size_eq_prod]
  omega

theorem paddedChannels_pos {l : Layout} (hsize : 0 < l.size) : 0 < l.paddedChannels := by
  rw [size] at hsize
  exact Nat.pos_of_mul_pos_left (Nat.pos_of_mul_pos_right hsize)

/-- Where there are places, no extent is zero. -/
theorem countable_of_size_pos {l : Layout} (hsize : 0 < l.size) (hwords : 40 * l.size < 2 ^ 63) :
    l.Countable := by
  rw [size_eq_prod] at hsize hwords
  have hextents : [l.shape.batch, l.paddedChannels, l.shape.depth, l.shape.height,
      l.shape.width].map (max 1) =
        [l.shape.batch, l.paddedChannels, l.shape.depth, l.shape.height, l.shape.width] := by
    refine (List.map_congr_left fun e he => ?_).trans (List.map_id _)
    exact Nat.max_eq_right (List.prod_pos_iff_forall_pos_nat.mp hsize e he)
  rwa [Countable, hextents]

/-- The table of all positions of some channels, of which there are no more than
the memory has room for. -/
theorem Countable.demandTable {l : Layout} (h : l.Countable) {channels : Nat}
    (hle : channels ≤ l.paddedChannels) :
    BatchNorm.demandTable [l.shape.batch, channels, l.shape.depth, l.shape.height, l.shape.width] =
      .ok () := by
  refine (demandTable_eq_ok_iff rfl).mpr (lt_of_le_of_lt (Nat.mul_le_mul_left 40 ?_) h)
  simp only [List.map_cons, List.map_nil, List.prod_cons, List.prod_nil]
  gcongr

theorem demandWords_factors {l : Layout} (hpos : 0 < l.paddedChannels)
    (hlt : l.paddedChannels < 2 ^ 63) : demandWords l.factors = .ok () := by
  refine demandWords_eq_ok_iff.mpr fun n hn => ?_
  have hblock := Int.natCast_nonneg l.block
  cases ho : l.order with
  | plain =>
      simp only [factors, ho, List.mem_singleton] at hn
      exact int64_holds_of_lt (by omega) (by omega)
  | channelsLast =>
      simp only [factors, ho, List.mem_singleton] at hn
      exact int64_holds_of_lt (by omega) (by omega)
  | blocked =>
      have hle := Nat.le_of_dvd hpos (l.block_dvd ho)
      have hdiv := Nat.div_le_self l.paddedChannels l.block
      simp only [factors, ho, List.mem_cons, List.not_mem_nil, or_false] at hn
      rcases hn with rfl | rfl
      · exact int64_holds_of_lt (by positivity) (by exact_mod_cast lt_of_le_of_lt hdiv hlt)
      · exact int64_holds_of_lt (by omega) (by omega)

theorem paddedChannels_le_size {l : Layout} (hsize : 0 < l.size) : l.paddedChannels ≤ l.size := by
  rw [size_eq_prod] at hsize ⊢
  exact Nat.le_of_dvd hsize (List.dvd_prod (by simp))

/-- No extent of the tensor is larger than one of the memory. -/
theorem exists_extent_of_mem_dims {l : Layout} {n : Nat} (hn : n ∈ l.shape.dims) :
    ∃ e ∈ [l.shape.batch, l.paddedChannels, l.shape.depth, l.shape.height, l.shape.width],
      n ≤ e := by
  simp only [Shape.dims, List.mem_cons, List.not_mem_nil, or_false] at hn
  rcases hn with rfl | rfl | rfl | rfl | rfl
  · exact ⟨l.shape.batch, by simp, le_rfl⟩
  · exact ⟨l.paddedChannels, by simp, l.channels_le⟩
  · exact ⟨l.shape.depth, by simp, le_rfl⟩
  · exact ⟨l.shape.height, by simp, le_rfl⟩
  · exact ⟨l.shape.width, by simp, le_rfl⟩

/-- No extent is larger than a layout with places. -/
theorem le_size_of_mem_dims {l : Layout} (hsize : 0 < l.size) {n : Nat} (hn : n ∈ l.shape.dims) :
    n ≤ l.size := by
  obtain ⟨e, he, hle⟩ := exists_extent_of_mem_dims hn
  rw [size_eq_prod] at hsize ⊢
  exact hle.trans (Nat.le_of_dvd hsize (List.dvd_prod he))

/-- The extents of a countable layout are words. -/
theorem Countable.lt_of_mem_dims {l : Layout} (h : l.Countable) {n : Nat} (hn : n ∈ l.shape.dims) :
    n < 2 ^ 63 := by
  obtain ⟨e, he, hle⟩ := exists_extent_of_mem_dims hn
  have hpos : 0 < ([l.shape.batch, l.paddedChannels, l.shape.depth, l.shape.height,
      l.shape.width].map (max 1)).prod := List.prod_pos_iff_forall_pos_nat.mpr (by simp)
  have hfactor := Nat.le_of_dvd hpos (List.dvd_prod (List.mem_map_of_mem he))
  have hwords : 40 * _ < 2 ^ 63 := h
  have hmax := Nat.le_max_right 1 e
  omega

theorem channelFactor_holds_of_lt {l : Layout} {c : Nat} (h : c < 2 ^ 63) :
    IntegerType.int64.holds (l.channelFactor c) = true := by
  unfold channelFactor
  split
  · exact int64_holds_of_lt (by omega) (by omega)
  · exact int64_holds_of_lt (by omega) (by omega)
  · have hdiv := Nat.div_le_self c l.block
    exact int64_holds_of_lt (by positivity) (by exact_mod_cast lt_of_le_of_lt hdiv h)

/-- Of a layout with places, fewer than the words, the indices of a channel are its offsets
where the table of the sites exists. -/
theorem channelIndices_eq_offsets {l : Layout} (hsites : l.demandSites = .ok ())
    (hpos : 0 < l.size) (hsize : l.size < 2 ^ 63) {c : Nat} (hc : c < l.shape.channels) :
    l.channelIndices c = .ok (l.channelOffsets c) := by
  have hpadded := paddedChannels_le_size hpos
  have hchannels := l.channels_le
  have hwords : demandWords (l.channelFactor c :: l.factors) = .ok () := by
    refine demandWords_eq_ok_iff.mpr (List.forall_mem_cons.mpr ⟨?_, ?_⟩)
    · exact channelFactor_holds_of_lt (by omega)
    · exact demandWords_eq_ok_iff.mp (demandWords_factors (paddedChannels_pos hpos) (by omega))
  have hwrap : (l.channelOffsets c).map IntegerType.int64.wrap = l.channelOffsets c := by
    refine (List.map_congr_left fun i hi => ?_).trans (List.map_id _)
    obtain ⟨x, hx, rfl⟩ := List.mem_map.mp hi
    exact wrap_offset hsize (holds_of_mem_positions (Shape.inChannel_mem_positions hx hc))
  simp only [channelIndices, hsites, hwords, ok_bind, pure_eq_ok, hwrap]

/-- Of a layout with places, fewer than the words, the padding can only lack its table. -/
theorem demandPadding_eq_arrayTooLarge {l : Layout} (hpos : 0 < l.size) (hsize : l.size < 2 ^ 63)
    (h : l.demandPadding ≠ .ok ()) : l.demandPadding = misuse .arrayTooLarge := by
  have hpadded := paddedChannels_le_size hpos
  have hchannels := l.channels_le
  have hwords : demandWords [(l.shape.channels : Int)] = .ok () := by
    refine demandWords_eq_ok_iff.mpr fun n hn => ?_
    rw [List.mem_singleton.mp hn]
    exact int64_holds_of_lt (by omega) (by omega)
  have hfactors := demandWords_factors (paddedChannels_pos hpos) (by omega)
  by_cases htable : BatchNorm.demandTable [l.shape.batch, l.paddedChannels - l.shape.channels,
      l.shape.depth, l.shape.height, l.shape.width] = .ok ()
  · refine absurd ?_ h
    simp only [demandPadding, demandPaddingCells, htable, hwords, hfactors, ok_bind]
  · have hfails := demandBytes_eq_misuse htable
    simp only [demandPadding, demandPaddingCells]
    show ((Buffer.demandBytes _ >>= _) >>= _) = _
    rw [hfails]
    rfl

/-- A countable layout with room for a channel has the list of its positions. -/
theorem Countable.demandPositions {l : Layout} (h : l.Countable) (hpos : 0 < l.paddedChannels) :
    l.demandPositions = .ok () := by
  have hpadded := h.paddedChannels_lt
  have htable : BatchNorm.demandTable l.shape.dims = .ok () := h.demandTable l.channels_le
  simp only [Layout.demandPositions, htable, demandWords_factors hpos (by omega), ok_bind]

/-- The table of the sites is smaller than one of positions, which has an axis more. -/
theorem demandSites_of_demandTable {l : Layout} {channels : Nat}
    (h : BatchNorm.demandTable
      [l.shape.batch, channels, l.shape.depth, l.shape.height, l.shape.width] = .ok ()) :
    l.demandSites = .ok () := by
  have hpositions := (demandTable_eq_ok_iff rfl).mp h
  refine demandBytes_eq_ok_iff.mpr (lt_of_le_of_lt ?_ hpositions)
  have hchannels : 1 ≤ max 1 channels := Nat.le_max_left 1 _
  rw [foldl_filter_ne_zero]
  simp only [ElementType.bytes, IntegerType.int64, List.map_cons, List.map_nil, List.prod_cons,
    List.prod_nil, List.length_cons, List.length_nil]
  calc _ = 32 * (max 1 l.shape.batch *
          (1 * (max 1 l.shape.depth * (max 1 l.shape.height * (max 1 l.shape.width * 1))))) := by
        norm_num
        ring
    _ ≤ _ := by gcongr; norm_num

theorem Countable.demandSites {l : Layout} (h : l.Countable) : l.demandSites = .ok () :=
  demandSites_of_demandTable (h.demandTable l.channels_le)

/-- Where the table of the sites does not exist, neither do their coordinates. -/
theorem siteColumns_eq_arrayTooLarge {l : Layout} (h : l.demandSites ≠ .ok ()) :
    l.siteColumns = misuse .arrayTooLarge := by
  have hfails : l.demandSites = misuse .arrayTooLarge := demandBytes_eq_misuse h
  rw [siteColumns, hfails]
  rfl

theorem Countable.demandPadding {l : Layout} (h : l.Countable) (hpos : 0 < l.paddedChannels) :
    l.demandPadding = .ok () := by
  have hchannels := l.channels_le
  have hpadded := h.paddedChannels_lt
  have hwords : demandWords [(l.shape.channels : Int)] = .ok () := by
    refine demandWords_eq_ok_iff.mpr fun n hn => ?_
    rw [List.mem_singleton.mp hn]
    exact int64_holds_of_lt (by omega) (by omega)
  simp only [Layout.demandPadding, demandPaddingCells,
    h.demandTable (Nat.sub_le l.paddedChannels l.shape.channels), hwords,
    demandWords_factors hpos (by omega), ok_bind]

theorem Countable.paddable {l : Layout} (h : l.Countable) : l.Paddable := by
  intro hpadding
  have hlt : l.shape.channels < l.paddedChannels := of_decide_eq_true hpadding
  exact h.demandPadding (by omega)

/-- A layout of which five words for each place can be counted has both lists. -/
theorem indices_exist {l : Layout} (hsize : 0 < l.size) (hwords : 40 * l.size < 2 ^ 63) :
    (∃ logical, l.logicalIndices = .ok logical) ∧ ∃ padding, l.paddingIndices = .ok padding := by
  have hcountable := countable_of_size_pos hsize hwords
  have hpos := paddedChannels_pos hsize
  constructor
  · exact ⟨_, logicalIndices_eq_ok (hcountable.demandPositions hpos) hcountable.size_lt⟩
  · exact ⟨_, paddingIndices_eq_ok (hcountable.demandPadding hpos) hcountable.size_lt⟩

/-- **Offsets number the memory.** On the positions that a layout holds, the
offset increases with the coordinates in the order of memory, stays in the
buffer, and takes each place of it once; the offsets of the tensor and of its
padding are the places of the buffer, each once. The same goes for the lists of
indices in words of 64 bits wherever both exist, and they exist if five words
for each place can be counted. -/
theorem offset_numbers_memory (l : Layout) :
    (∀ p q, l.Holds p → l.Holds q → (l.offset p < l.offset q ↔ l.axes p < l.axes q)) ∧
    (∀ p, l.Holds p → 0 ≤ l.offset p ∧ l.offset p < l.size) ∧
    (∀ i : Int, 0 ≤ i → i < l.size → ∃! p, l.Holds p ∧ l.offset p = i) ∧
    (l.logicalOffsets ++ l.paddingOffsets).Perm l.places ∧
    (∀ logical padding, l.logicalIndices = .ok logical → l.paddingIndices = .ok padding →
      (logical ++ padding).Perm l.places) ∧
    (0 < l.size → 40 * l.size < 2 ^ 63 →
      (∃ logical, l.logicalIndices = .ok logical) ∧
        ∃ padding, l.paddingIndices = .ok padding) := by
  refine ⟨fun p q hp hq => offset_lt_offset_iff hp hq,
    fun p hp => ⟨offset_nonneg hp, offset_lt_size hp⟩, ?_, l.offsets_perm, ?_,
    fun hsize hwords => indices_exist hsize hwords⟩
  · intro i h0 h
    obtain ⟨p, hp, hi⟩ := exists_offset_eq h0 h
    exact ⟨p, ⟨hp, hi⟩, fun q hq => offset_injective hq.1 hp (hq.2.trans hi.symm)⟩
  · intro logical padding hlog hpad
    obtain ⟨rfl, rfl⟩ := indices_eq_offsets hlog hpad
    exact l.offsets_perm

/-- Three samples with room for `2 ^ 62` channels each. -/
def wide : Layout :=
  { dense ⟨3, 1, 1, 1, 1⟩ with
    paddedChannels := 2 ^ 62
    channels_le := by decide
    block_dvd := nofun }

/-- The list of the tensor alone may exist and leave the buffer: the place of the
third sample, `2 ^ 63`, is no word. The list of the padding is too long to exist. -/
theorem wide_logicalIndices :
    wide.logicalIndices = .ok [0, 2 ^ 62, -2 ^ 63] ∧ (-2 ^ 63 : Int) ∉ wide.places ∧
      (2 ^ 63 : Int) ∈ wide.places ∧ wide.paddingIndices.isOk = false := by
  refine ⟨rfl, fun h => ?_, mem_places.mpr ⟨by decide, by decide⟩, rfl⟩
  exact absurd (mem_places.mp h).1 (by decide)

end Layout

end BatchNorm
