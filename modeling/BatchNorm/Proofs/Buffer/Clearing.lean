import BatchNorm.Proofs.Buffer.RoundTrip
import BatchNorm.Proofs.Comparison.Listing
import BatchNorm.Proofs.Numeric.Monotone

/-!
# Clearing the padding

Clearing writes zeros at the places of the padding, and checking reads these places. Both
compute the places for themselves. Within the limits of words they are the offsets of the
positions in the padding, and the last place of the buffer is among them, so both fail for
exactly the same buffers: those that are too short. On the others clearing leaves every
other place as it is (`Layout.Cleared`), and the check lists the places that clearing
changes in value (`Layout.NonzeroAt`, `padding_cleared_and_checked`). Beyond the limits a
place may wrap, or the table of the positions may not exist (`wrapped_padding`).
-/

set_option autoImplicit false

namespace BatchNorm

open Exact

/-! ## Zeros -/

namespace ElementType

/-- An element is read as a zero if it is one. -/
theorem toFloat_beq_zero (t : ElementType) (x : t.Carrier) :
    (t.toFloat x == 0) = (t.exact x).isZero := by
  rw [Float.beq_zero]
  cases t with
  | float32 => exact isZero_widen x
  | float64 => rfl
  | integer type => exact isZero_toFloat_ofInt (type.toInt x)
  | bool => cases x <;> rfl

theorem exact_zero (t : ElementType) : t.exact t.zero = .zero .positive := by
  cases t with
  | float32 => exact converted_zero .binary32 .positive
  | float64 => exact converted_zero .binary64 .positive
  | integer type =>
      have hzero : type.toInt (type.ofInt 0) = 0 := by simp [IntegerType.toInt, IntegerType.ofInt]
      exact congrArg Exact.ofInt hzero
  | bool => rfl

end ElementType

/-! ## Places outside -/

namespace Buffer

variable {b : Buffer} {i : Int} {indices : List Int}

theorem place_eq_misuse {size : Nat} (h : size ≤ i) : place size i = misuse .indexOutside := by
  rw [place, dif_neg (by omega), dif_neg (by omega)]

theorem write_eq_misuse {x : b.type.Carrier} (h : b.size ≤ i) :
    b.write i x = misuse .indexOutside := by
  have hplace : place b.values.size i = misuse .indexOutside := place_eq_misuse h
  rw [write, hplace]
  rfl

theorem readFloat_eq_misuse (h : b.size ≤ i) : b.readFloat i = misuse .indexOutside := by
  have hplace : place b.values.size i = misuse .indexOutside := place_eq_misuse h
  rw [readFloat, read, hplace]
  rfl

/-- Clearing fails at the first place outside. -/
theorem clear_eq_misuse (hnonneg : ∀ i ∈ indices, 0 ≤ i) (houtside : ∃ i ∈ indices, b.size ≤ i) :
    b.clear indices = misuse .indexOutside := by
  induction indices generalizing b with
  | nil =>
      obtain ⟨_, hi, _⟩ := houtside
      cases hi
  | cons i indices ih =>
      obtain ⟨hi0, hrest⟩ := List.forall_mem_cons.mp hnonneg
      rw [clear, List.foldlM_cons]
      by_cases hi : b.size ≤ i
      · rw [write_eq_misuse hi]
        rfl
      · -- the first place is written, which leaves the size as it is
        have hlater := ((List.exists_mem_cons_iff _ _ _).mp houtside).resolve_left hi
        rw [write_eq_ok ⟨hi0, not_le.mp hi⟩, ok_bind]
        apply ih (b := b.set i b.type.zero) hrest
        rwa [size_set]

/-- So does gathering. -/
theorem gatherFloats_eq_misuse (hnonneg : ∀ i ∈ indices, 0 ≤ i)
    (houtside : ∃ i ∈ indices, b.size ≤ i) : b.gatherFloats indices = misuse .indexOutside := by
  induction indices with
  | nil =>
      obtain ⟨_, hi, _⟩ := houtside
      cases hi
  | cons i indices ih =>
      obtain ⟨hi0, hrest⟩ := List.forall_mem_cons.mp hnonneg
      rw [gatherFloats, List.mapM_cons]
      by_cases hi : b.size ≤ i
      · rw [readFloat_eq_misuse hi]
        rfl
      · have hlater := ((List.exists_mem_cons_iff _ _ _).mp houtside).resolve_left hi
        have hfails : indices.mapM b.readFloat = misuse .indexOutside := ih hrest hlater
        rw [readFloat_eq_ok ⟨hi0, not_le.mp hi⟩, ok_bind, hfails]
        rfl

end Buffer

/-! ## Flat arrays -/

namespace Tensor

/-- A row of a flat array is one element. -/
theorem fillRow_ofBuffer (b : Buffer) (i : Int) :
    (do return (ofBuffer b).fillRow (← (ofBuffer b).row i) b.type.zero) =
      ofBuffer <$> b.write i b.type.zero := by
  have hrow : (ofBuffer b).row i = (do return (← Buffer.place b.values.size i).val) := rfl
  rw [hrow, Buffer.write]
  cases Buffer.place b.values.size i with
  | error e => rfl
  | ok place =>
      have hset : b.values.set place b.type.zero = b.values.setIfInBounds place b.type.zero := by
        simp only [Array.setIfInBounds, place.isLt, dif_pos]
      have hfill : (ofBuffer b).fillRow place b.type.zero = ofBuffer (b.set place b.type.zero) := by
        show Tensor.mk [b.size] ⟨b.type, b.values.setIfInBounds (place * 1 + 0) b.type.zero⟩ =
          Tensor.mk [(b.set place b.type.zero).size] (b.set place b.type.zero)
        rw [Buffer.size_set, Nat.mul_one]
        rfl
      simp only [ok_bind, pure_eq_ok, map_ok, hset]
      exact congrArg Except.ok hfill

/-- Clearing a flat array is clearing its buffer. -/
theorem clear_ofBuffer (b : Buffer) (indices : List Int) :
    (ofBuffer b).clear indices = ofBuffer <$> b.clear indices := by
  rw [clear, if_neg (by simp [ofBuffer])]
  induction indices generalizing b with
  | nil => rfl
  | cons i indices ih =>
      rw [List.foldlM_cons, Buffer.clear, List.foldlM_cons]
      show ((do return (ofBuffer b).fillRow (← (ofBuffer b).row i) b.type.zero) >>= _) = _
      rw [fillRow_ofBuffer]
      cases b.write i b.type.zero with
      | error e => rfl
      | ok written => exact ih written

end Tensor

/-! ## The padding -/

namespace Layout

variable {l : Layout} {b : Buffer} {p : Position}

/-- The positions in the padding: the memory has room for them, and the tensor has no
channel for them. -/
structure InPadding (l : Layout) (p : Position) : Prop where
  holds : l.Holds p
  beyond : l.shape.channels ≤ p.c

theorem mem_paddingPositions : p ∈ l.paddingPositions ↔ l.InPadding p := by
  have hle := l.channels_le
  rw [paddingPositions, Shape.mem_cells]
  constructor
  · rintro ⟨hn, hc, hd, hh, hw⟩
    exact ⟨⟨hn, ⟨by omega, by omega⟩, hd, hh, hw⟩, hc.1⟩
  · rintro ⟨⟨hn, hc, hd, hh, hw⟩, hbeyond⟩
    exact ⟨hn, ⟨hbeyond, by omega⟩, hd, hh, hw⟩

theorem InPadding.hasPadding (h : l.InPadding p) : l.hasPadding = true := by
  obtain ⟨hholds, hbeyond⟩ := h
  have hlt := hholds.c.2
  exact decide_eq_true (by omega)

/-- The last position of a layout with padding is in the padding. -/
theorem inPadding_last (hpad : l.hasPadding = true) (hsize : 0 < l.size) : l.InPadding l.last := by
  have hchannels : l.shape.channels < l.paddedChannels := of_decide_eq_true hpad
  have hextents : (0 < l.shape.batch ∧ 0 < l.paddedChannels) ∧
      (0 < l.shape.depth ∧ 0 < l.shape.height) ∧ 0 < l.shape.width := by
    simpa only [size, Shape.spatialSize, CanonicallyOrderedAdd.mul_pos] using hsize
  obtain ⟨⟨hn, hc⟩, ⟨hd, hh⟩, hw⟩ := hextents
  refine ⟨⟨?_, ?_, ?_, ?_, ?_⟩, ?_⟩ <;> simp only [last] <;> omega

/-- A buffer that is too short for a layout with padding lacks a place of the padding. -/
theorem exists_padding_outside (hpad : l.hasPadding = true) (hshort : b.size < l.size) :
    ∃ i ∈ l.paddingOffsets, b.size ≤ i := by
  have hlast := inPadding_last hpad (by omega)
  refine ⟨l.offset l.last, List.mem_map_of_mem (mem_paddingPositions.mpr hlast), ?_⟩
  rw [offset_last]
  omega

theorem paddingOffsets_nonneg : ∀ i ∈ l.paddingOffsets, 0 ≤ i := by
  intro i hi
  obtain ⟨p, hp, rfl⟩ := List.mem_map.mp hi
  exact offset_nonneg (holds_of_mem_padding hp)

end Layout

/-- Within the limits of words a flat array is cleared as its buffer is. -/
theorem Held.clearPadding_ofBuffer {l : Layout} (hwords : l.PaddingInWords)
    (hpad : l.hasPadding = true) (b : Buffer) :
    clearPadding (some (.ofBuffer b)) l =
      (some ∘ Tensor.ofBuffer) <$> b.clear l.paddingOffsets := by
  rw [clearPadding, if_pos hpad, hwords.paddingIndices hpad, ok_bind]
  show ((Tensor.ofBuffer b).clear l.paddingOffsets >>= _) = _
  rw [Tensor.clear_ofBuffer]
  cases b.clear l.paddingOffsets with
  | error e => rfl
  | ok cleared => rfl

theorem Held.clearPadding_of_not_hasPadding {l : Layout} (h : l.hasPadding = false) (held : Held) :
    clearPadding held l = .ok held := by
  rw [clearPadding, h]
  rfl

/-- A check of a flat array is one of its buffer. -/
theorem Held.paddingMismatches_ofBuffer {l : Layout} (b : Buffer) (quantity : String)
    (limit : Option Int) : paddingMismatches (some (.ofBuffer b)) quantity l limit =
      BatchNorm.paddingMismatches quantity b l limit := by
  rw [paddingMismatches]
  show (BatchNorm.paddingMismatches quantity b l limit >>= _) = _
  cases BatchNorm.paddingMismatches quantity b l limit with
  | error e => rfl
  | ok found => rfl

namespace Layout

variable {l : Layout} {b : Buffer} {p : Position}

/-- A buffer lacks a place of the padding: there is padding, and the buffer is shorter than
the layout. -/
def LacksPadding (l : Layout) (b : Buffer) : Prop := l.hasPadding = true ∧ b.size < l.size

theorem LacksPadding.clearPadding (h : l.LacksPadding b) (hwords : l.PaddingInWords) :
    Held.clearPadding (some (.ofBuffer b)) l = misuse .indexOutside := by
  obtain ⟨hpad, hshort⟩ := h
  have hclear : b.clear l.paddingOffsets = misuse .indexOutside :=
    Buffer.clear_eq_misuse paddingOffsets_nonneg (exists_padding_outside hpad hshort)
  rw [Held.clearPadding_ofBuffer hwords hpad, hclear]
  rfl

theorem LacksPadding.paddingMismatches (h : l.LacksPadding b) (hwords : l.PaddingInWords)
    (quantity : String) (limit : Option Int) :
    BatchNorm.paddingMismatches quantity b l limit = misuse .indexOutside := by
  obtain ⟨hpad, hshort⟩ := h
  rw [BatchNorm.paddingMismatches, if_pos hpad, hwords.paddingCells hpad, ok_bind,
    hwords.paddingIndices hpad, ok_bind, nonzeroPadding,
    Buffer.gatherFloats_eq_misuse paddingOffsets_nonneg (exists_padding_outside hpad hshort)]
  rfl

/-! ## Clearing -/

/-- The elements of a buffer after its padding was cleared: zeros at the places of the
padding, and the elements that were there at all others. -/
structure Cleared (l : Layout) (b : Buffer) (values : Array b.type.Carrier) : Prop where
  size : values.size = b.size
  padding : ∀ p, l.InPadding p → values[(l.offset p).toNat]? = some b.type.zero
  tensor : ∀ p ∈ l.shape.positions, values[(l.offset p).toNat]? = b.values[(l.offset p).toNat]?
  beyond : ∀ k, l.size ≤ k → values[k]? = b.values[k]?

/-- A place of the memory is that of a position of the tensor or of its padding. -/
theorem exists_position_at {k : Nat} (hk : k < l.size) :
    ∃ p, (p ∈ l.shape.positions ∨ l.InPadding p) ∧ (l.offset p).toNat = k := by
  obtain ⟨p, hp, hoffset⟩ := exists_position_of_mem_places (l := l) (i := k)
    (mem_places.mpr ⟨Int.natCast_nonneg k, by exact_mod_cast hk⟩)
  exact ⟨p, hp.imp_right mem_paddingPositions.mp, by rw [hoffset, Int.toNat_natCast]⟩

/-- Clearing determines every element. -/
theorem Cleared.unique {xs ys : Array b.type.Carrier} (hx : l.Cleared b xs) (hy : l.Cleared b ys) :
    xs = ys := by
  apply Array.ext_getElem?
  intro k
  by_cases hk : k < l.size
  · obtain ⟨p, hp, rfl⟩ := exists_position_at hk
    rcases hp with hp | hp
    · rw [hx.tensor p hp, hy.tensor p hp]
    · rw [hx.padding p hp, hy.padding p hp]
  · rw [hx.beyond k (not_lt.mp hk), hy.beyond k (not_lt.mp hk)]

theorem Cleared.again {values : Array b.type.Carrier} (h : l.Cleared b values) :
    l.Cleared ⟨b.type, values⟩ values where
  size := rfl
  padding := h.padding
  tensor _ _ := rfl
  beyond _ _ := rfl

theorem cleared_of_not_hasPadding (h : l.hasPadding = false) : l.Cleared b b.values where
  size := rfl
  padding p hp := by
    rw [hp.hasPadding] at h
    cases h
  tensor _ _ := rfl
  beyond _ _ := rfl

/-- A place that no position in the padding has keeps its element. -/
theorem getElem?_store_padding {k : Nat} (h : ∀ q, l.InPadding q → (l.offset q).toNat ≠ k) :
    (store b.values (l.paddingOffsets.map (·, b.type.zero)))[k]? = b.values[k]? := by
  apply getElem?_store_of_forall_ne
  intro entry hentry
  obtain ⟨i, hi, rfl⟩ := List.mem_map.mp hentry
  obtain ⟨q, hq, rfl⟩ := List.mem_map.mp hi
  exact h q (mem_paddingPositions.mp hq)

theorem cleared_store (hsize : l.size ≤ b.size) :
    l.Cleared b (store b.values (l.paddingOffsets.map (·, b.type.zero))) where
  size := size_store
  padding p hp := by
    have hmem := mem_paddingPositions.mpr hp
    apply getElem?_store_of_mem (inside_of_holds hsize hp.holds).toNat_lt
    · exact ⟨_, List.mem_map_of_mem (List.mem_map_of_mem hmem), rfl⟩
    · intro entry hentry _
      obtain ⟨i, _, rfl⟩ := List.mem_map.mp hentry
      rfl
  tensor p hp := by
    apply getElem?_store_padding
    intro q hq hplace
    have hpnonneg := offset_nonneg (holds_of_mem_positions hp)
    have hqnonneg := offset_nonneg hq.holds
    exact offset_ne_of_mem_padding hp (mem_paddingPositions.mpr hq) (by omega)
  beyond k hk := by
    apply getElem?_store_padding
    intro q hq hplace
    have hnonneg := offset_nonneg hq.holds
    have hlt := offset_lt_size hq.holds
    omega

/-- Where no place of the padding is lacking, clearing does not fail. -/
theorem exists_cleared (hwords : l.PaddingInWords) (h : ¬ l.LacksPadding b) :
    ∃ values, Held.clearPadding (some (.ofBuffer b)) l = .ok (some (.ofBuffer ⟨b.type, values⟩)) ∧
      l.Cleared b values := by
  by_cases hpad : l.hasPadding = true
  · have hsize : l.size ≤ b.size := not_lt.mp fun hshort => h ⟨hpad, hshort⟩
    refine ⟨_, ?_, cleared_store hsize⟩
    rw [Held.clearPadding_ofBuffer hwords hpad,
      Buffer.clear_eq_ok (inside_of_mem_paddingOffsets hsize)]
    rfl
  · have hnone := Bool.eq_false_iff.mpr hpad
    exact ⟨b.values, Held.clearPadding_of_not_hasPadding hnone _, cleared_of_not_hasPadding hnone⟩

theorem Cleared.not_lacksPadding {values : Array b.type.Carrier} (hcleared : l.Cleared b values)
    (h : ¬ l.LacksPadding b) : ¬ l.LacksPadding ⟨b.type, values⟩ := by
  rintro ⟨hpad, hshort⟩
  have hsize : values.size < l.size := hshort
  exact h ⟨hpad, by rwa [← hcleared.size]⟩

/-- Clearing a second time changes nothing. -/
theorem Cleared.clearPadding {values : Array b.type.Carrier} (hcleared : l.Cleared b values)
    (hwords : l.PaddingInWords) (h : ¬ l.LacksPadding b) :
    Held.clearPadding (some (.ofBuffer ⟨b.type, values⟩)) l =
      .ok (some (.ofBuffer ⟨b.type, values⟩)) := by
  obtain ⟨values', hclear, hcleared'⟩ := exists_cleared hwords (hcleared.not_lacksPadding h)
  have hsame : values' = values := hcleared'.unique hcleared.again
  rw [hclear, hsame]

/-! ## Checking -/

/-- The positions in the padding where a buffer differs from zero, each once, in the order
of their coordinates. A NaN differs from zero, a negative zero does not. -/
structure NonzeroAt (l : Layout) (b : Buffer) (cells : List Position) : Prop where
  ascending : cells.Pairwise fun p q => p.toList < q.toList
  mem_iff : ∀ p, p ∈ cells ↔
    l.InPadding p ∧ (b.type.exact (b.element (l.offset p))).isZero = false

theorem nonzeroAt_filter (l : Layout) (b : Buffer) :
    l.NonzeroAt b (l.paddingPositions.filter fun p => b.floatAt (l.offset p) != 0) where
  ascending := (Shape.cells_sorted _ _ _).sublist List.filter_sublist
  mem_iff p := by
    rw [List.mem_filter, mem_paddingPositions, bne, Buffer.floatAt,
      ElementType.toFloat_beq_zero, Bool.not_eq_true']

/-- Where no place of the padding is lacking, the check lists those that are not zero. -/
theorem exists_nonzeroAt (hwords : l.PaddingInWords) (h : ¬ l.LacksPadding b)
    (quantity : String) :
    ∃ cells, l.NonzeroAt b cells ∧ ∀ limit, paddingMismatches quantity b l limit =
      .ok (upTo limit (cells.map fun p => .ofPadding quantity p (b.floatAt (l.offset p)))) := by
  refine ⟨_, l.nonzeroAt_filter b, fun limit => ?_⟩
  by_cases hpad : l.hasPadding = true
  · exact paddingMismatches_eq hwords (not_lt.mp fun hshort => h ⟨hpad, hshort⟩)
  · have hnone := paddingPositions_eq_nil (Bool.eq_false_iff.mpr hpad)
    rw [paddingMismatches, if_neg hpad, hnone, List.filter_nil, List.map_nil, upTo_nil, pure_eq_ok]

/-- Two arrays hold the same numbers: at each place the same element, or elements that are
equal as numbers. -/
def SameNumbers (type : ElementType) (xs ys : Array type.Carrier) : Prop :=
  ∀ (k : Nat) (x y : type.Carrier), xs[k]? = some x → ys[k]? = some y →
    x = y ∨ (type.exact x).beq (type.exact y) = true

theorem element_of_getElem? {i : Int} {x : b.type.Carrier} (h : b.values[i.toNat]? = some x) :
    b.element i = x := by
  rw [Buffer.element, Array.getD_eq_getD_getElem?, h, Option.getD_some]

/-- Nothing is listed if clearing changes no number. -/
theorem NonzeroAt.eq_nil_iff {cells : List Position} {values : Array b.type.Carrier}
    (hcells : l.NonzeroAt b cells) (hcleared : l.Cleared b values) :
    cells = [] ↔ SameNumbers b.type b.values values := by
  constructor
  · rintro rfl k x y hx hy
    -- clearing writes in the padding only, and there every number is a zero
    by_cases hk : k < l.size
    · obtain ⟨p, hp, rfl⟩ := exists_position_at hk
      rcases hp with hp | hp
      · rw [hcleared.tensor p hp, hx] at hy
        exact Or.inl (Option.some.inj hy)
      · rw [hcleared.padding p hp] at hy
        have hzero : (b.type.exact x).isZero = true := by
          rw [← element_of_getElem? hx]
          by_contra hnonzero
          exact List.not_mem_nil ((hcells.mem_iff p).mpr ⟨hp, Bool.eq_false_iff.mpr hnonzero⟩)
        right
        rw [← Option.some.inj hy, ElementType.exact_zero, Exact.beq_zero, hzero]
    · rw [hcleared.beyond k (not_lt.mp hk), hx] at hy
      exact Or.inl (Option.some.inj hy)
  · intro hsame
    apply List.eq_nil_iff_forall_not_mem.mpr
    intro p hp
    obtain ⟨hpad, hnonzero⟩ := (hcells.mem_iff p).mp hp
    have hafter := hcleared.padding p hpad
    obtain ⟨x, hx⟩ : ∃ x, b.values[(l.offset p).toNat]? = some x := by
      have hlt := (Array.getElem?_eq_some_iff.mp hafter).1
      rw [hcleared.size] at hlt
      exact ⟨_, Array.getElem?_eq_getElem hlt⟩
    rw [element_of_getElem? hx] at hnonzero
    rcases hsame _ x _ hx hafter with rfl | hequal
    · rw [ElementType.exact_zero] at hnonzero
      cases hnonzero
    · rw [ElementType.exact_zero, Exact.beq_zero, hnonzero] at hequal
      cases hequal

/-- A cleared buffer has nothing to be listed. -/
theorem Cleared.paddingMismatches {values : Array b.type.Carrier} (hcleared : l.Cleared b values)
    (hwords : l.PaddingInWords) (h : ¬ l.LacksPadding b) (quantity : String)
    (limit : Option Int) :
    BatchNorm.paddingMismatches quantity ⟨b.type, values⟩ l limit = .ok [] := by
  obtain ⟨cells, hcells, hfound⟩ := exists_nonzeroAt hwords (hcleared.not_lacksPadding h) quantity
  have hsame : SameNumbers b.type values values := fun k x y hx hy =>
    Or.inl (Option.some.inj (hx.symm.trans hy))
  have hnil : cells = [] := (hcells.eq_nil_iff hcleared.again).mpr hsame
  rw [hfound, hnil, List.map_nil, upTo_nil]

/-! ## The limits of words -/

theorem Countable.paddingInWords (h : l.Countable) : l.PaddingInWords :=
  h.paddable.inWords h.size_lt

end Layout

/-! ## Held arrays -/

namespace Held

open Layout

variable {l : Layout}

/-- Where the table of the padding does not exist, clearing and checking are a misuse. -/
theorem clearPadding_eq_misuse {cause : Misuse} (hpad : l.hasPadding = true)
    (h : l.demandPadding = misuse cause) (held : Held) :
    clearPadding held l = misuse cause := by
  rw [clearPadding, if_pos hpad, paddingIndices_eq_misuse h]
  rfl

theorem paddingMismatches_eq_misuse {cause : Misuse} (hpad : l.hasPadding = true)
    (h : l.demandPadding = misuse cause) (held : Held) (quantity : String)
    (limit : Option Int) : paddingMismatches held quantity l limit = misuse cause := by
  rw [paddingMismatches, BatchNorm.paddingMismatches_eq_misuse hpad h]
  rfl

end Held

namespace Layout

/-- **Clearing and checking the padding** agree. Within the limits of words both fail for
the buffers that lack a place of the padding; on all others neither does. Clearing then
sets the places of the padding to zero and no other place, it does so once and for all, and
there is nothing to be listed after it. The check lists the positions in the padding where
the buffer differs from zero, with what is stored there, in order and up to the limit; that
is nothing if clearing changes no number. Without the table of the padding both are a
misuse. Countable layouts are within the limits. -/
theorem padding_cleared_and_checked (l : Layout) (b : Buffer) (quantity : String) :
    (l.PaddingInWords →
      (l.LacksPadding b →
        Held.clearPadding (some (.ofBuffer b)) l = misuse .indexOutside ∧
        ∀ limit, Held.paddingMismatches (some (.ofBuffer b)) quantity l limit =
          misuse .indexOutside) ∧
      (¬ l.LacksPadding b → ∃ (values : Array b.type.Carrier) (cells : List Position),
        Held.clearPadding (some (.ofBuffer b)) l = .ok (some (.ofBuffer ⟨b.type, values⟩)) ∧
        l.Cleared b values ∧
        Held.clearPadding (some (.ofBuffer ⟨b.type, values⟩)) l =
          .ok (some (.ofBuffer ⟨b.type, values⟩)) ∧
        (∀ limit, Held.paddingMismatches (some (.ofBuffer ⟨b.type, values⟩)) quantity l limit =
          .ok []) ∧
        l.NonzeroAt b cells ∧
        (∀ limit, Held.paddingMismatches (some (.ofBuffer b)) quantity l limit =
          .ok (upTo limit (cells.map fun p => .ofPadding quantity p (b.floatAt (l.offset p))))) ∧
        (Held.paddingMismatches (some (.ofBuffer b)) quantity l none = .ok [] ↔
          SameNumbers b.type b.values values))) ∧
    (l.hasPadding = true → l.demandPadding ≠ .ok () → ∃ cause, TooLarge cause ∧
      Held.clearPadding (some (.ofBuffer b)) l = misuse cause ∧
      ∀ limit, Held.paddingMismatches (some (.ofBuffer b)) quantity l limit = misuse cause) ∧
    (l.Countable → l.PaddingInWords) := by
  refine ⟨fun hwords => ⟨fun hlacks => ⟨?_, fun limit => ?_⟩, fun hlong => ?_⟩,
    fun hpad hdemand => ?_, Countable.paddingInWords⟩
  · exact hlacks.clearPadding hwords
  · rw [Held.paddingMismatches_ofBuffer, hlacks.paddingMismatches hwords]
  · obtain ⟨values, hclear, hcleared⟩ := exists_cleared hwords hlong
    obtain ⟨cells, hcells, hfound⟩ := exists_nonzeroAt hwords hlong quantity
    refine ⟨values, cells, hclear, hcleared, hcleared.clearPadding hwords hlong,
      fun limit => ?_, hcells, fun limit => ?_, ?_⟩
    · rw [Held.paddingMismatches_ofBuffer, hcleared.paddingMismatches hwords hlong]
    · rw [Held.paddingMismatches_ofBuffer, hfound]
    · rw [Held.paddingMismatches_ofBuffer, hfound, ← hcells.eq_nil_iff hcleared,
        Except.ok.injEq, upTo, List.map_eq_nil_iff]
  · obtain ⟨cause, hcause, hmisuse⟩ := l.checksWords_demandPadding.exists_misuse hdemand
    exact ⟨cause, hcause, Held.clearPadding_eq_misuse hpad hmisuse _,
      Held.paddingMismatches_eq_misuse hpad hmisuse _ quantity⟩

/-- Eight bytes in blocks of two channels, of which the fourth and the last are padding. -/
def eightBytes : Buffer := ⟨.int8, #[1, 2, 3, 4, 5, 6, 7, 0]⟩

/-- The fourth byte is listed, and both are cleared. -/
theorem padding_of_eightBytes :
    twoBlocks.PaddingInWords ∧ ¬ twoBlocks.LacksPadding eightBytes ∧
      (∃ values, Held.clearPadding (some (.ofBuffer eightBytes)) twoBlocks =
        .ok (some (.ofBuffer ⟨.int8, values⟩)) ∧ twoBlocks.Cleared eightBytes values) ∧
      Held.paddingMismatches (some (.ofBuffer eightBytes)) "dst" twoBlocks none =
        .ok [.ofPadding "dst" ⟨0, 3, 0, 0, 0⟩ 4] := by
  obtain ⟨hagree, _, hlimits⟩ := padding_cleared_and_checked twoBlocks eightBytes "dst"
  have hwords : twoBlocks.PaddingInWords := hlimits (by unfold Countable; decide)
  have hlong : ¬ twoBlocks.LacksPadding eightBytes := by
    rintro ⟨_, hshort⟩
    exact absurd hshort (by decide)
  obtain ⟨values, _, hclear, hcleared, _⟩ := (hagree hwords).2 hlong
  refine ⟨hwords, hlong, ⟨values, hclear, hcleared⟩, ?_⟩
  rfl

/-- Four sites with `2 ^ 62` channels, and room for one more. -/
def wrapping : Layout :=
  { dense ⟨1, 2 ^ 62, 1, 1, 4⟩ with
    paddedChannels := 2 ^ 62 + 1
    channels_le := by decide
    block_dvd := nofun }

/-- No samples of a channel, with room for `2 ^ 62`. -/
def vacant : Layout :=
  { dense ⟨0, 1, 1, 1, 1⟩ with
    paddedChannels := 2 ^ 62
    channels_le := by decide
    block_dvd := nofun }

/-- Beyond the limits the padding may wrap to the front: of `wrapping` it starts at
`2 ^ 64`, and clearing overwrites four elements of a buffer that lacks all of the padding.
And though `vacant` has no places, its padding can neither be cleared nor be checked. -/
theorem wrapped_padding :
    wrapping.LacksPadding ⟨.float32, #[1, 2, 3, 4]⟩ ∧
    Held.clearPadding (some (.ofBuffer ⟨.float32, #[1, 2, 3, 4]⟩)) wrapping =
      .ok (some (.ofBuffer ⟨.float32, #[0, 0, 0, 0]⟩)) ∧
    vacant.size = 0 ∧
    Held.clearPadding (some (.ofBuffer ⟨.float32, #[]⟩)) vacant = misuse .arrayTooLarge ∧
    Held.paddingMismatches (some (.ofBuffer ⟨.float32, #[]⟩)) "dst" vacant none =
      misuse .arrayTooLarge :=
  ⟨⟨rfl, by decide⟩, rfl, rfl, rfl, rfl⟩

end Layout

end BatchNorm
