import BatchNorm.Buffer.Transfer
import BatchNorm.Proofs.Layout.Dense
import BatchNorm.Proofs.Outcome

/-!
# Reading buffers and tensors

Where every place is inside, reading is total: `Buffer.element` is the element at
a place, and the reading operations give it (`read_eq_ok`, `gather_eq_ok`, ...). A
tensor has its elements in row-major order, so unpacking a buffer moves the
element at the place of a position to that position (`element_unpacked`).
-/

set_option autoImplicit false

namespace BatchNorm

namespace Buffer

/-- The element at a place, and a zero where there is none. -/
def element (b : Buffer) (i : Int) : b.type.Carrier := b.values.getD i.toNat b.type.zero

/-- The element at a place as a binary64 number. -/
def floatAt (b : Buffer) (i : Int) : Float := b.type.toFloat (b.element i)

/-- The element at a place as a binary32 number. -/
def singleAt (b : Buffer) (i : Int) : Float32 := b.type.toSingle (b.element i)

/-- The places of a buffer. -/
def Inside (b : Buffer) (i : Int) : Prop := 0 ≤ i ∧ i < b.size

variable {b : Buffer}

theorem Inside.toNat_lt {i : Int} (h : b.Inside i) : i.toNat < b.values.size := by
  obtain ⟨h0, hsize⟩ := h
  rw [size] at hsize
  omega

theorem place_eq_ok {i : Int} (h : b.Inside i) :
    place b.values.size i = .ok ⟨i.toNat, h.toNat_lt⟩ := dif_pos h

theorem read_eq_ok {i : Int} (h : b.Inside i) : b.read i = .ok (b.element i) := by
  simp only [read, place_eq_ok h, ok_bind, pure_eq_ok, element]
  rw [Array.getD_eq_getD_getElem?, Array.getElem?_eq_getElem h.toNat_lt, Option.getD_some]
  rfl

theorem readFloat_eq_ok {i : Int} (h : b.Inside i) : b.readFloat i = .ok (b.floatAt i) := by
  simp only [readFloat, read_eq_ok h, ok_bind, pure_eq_ok, floatAt]

theorem gather_eq_ok {indices : List Int} (h : ∀ i ∈ indices, b.Inside i) :
    b.gather indices = .ok (indices.map b.element) :=
  mapM_eq_ok fun i hi => read_eq_ok (h i hi)

theorem gatherFloats_eq_ok {indices : List Int} (h : ∀ i ∈ indices, b.Inside i) :
    b.gatherFloats indices = .ok (indices.map b.floatAt) :=
  mapM_eq_ok fun i hi => readFloat_eq_ok (h i hi)

theorem gatherSingles_eq_ok {indices : List Int} (h : ∀ i ∈ indices, b.Inside i) :
    b.gatherSingles indices = .ok (indices.map b.singleAt) := by
  simp only [gatherSingles, gather_eq_ok h, ok_bind, pure_eq_ok, List.map_map]
  rfl

@[simp] theorem size_ofList (type : ElementType) (xs : List type.Carrier) :
    (ofList type xs).size = xs.length := rfl

theorem element_ofList {type : ElementType} {xs : List type.Carrier} {i : Int} {x : type.Carrier}
    (h : xs[i.toNat]? = some x) : (ofList type xs).element i = x := by
  show xs.toArray.getD i.toNat type.zero = x
  rw [Array.getD_eq_getD_getElem?, List.getElem?_toArray, h, Option.getD_some]

/-- In a buffer that lists a tensor in order, an element is at the dense place of
its position. -/
theorem element_ofPositions {type : ElementType} {s : Shape} {xs : List type.Carrier}
    {f : Position → type.Carrier} (hxs : xs = s.positions.map f) {p : Position}
    (hp : p ∈ s.positions) : (ofList type xs).element ((Layout.dense s).offset p) = f p := by
  refine element_ofList ?_
  rw [hxs, List.getElem?_map, Layout.positions_getElem?_offset hp, Option.map_some]

end Buffer

/-! ## Tensors -/

namespace Tensor

/-- The element of a tensor at a position. -/
def element (t : Tensor) (p : Position) : t.elements.type.Carrier :=
  t.elements.element (MixedRadix.value t.dims p.toList)

/-- The element of a tensor at a position as a binary64 number. -/
def floatAt (t : Tensor) (p : Position) : Float := t.elements.type.toFloat (t.element p)

/-- The element of a tensor at a position as a binary32 number. -/
def singleAt (t : Tensor) (p : Position) : Float32 := t.elements.type.toSingle (t.element p)

end Tensor

namespace Layout

/-- The tensor in a buffer. -/
def unpacked (l : Layout) (b : Buffer) : Tensor :=
  ⟨l.shape.dims, Buffer.ofList b.type (l.logicalOffsets.map b.element)⟩

section

variable {l : Layout} {b : Buffer}

/-- What a layout holds is inside of a buffer that is long enough. -/
theorem inside_of_holds (h : l.size ≤ b.size) {p : Position} (hp : l.Holds p) :
    b.Inside (l.offset p) :=
  ⟨offset_nonneg hp, lt_of_lt_of_le (offset_lt_size hp) (Int.ofNat_le.mpr h)⟩

theorem inside_of_mem_paddingOffsets (h : l.size ≤ b.size) :
    ∀ i ∈ l.paddingOffsets, b.Inside i := by
  intro i hi
  obtain ⟨p, hp, rfl⟩ := List.mem_map.mp hi
  exact inside_of_holds h (holds_of_mem_padding hp)

theorem inside_of_mem_channelOffsets (h : l.size ≤ b.size) {c : Nat} (hc : c < l.shape.channels) :
    ∀ i ∈ l.channelOffsets c, b.Inside i := by
  intro i hi
  obtain ⟨x, hx, rfl⟩ := List.mem_map.mp hi
  exact inside_of_holds h (holds_of_mem_positions (Shape.inChannel_mem_positions hx hc))

theorem unpack_eq_ok (h : l.size ≤ b.size) : l.unpack b = .ok (l.unpacked b) := by
  have hgather : b.gather l.logicalOffsets = .ok (l.logicalOffsets.map b.element) := by
    refine Buffer.gather_eq_ok fun i hi => ?_
    obtain ⟨p, hp, rfl⟩ := List.mem_map.mp hi
    exact inside_of_holds h (holds_of_mem_positions hp)
  simp only [unpack, demandSize, require_eq_ok h, hgather, ok_bind, pure_eq_ok]
  rfl

theorem element_unpacked {p : Position} (hp : p ∈ l.shape.positions) :
    (l.unpacked b).element p = b.element (l.offset p) := by
  have hlist : l.logicalOffsets.map b.element =
      l.shape.positions.map fun p => b.element (l.offset p) := by
    rw [logicalOffsets, List.map_map]
    rfl
  have h := Buffer.element_ofPositions hlist hp
  rwa [offset_dense] at h

theorem floatAt_unpacked {p : Position} (hp : p ∈ l.shape.positions) :
    (l.unpacked b).floatAt p = b.floatAt (l.offset p) :=
  congrArg b.type.toFloat (element_unpacked hp)

theorem singleAt_unpacked {p : Position} (hp : p ∈ l.shape.positions) :
    (l.unpacked b).singleAt p = b.singleAt (l.offset p) :=
  congrArg b.type.toSingle (element_unpacked hp)

end

end Layout

end BatchNorm
