import BatchNorm.Proofs.Buffer.Writing

/-!
# Scattering and gathering

A scatter stores elements at places, one after the other. Where no place gets two
different elements, each place ends with the element that was stored there
(`getElem?_store_of_mem`), or with what it held before. The offsets of a layout are such
places, so packing a tensor is total and pointwise (`packed`), and the buffer is
determined by its elements at the held positions:

* `unpacked_packed`: gathering a scattered tensor gives the tensor.
* `packed_unpacked`: scattering what was gathered from a buffer gives the buffer with
  its padding set to zero (`cleaned`), through whatever other layouts it went.
-/

set_option autoImplicit false

namespace BatchNorm

/-! ## Storing at places -/

/-- The values with elements stored at places, one after the other. -/
def store {α : Type} (values : Array α) (entries : List (Int × α)) : Array α :=
  entries.foldl (fun values entry => values.setIfInBounds entry.1.toNat entry.2) values

section

variable {α : Type} {values : Array α} {entries : List (Int × α)}

theorem store_cons (entry : Int × α) :
    store values (entry :: entries) =
      store (values.setIfInBounds entry.1.toNat entry.2) entries := rfl

@[simp] theorem size_store : (store values entries).size = values.size := by
  induction entries generalizing values with
  | nil => rfl
  | cons entry entries ih => rw [store_cons, ih, Array.size_setIfInBounds]

/-- A place where nothing is stored keeps its value. -/
theorem getElem?_store_of_forall_ne {k : Nat} (h : ∀ entry ∈ entries, entry.1.toNat ≠ k) :
    (store values entries)[k]? = values[k]? := by
  induction entries generalizing values with
  | nil => rfl
  | cons entry entries ih =>
      rw [store_cons, ih fun e he => h e (List.mem_cons_of_mem _ he),
        Array.getElem?_setIfInBounds_ne (h entry List.mem_cons_self)]

/-- A place where one element is stored, once or more often, has that element. -/
theorem getElem?_store_of_mem {k : Nat} {x : α} (hk : k < values.size)
    (hmem : ∃ entry ∈ entries, entry.1.toNat = k)
    (hsame : ∀ entry ∈ entries, entry.1.toNat = k → entry.2 = x) :
    (store values entries)[k]? = some x := by
  induction entries generalizing values with
  | nil =>
      obtain ⟨_, h, _⟩ := hmem
      cases h
  | cons entry entries ih =>
      rw [store_cons]
      have hsame' := fun e he => hsame e (List.mem_cons_of_mem entry he)
      -- the last store at the place counts: it is among the rest, or it is the first one
      by_cases hlater : ∃ e ∈ entries, e.1.toNat = k
      · exact ih (by rwa [Array.size_setIfInBounds]) hlater hsame'
      · obtain ⟨e, he, hek⟩ := hmem
        have hfirst : e = entry := (List.mem_cons.mp he).resolve_right fun h => hlater ⟨e, h, hek⟩
        subst hfirst
        rw [getElem?_store_of_forall_ne fun e' he' hk' => hlater ⟨e', he', hk'⟩, hek,
          Array.getElem?_setIfInBounds_self_of_lt hk, hsame e List.mem_cons_self hek]

/-- Storing at places that are all inside does not fail. -/
theorem foldlM_place_eq_ok (h : ∀ entry ∈ entries, 0 ≤ entry.1 ∧ entry.1 < values.size) :
    entries.foldlM
        (fun (values : Array α) (entry : Int × α) => do
          let place ← Buffer.place values.size entry.1
          return values.set place entry.2)
        values =
      (.ok (store values entries) : Except Failure (Array α)) := by
  induction entries generalizing values with
  | nil => rfl
  | cons entry entries ih =>
      obtain ⟨h0, hsize⟩ := h entry List.mem_cons_self
      have hplace : Buffer.place values.size entry.1 = .ok ⟨entry.1.toNat, by omega⟩ :=
        dif_pos ⟨h0, hsize⟩
      have hset : values.set entry.1.toNat entry.2 (by omega) =
          values.setIfInBounds entry.1.toNat entry.2 := by
        simp only [Array.setIfInBounds, (by omega : entry.1.toNat < values.size), dif_pos]
      rw [List.foldlM_cons]
      simp only [hplace, ok_bind, pure_eq_ok, hset]
      rw [store_cons]
      exact ih fun e he => by
        rw [Array.size_setIfInBounds]
        exact h e (List.mem_cons_of_mem _ he)

end

namespace Buffer

/-- Clearing places that are all inside stores a zero at each of them. -/
theorem clear_eq_ok {b : Buffer} {indices : List Int} (h : ∀ i ∈ indices, b.Inside i) :
    b.clear indices = .ok ⟨b.type, store b.values (indices.map (·, b.type.zero))⟩ := by
  induction indices generalizing b with
  | nil => rfl
  | cons i indices ih =>
      rw [clear, List.foldlM_cons, write_eq_ok (h i List.mem_cons_self), ok_bind]
      refine (ih (b := b.set i b.type.zero) fun j hj => ?_).trans rfl
      have hinside := h j (List.mem_cons_of_mem i hj)
      exact ⟨hinside.1, by rw [size_set]; exact hinside.2⟩

/-- The elements of a buffer with as many of them as a tensor has, in the order of the
positions. -/
theorem toList_eq_map_positions {b : Buffer} {s : Shape} (h : b.size = (Layout.dense s).size) :
    b.values.toList = s.positions.map fun p => b.element ((Layout.dense s).offset p) := by
  have hplaces : s.positions.map (fun p => b.element ((Layout.dense s).offset p)) =
      (Layout.dense s).places.map b.element := by
    rw [← Layout.logicalOffsets_dense, Layout.logicalOffsets, List.map_map]
    rfl
  rw [hplaces, Layout.places, ← h, List.map_map]
  refine List.ext_getElem (by simp [size]) fun k hk _ => ?_
  have hsize : k < b.values.size := by simpa using hk
  simp [element, Array.getD_eq_getD_getElem?, hsize]

end Buffer

namespace Layout

variable {l : Layout}

/-! ## The scattered tensor -/

/-- The element that packing some elements of a tensor puts at a place: that of the
position which has the place, and zero where no position of the tensor has it. -/
def packedAt (l : Layout) (elements : Buffer) (i : Int) : elements.type.Carrier :=
  match l.shape.positions.find? (l.offset · = i) with
  | some p => elements.element ((dense l.shape).offset p)
  | none => elements.type.zero

/-- The buffer that holds some elements of a tensor, with zeros in the padding. -/
def packed (l : Layout) (elements : Buffer) : Buffer :=
  .ofList elements.type (l.places.map (l.packedAt elements))

theorem packedAt_offset {elements : Buffer} {p : Position} (hp : p ∈ l.shape.positions) :
    l.packedAt elements (l.offset p) = elements.element ((dense l.shape).offset p) := by
  have hfind : l.shape.positions.find? (l.offset · = l.offset p) = some p := by
    obtain ⟨q, hq⟩ := Option.isSome_iff_exists.mp
      (List.find?_isSome (p := (l.offset · = l.offset p)) |>.mpr ⟨p, hp, by simp⟩)
    have hoffset : l.offset q = l.offset p := by simpa using List.find?_some hq
    rw [hq, offset_injective (holds_of_mem_positions (List.mem_of_find?_eq_some hq))
      (holds_of_mem_positions hp) hoffset]
  rw [packedAt, hfind]

theorem offset_ne_of_mem_padding {p q : Position} (hp : p ∈ l.shape.positions)
    (hq : q ∈ l.paddingPositions) : l.offset p ≠ l.offset q := fun heq => by
  have hpq := offset_injective (holds_of_mem_positions hp) (holds_of_mem_padding hq) heq
  subst hpq
  have hdisjoint := (List.nodup_append'.mp l.positions_append_padding_nodup).2.2
  exact hdisjoint hp hq

theorem packedAt_padding {elements : Buffer} {p : Position} (hp : p ∈ l.paddingPositions) :
    l.packedAt elements (l.offset p) = elements.type.zero := by
  have hfind : l.shape.positions.find? (l.offset · = l.offset p) = none :=
    List.find?_eq_none.mpr fun q hq => by simpa using offset_ne_of_mem_padding hq hp
  rw [packedAt, hfind]

/-- A place of the buffer is that of a position of the tensor or of its padding. -/
theorem exists_position_of_mem_places {i : Int} (hi : i ∈ l.places) :
    ∃ p, (p ∈ l.shape.positions ∨ p ∈ l.paddingPositions) ∧ l.offset p = i := by
  obtain ⟨h0, hlt⟩ := mem_places.mp hi
  obtain ⟨p, hp, rfl⟩ := exists_offset_eq h0 hlt
  exact ⟨p, (l.holds_iff_mem p).mp hp, rfl⟩

theorem offset_mem_places {p : Position} (hp : l.Holds p) : l.offset p ∈ l.places :=
  mem_places.mpr ⟨offset_nonneg hp, offset_lt_size hp⟩

/-- A buffer that lists its elements at the places has those elements there. -/
theorem element_ofList_places {type : ElementType} {f : Int → type.Carrier} {i : Int}
    (hi : i ∈ l.places) : (Buffer.ofList type (l.places.map f)).element i = f i := by
  obtain ⟨h0, hlt⟩ := mem_places.mp hi
  have hk : i.toNat < l.size := by omega
  refine Buffer.element_ofList ?_
  rw [places, List.map_map, List.getElem?_map, List.getElem?_range hk, Option.map_some]
  exact congrArg (fun j => some (f j)) (Int.toNat_of_nonneg h0)

theorem element_packed {elements : Buffer} {i : Int} (hi : i ∈ l.places) :
    (l.packed elements).element i = l.packedAt elements i := element_ofList_places hi

theorem getElem?_places {k : Nat} (hk : k < l.size) : l.places[k]? = some (k : Int) := by
  rw [places, List.getElem?_map, List.getElem?_range hk]
  rfl

/-- Storing elements of a tensor at the places of their positions, into zeros, gives
the packed buffer. -/
theorem store_positions (elements : Buffer) :
    store (Array.replicate l.size elements.type.zero)
        (l.shape.positions.map fun p =>
          (l.offset p, elements.element ((dense l.shape).offset p))) =
      (l.places.map (l.packedAt elements)).toArray := by
  refine Array.ext_getElem? fun k => ?_
  have hright : (l.places.map (l.packedAt elements)).toArray[k]? =
      l.places[k]?.map (l.packedAt elements) := by
    rw [List.getElem?_toArray, List.getElem?_map]
  rw [hright]
  by_cases hk : k < l.size
  · obtain ⟨p, hp, hpk⟩ := exists_position_of_mem_places (l := l) (i := k)
      (mem_places.mpr ⟨by omega, by omega⟩)
    rw [getElem?_places hk, Option.map_some, ← hpk]
    rcases hp with hp | hp
    · rw [packedAt_offset hp]
      refine getElem?_store_of_mem (by simpa using hk)
        ⟨_, List.mem_map.mpr ⟨p, hp, rfl⟩, by simp [hpk]⟩ fun entry hentry hplace => ?_
      obtain ⟨q, hq, rfl⟩ := List.mem_map.mp hentry
      have hnonneg := offset_nonneg (holds_of_mem_positions hq)
      have hoffset : l.offset q = l.offset p := by
        simp only at hplace
        omega
      rw [offset_injective (holds_of_mem_positions hq) (holds_of_mem_positions hp) hoffset]
    · rw [packedAt_padding hp, getElem?_store_of_forall_ne, Array.getElem?_replicate, if_pos hk]
      intro entry hentry hplace
      obtain ⟨q, hq, rfl⟩ := List.mem_map.mp hentry
      have hnonneg := offset_nonneg (holds_of_mem_positions hq)
      refine offset_ne_of_mem_padding hq hp ?_
      simp only at hplace
      omega
  · rw [Array.getElem?_eq_none (by simpa using hk),
      List.getElem?_eq_none (by simpa [places] using hk), Option.map_none]

/-- Packing is total on a tensor of the layout's shape, and it puts each element at
the place of its position. -/
theorem pack_eq_ok {t : Tensor} (haccept : l.accept t = .ok ())
    (hsize : t.elements.size = (dense l.shape).size) :
    l.pack t none = .ok (l.packed t.elements) := by
  have hentries : l.logicalOffsets.zip t.elements.values.toList =
      l.shape.positions.map fun p =>
        (l.offset p, t.elements.element ((dense l.shape).offset p)) := by
    rw [Buffer.toList_eq_map_positions hsize, logicalOffsets, List.zip_map']
  have hinside : ∀ entry ∈ l.shape.positions.map fun p =>
        (l.offset p, t.elements.element ((dense l.shape).offset p)),
      0 ≤ entry.1 ∧ entry.1 < (Array.replicate l.size t.elements.type.zero).size := by
    intro entry hentry
    obtain ⟨p, hp, rfl⟩ := List.mem_map.mp hentry
    have hholds := holds_of_mem_positions hp
    exact ⟨offset_nonneg hholds, by simpa using offset_lt_size hholds⟩
  have hfold := foldlM_place_eq_ok hinside
  rw [store_positions] at hfold
  simp only [pack, haccept, ok_bind, hentries]
  exact congrArg (fun stored => (Buffer.mk t.elements.type ·) <$> stored) hfold

theorem element_packed_offset {elements : Buffer} {p : Position} (hp : p ∈ l.shape.positions) :
    (l.packed elements).element (l.offset p) = elements.element ((dense l.shape).offset p) := by
  rw [element_packed (offset_mem_places (holds_of_mem_positions hp)), packedAt_offset hp]

theorem element_packed_padding {elements : Buffer} {i : Int} (hi : i ∈ l.paddingOffsets) :
    (l.packed elements).element i = elements.type.zero := by
  obtain ⟨p, hp, rfl⟩ := List.mem_map.mp hi
  rw [element_packed (offset_mem_places (holds_of_mem_padding hp)), packedAt_padding hp]

end Layout

end BatchNorm
