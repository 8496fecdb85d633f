import BatchNorm.Comparison.Channel
import BatchNorm.Proofs.Buffer.Reading
import BatchNorm.Proofs.Layout.Words

/-!
# What a comparison lists

A comparison works on indices: it collects those that fail, cuts them to the
limit and describes each. Told without indices, it lists the sites whose value is
not near the expected one, in order and up to the limit (`compareChannel_sites`).
The same goes for single values (`compareScalar_eq`) and, within the limits of words, for
the padding (`paddingMismatches_eq`). None of them fails.
-/

set_option autoImplicit false

namespace BatchNorm

/-! ## Limits -/

section

variable {α β : Type} {limit : Option Int}

/-- A limit that is a natural number lets the first items through. -/
theorem upTo_natCast (m : Nat) (xs : List α) : upTo (some (m : Int)) xs = xs.take m := rfl

theorem mem_of_mem_upTo {x : α} {xs : List α} (h : x ∈ upTo limit xs) : x ∈ xs := by
  match limit with
  | none => exact h
  | some (.ofNat k) => exact List.mem_of_mem_take h
  | some (.negSucc k) => exact List.mem_of_mem_take h

theorem upTo_nil : upTo limit ([] : List α) = [] :=
  List.eq_nil_iff_forall_not_mem.mpr fun _ h => absurd (mem_of_mem_upTo h) List.not_mem_nil

theorem upTo_map (f : α → β) (xs : List α) : upTo limit (xs.map f) = (upTo limit xs).map f := by
  match limit with
  | none => rfl
  | some (.ofNat k) => exact List.map_take.symm
  | some (.negSucc k) =>
      show (xs.map f).take ((xs.map f).length - (k + 1)) = _
      rw [List.length_map]
      exact List.map_take.symm

end

/-! ## Values -/

/-- The mismatch of a value. -/
def Mismatch.ofValues (quantity : String) (channel : Int) (position : Option Position)
    (actual expected epsilon floor : Float) : Mismatch :=
  { quantity, channel, position, expected, actual, epsilon
    deviation := relativeDeviation actual expected floor }

section

variable {α : Type} {quantity : String} {channel : Int} {epsilon floor : Float}
  {limit : Option Int} {a e : α → Float}

theorem failedIndices_map (f : α → Float) (xs : List α) :
    failedIndices epsilon (xs.map f) =
      (xs.zipIdx.filter fun (x, _) => !(f x ≤ epsilon : Bool)).map (·.2) := by
  rw [failedIndices, List.zipIdx_map, List.filter_map, List.map_map]
  rfl

theorem filter_zipIdx_map_fst (p : α → Bool) (xs : List α) :
    (xs.zipIdx.filter fun (x, _) => p x).map (·.1) = xs.filter p := by
  have hfst : (xs.zipIdx.map (·.1)).filter p = xs.filter p := by rw [List.zipIdx_map_fst]
  rw [← hfst, List.filter_map]
  rfl

theorem elementAt_map {β : Type} {f : α → β} {xs : List α} {x : α} {i : Nat}
    (h : xs[i]? = some x) : elementAt (xs.map f) i = .ok (f x) := by
  simp only [elementAt, List.getElem?_map, h, Option.map_some]

/-- The values that are not near the expected ones, in order and up to the
limit, whatever the columns say about their positions. -/
theorem compareChannel_eq {columns : Option (List (List Int))} {position : α → Option Position}
    {xs : List α} (hposition : ∀ (i : Nat) (x : α), xs[i]? = some x →
      columns.mapM (positionAt · channel i) = .ok (position x)) :
    compareChannel quantity channel (xs.map a) (xs.map e) epsilon floor columns limit =
      .ok ((upTo limit (xs.filter fun x => !nearlyEqual (a x) (e x) epsilon floor)).map fun x =>
        .ofValues quantity channel (position x) (a x) (e x) epsilon floor) := by
  have hbroadcast : broadcast (relativeDeviation · · floor) (xs.map a) (xs.map e) =
      .ok (xs.map fun x => relativeDeviation (a x) (e x) floor) := by
    rw [broadcast_of_length_eq _ (by simp), List.zipWith_map, List.zipWith_self]
  rw [compareChannel, hbroadcast, ok_bind, failedIndices_map, upTo_map, List.mapM_map]
  -- an index that fails is described by the value that it belongs to
  rw [mapM_eq_ok (g := fun q : α × Nat =>
    Mismatch.ofValues quantity channel (position q.1) (a q.1) (e q.1) epsilon floor)]
  · have hfilter := filter_zipIdx_map_fst (fun x => !nearlyEqual (a x) (e x) epsilon floor) xs
    rw [← hfilter, upTo_map, List.map_map]
    rfl
  · rintro ⟨x, i⟩ hmem
    have hx : xs[i]? = some x :=
      List.mk_mem_zipIdx_iff_getElem?.mp (List.mem_of_mem_filter (mem_of_mem_upTo hmem))
    simp only [Function.comp_apply, hposition i x hx, elementAt_map hx, ok_bind, pure_eq_ok]
    rfl

theorem positionAt_columns {s : Shape} {x : Site} {i : Nat} (h : s.sites[i]? = some x) :
    positionAt s.columns channel i = .ok (x.inChannel channel) := by
  have hcolumns : (s.columns.take 5).mapM (elementAt · i) =
      .ok [(x.n : Int), (x.d : Int), (x.h : Int), (x.w : Int)] := by
    simp only [Shape.columns, List.take_succ_cons, List.take_nil, List.mapM_cons, List.mapM_nil,
      elementAt_map h, ok_bind, pure_eq_ok]
  simp only [positionAt, hcolumns, ok_bind, pure_eq_ok]
  rfl

/-- The mismatches of the values at the sites of a channel, in the order of the
sites. -/
def siteMismatches (quantity : String) (channel : Int) (s : Shape) (a e : Site → Float)
    (epsilon floor : Float) : List Mismatch :=
  (s.sites.filter fun x => !nearlyEqual (a x) (e x) epsilon floor).map fun x =>
    .ofValues quantity channel (some (x.inChannel channel)) (a x) (e x) epsilon floor

theorem compareChannel_sites {s : Shape} {a e : Site → Float} :
    compareChannel quantity channel (s.sites.map a) (s.sites.map e) epsilon floor (some s.columns)
      limit = .ok (upTo limit (siteMismatches quantity channel s a e epsilon floor)) := by
  rw [siteMismatches, upTo_map]
  refine compareChannel_eq fun i x hx => ?_
  simp only [Option.mapM_some, positionAt_columns hx]
  rfl

theorem exists_of_mem_siteMismatches {s : Shape} {a e : Site → Float} {m : Mismatch}
    (hm : m ∈ siteMismatches quantity channel s a e epsilon floor) :
    ∃ x ∈ s.sites, nearlyEqual (a x) (e x) epsilon floor = false ∧
      m = .ofValues quantity channel (some (x.inChannel channel)) (a x) (e x) epsilon floor := by
  obtain ⟨x, hx, rfl⟩ := List.mem_map.mp hm
  obtain ⟨hx, hfar⟩ := List.mem_filter.mp hx
  exact ⟨x, hx, by simpa using hfar, rfl⟩

/-- The mismatch of a single value, if it is not near the expected one. -/
def scalarMismatches (quantity : String) (channel : Int) (actual expected epsilon floor : Float) :
    List Mismatch :=
  if nearlyEqual actual expected epsilon floor then []
  else [.ofValues quantity channel none actual expected epsilon floor]

theorem eq_of_mem_scalarMismatches {actual expected : Float} {x : Mismatch}
    (hx : x ∈ scalarMismatches quantity channel actual expected epsilon floor) :
    x = .ofValues quantity channel none actual expected epsilon floor := by
  unfold scalarMismatches at hx
  split at hx
  · exact absurd hx List.not_mem_nil
  · exact List.mem_singleton.mp hx

theorem compareScalar_eq {actual expected : Float} :
    compareScalar quantity channel actual expected epsilon floor =
      .ok (scalarMismatches quantity channel actual expected epsilon floor) := by
  -- a single value is a list over the unit type
  have h : compareChannel quantity channel ([()].map fun _ => actual) ([()].map fun _ => expected)
      epsilon floor none none =
        .ok ((upTo none ([()].filter fun _ => !nearlyEqual actual expected epsilon floor)).map
          fun _ => .ofValues quantity channel none actual expected epsilon floor) :=
    compareChannel_eq fun _ _ _ => rfl
  rw [compareScalar]
  refine h.trans ?_
  rw [scalarMismatches]
  by_cases hnear : nearlyEqual actual expected epsilon floor = true
  · simp [hnear, upTo]
  · simp [hnear, upTo]

end

/-! ## Padding -/

/-- The zero of the type of the activations counts as zero. -/
theorem Precision.zero_eq (p : Precision) :
    (p.elementType.toFloat p.elementType.zero != 0) = false := by
  cases p <;> decide +kernel

/-- The elements of the padding that are not zero, in the order of their
positions. -/
def nonzeroCells (quantity : String) (b : Buffer) (l : Layout) : List Mismatch :=
  (l.paddingPositions.filter fun p => b.floatAt (l.offset p) != 0).map fun p =>
    .ofPadding quantity p (b.floatAt (l.offset p))

theorem quantity_of_mem_nonzeroCells {quantity : String} {b : Buffer} {l : Layout} {x : Mismatch}
    (hx : x ∈ nonzeroCells quantity b l) : x.quantity = s!"{quantity} padding" := by
  obtain ⟨p, _, rfl⟩ := List.mem_map.mp hx
  rfl

theorem paddingMismatches_eq {quantity : String} {b : Buffer} {l : Layout} {limit : Option Int}
    (hwords : l.PaddingInWords) (hsize : l.size ≤ b.size) :
    paddingMismatches quantity b l limit = .ok (upTo limit (nonzeroCells quantity b l)) := by
  have hgather : b.gatherFloats l.paddingOffsets =
      .ok (l.paddingPositions.map fun p => b.floatAt (l.offset p)) := by
    rw [Buffer.gatherFloats_eq_ok, Layout.paddingOffsets, List.map_map]
    · rfl
    · exact Layout.inside_of_mem_paddingOffsets hsize
  by_cases hpad : l.hasPadding = true
  · have hzip : (l.paddingPositions.zip (l.paddingPositions.map fun p => b.floatAt (l.offset p))) =
        l.paddingPositions.map fun p => (p, b.floatAt (l.offset p)) := by
      have hmap := List.zip_map' (l := l.paddingPositions) (f := fun p => p)
        (g := fun p => b.floatAt (l.offset p))
      rwa [List.map_id'] at hmap
    simp only [paddingMismatches, hpad, if_true, hwords.paddingCells hpad,
      hwords.paddingIndices hpad, nonzeroPadding, hgather, ok_bind, hzip, List.filter_map, upTo_map,
      List.map_map, pure_eq_ok, nonzeroCells]
    rfl
  · have hnone := Layout.paddingPositions_eq_nil (Bool.eq_false_iff.mpr hpad)
    rw [paddingMismatches, if_neg hpad, nonzeroCells, hnone, List.filter_nil, List.map_nil, upTo_nil,
      pure_eq_ok]

/-- Where the table of the padding does not exist, the padding cannot be checked. -/
theorem paddingMismatches_eq_misuse {l : Layout} {cause : Misuse} (hpad : l.hasPadding = true)
    (h : l.demandPadding = misuse cause) (quantity : String) (b : Buffer) (limit : Option Int) :
    paddingMismatches quantity b l limit = misuse cause := by
  rw [paddingMismatches, if_pos hpad, Layout.paddingIndices_eq_misuse h, Layout.paddingCells]
  rcases Layout.demandPadding_eq_misuse h with hcells | ⟨hcells, _⟩
  · rw [hcells]
    rfl
  · rw [hcells]
    rfl

/-! ## A whole run -/

/-- The mismatches of a run: for each channel those of its single values and then
those of its elements, and after the channels those of the padding. The lists of
elements and of padding are cut. -/
def mergeMismatches (channels : Nat) (scalars elements : Nat → List Mismatch)
    (checkPadding : Bool) (padding : List Mismatch) (cut : List Mismatch → List Mismatch) :
    List Mismatch :=
  ((List.range channels).flatMap fun c => scalars c ++ cut (elements c)) ++
    if checkPadding then cut padding else []

theorem mem_of_mem_mergeMismatches {channels : Nat} {scalars elements : Nat → List Mismatch}
    {checkPadding : Bool} {padding : List Mismatch} {cut : List Mismatch → List Mismatch}
    (hcut : ∀ ms, ∀ m ∈ cut ms, m ∈ ms) {m : Mismatch}
    (hm : m ∈ mergeMismatches channels scalars elements checkPadding padding cut) :
    (∃ c < channels, m ∈ scalars c ∨ m ∈ elements c) ∨ m ∈ padding := by
  rcases List.mem_append.mp hm with hm | hm
  · obtain ⟨c, hc, hm⟩ := List.mem_flatMap.mp hm
    refine Or.inl ⟨c, List.mem_range.mp hc, ?_⟩
    exact (List.mem_append.mp hm).imp id (hcut _ _)
  · cases checkPadding with
    | false => exact absurd hm List.not_mem_nil
    | true => exact Or.inr (hcut _ _ hm)

end BatchNorm
