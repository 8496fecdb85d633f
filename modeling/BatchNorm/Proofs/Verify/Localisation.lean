import BatchNorm.Proofs.Buffer.Writing
import BatchNorm.Proofs.Verify.Limit

/-!
# One wrong cell

What a run finds in its output is a function of the values at the positions that the
output holds (`OutputCheck.findings`). If it finds nothing and one value is then changed,
it finds what is wrong with that value and nothing else: one mismatch at the position of
an element, one at the position of a cell of the padding. Cells beyond the layout are not
looked at. Since different positions have different places in the buffer, overwriting one
cell changes one of these values (`single_fault_localised`).
-/

set_option autoImplicit false

namespace BatchNorm

theorem filter_eq_singleton {α : Type} [DecidableEq α] {p : α → Bool} {xs : List α} {x : α}
    (hnodup : xs.Nodup) (hx : x ∈ xs) (hp : p x = true) (hother : ∀ y ∈ xs, y ≠ x → p y = false) :
    xs.filter p = [x] := by
  have hfilter : xs.filter p = xs.filter (· == x) := by
    refine List.filter_congr fun y hy => ?_
    by_cases hyx : y = x
    · rw [hyx, hp, beq_self_eq_true]
    · rw [hother y hy hyx, beq_false_of_ne hyx]
  rw [hfilter, List.filter_beq, List.count_eq_one_of_mem hnodup hx, List.replicate_one]

theorem upTo_singleton {α : Type} {limit : Option Int} (h : Ample limit) (x : α) :
    upTo limit [x] = [x] := by
  match limit with
  | none => rfl
  | some (.ofNat k) =>
      have hpos := h _ rfl
      exact List.take_of_length_le (by simp at hpos ⊢; omega)
  | some (.negSucc k) => exact absurd (h _ rfl) (by omega)

theorem eq_nil_of_upTo_eq_nil {α : Type} {limit : Option Int} (h : Ample limit) {xs : List α}
    (hxs : upTo limit xs = []) : xs = [] :=
  List.length_eq_zero_iff.mp ((dropsAll_iff_of_ample h).mp (upTo_eq_nil_iff.mp hxs))

theorem mergeMismatches_congr {channels : Nat} {scalars scalars' elements elements' : Nat → List Mismatch}
    {checkPadding : Bool} {padding padding' : List Mismatch} {cut : List Mismatch → List Mismatch}
    (hscalars : ∀ c < channels, scalars c = scalars' c)
    (helements : ∀ c < channels, elements c = elements' c) (hpadding : padding = padding') :
    mergeMismatches channels scalars elements checkPadding padding cut =
      mergeMismatches channels scalars' elements' checkPadding padding' cut := by
  rw [mergeMismatches, mergeMismatches, hpadding]
  refine congrArg (· ++ _) (List.flatMap_congr fun c hc => ?_)
  have hc := List.mem_range.mp hc
  rw [hscalars c hc, helements c hc]

theorem inChannel_injective {x y : Site} {c c' : Nat} (h : x.inChannel c = y.inChannel c') :
    x = y ∧ c = c' := by
  obtain ⟨n, d, h', w⟩ := x
  obtain ⟨n', d', h'', w'⟩ := y
  simp only [Site.inChannel, Position.mk.injEq, Int.natCast_inj] at h
  simp [h]

/-! ## Lists with one mismatch -/

section

variable {quantity : String} {c : Nat} {s : Shape} {a a' e : Site → Float} {epsilon floor : Float}

theorem scalarMismatches_eq_nil_iff {c : Int} {actual expected : Float} :
    scalarMismatches quantity c actual expected epsilon floor = [] ↔
      nearlyEqual actual expected epsilon floor = true := by
  unfold scalarMismatches
  split
  · rename_i hnear
    exact iff_of_true rfl hnear
  · rename_i hfar
    exact iff_of_false (List.cons_ne_nil _ _) hfar

theorem siteMismatches_congr (h : ∀ x ∈ s.sites, a x = a' x) :
    siteMismatches quantity c s a e epsilon floor =
      siteMismatches quantity c s a' e epsilon floor := by
  unfold siteMismatches
  rw [List.filter_congr fun x hx => congrArg (!nearlyEqual · (e x) epsilon floor) (h x hx)]
  refine List.map_congr_left fun x hx => ?_
  rw [h x (List.mem_of_mem_filter hx)]

theorem siteMismatches_eq_nil_iff :
    siteMismatches quantity c s a e epsilon floor = [] ↔
      ∀ x ∈ s.sites, nearlyEqual (a x) (e x) epsilon floor = true := by
  simp [siteMismatches, List.filter_eq_nil_iff]

theorem siteMismatches_eq_singleton {x : Site} (hx : x ∈ s.sites)
    (hfar : nearlyEqual (a x) (e x) epsilon floor = false)
    (hother : ∀ y ∈ s.sites, y ≠ x → nearlyEqual (a y) (e y) epsilon floor = true) :
    siteMismatches quantity c s a e epsilon floor =
      [.ofValues quantity c (some (x.inChannel c)) (a x) (e x) epsilon floor] := by
  have hfilter : s.sites.filter (fun y => !nearlyEqual (a y) (e y) epsilon floor) = [x] := by
    refine filter_eq_singleton s.sites_nodup hx ?_ fun y hy hyx => ?_
    · rw [hfar]
      rfl
    · rw [hother y hy hyx]
      rfl
  rw [siteMismatches, hfilter, List.map_singleton]

end

/-- The cells of the padding that are not zero, their values read from positions. -/
def cellMismatches (quantity : String) (l : Layout) (read : Position → Float) : List Mismatch :=
  (l.paddingPositions.filter fun p => read p != 0).map fun p => .ofPadding quantity p (read p)

section

variable {quantity : String} {l : Layout} {read read' : Position → Float}

theorem cellMismatches_congr (h : ∀ p ∈ l.paddingPositions, read p = read' p) :
    cellMismatches quantity l read = cellMismatches quantity l read' := by
  unfold cellMismatches
  rw [List.filter_congr fun p hp => congrArg (· != 0) (h p hp)]
  refine List.map_congr_left fun p hp => ?_
  rw [h p (List.mem_of_mem_filter hp)]

theorem cellMismatches_eq_nil_iff :
    cellMismatches quantity l read = [] ↔ ∀ p ∈ l.paddingPositions, (read p != 0) = false := by
  rw [cellMismatches, List.map_eq_nil_iff, List.filter_eq_nil_iff]
  simp only [Bool.not_eq_true]

theorem cellMismatches_eq_singleton {p : Position} (hp : p ∈ l.paddingPositions)
    (hvalue : (read p != 0) = true)
    (hother : ∀ q ∈ l.paddingPositions, q ≠ p → (read q != 0) = false) :
    cellMismatches quantity l read = [.ofPadding quantity p (read p)] := by
  have hnodup := (List.nodup_append'.mp l.positions_append_padding_nodup).2.1
  rw [cellMismatches, filter_eq_singleton hnodup hp hvalue hother, List.map_singleton]

end

/-! ## The check of an output -/

/-- How a run checks the output of a primitive: where it lies, what is expected in it, and
what has been found in other buffers. -/
structure OutputCheck where
  layout : Layout
  quantity : String
  scalars : Nat → List Mismatch
  expected : Nat → Site → Float
  epsilon : Float
  floor : Float
  limit : Option Int

namespace OutputCheck

/-- The mismatches of a channel whose values are read from positions. -/
def channelMismatches (k : OutputCheck) (read : Position → Float) (c : Nat) : List Mismatch :=
  siteMismatches k.quantity c k.layout.shape (fun x => read (x.inChannel c)) (k.expected c)
    k.epsilon k.floor

/-- All that is found if the output has the given values. -/
def findings (k : OutputCheck) (read : Position → Float) : List Mismatch :=
  mergeMismatches k.layout.shape.channels k.scalars (k.channelMismatches read) true
    (cellMismatches k.quantity k.layout read) (upTo k.limit)

/-- There is nothing to find. -/
structure Clean (k : OutputCheck) (read : Position → Float) : Prop where
  scalars : ∀ c < k.layout.shape.channels, k.scalars c = []
  elements : ∀ c < k.layout.shape.channels, ∀ x ∈ k.layout.shape.sites,
    nearlyEqual (read (x.inChannel c)) (k.expected c x) k.epsilon k.floor = true
  padding : ∀ p ∈ k.layout.paddingPositions, (read p != 0) = false

variable {k : OutputCheck} {read read' : Position → Float}

theorem clean_of_findings (hlimit : Ample k.limit) (h : k.findings read = []) : k.Clean read := by
  obtain ⟨hchannels, hpadding⟩ := mergeMismatches_eq_nil_iff.mp h
  refine ⟨fun c hc => (hchannels c hc).1, fun c hc => ?_, ?_⟩
  · exact siteMismatches_eq_nil_iff.mp (eq_nil_of_upTo_eq_nil hlimit (hchannels c hc).2)
  · exact cellMismatches_eq_nil_iff.mp (eq_nil_of_upTo_eq_nil hlimit (hpadding rfl))

/-- What is found depends on nothing but the positions that the output holds. -/
theorem findings_congr (h : ∀ p, k.layout.Holds p → read p = read' p) :
    k.findings read = k.findings read' := by
  refine mergeMismatches_congr (fun _ _ => rfl) (fun c hc => ?_) ?_
  · refine siteMismatches_congr fun x hx => ?_
    exact h _ (Layout.holds_of_mem_positions (Shape.inChannel_mem_positions hx hc))
  · exact cellMismatches_congr fun p hp => h p (Layout.holds_of_mem_padding hp)

/-- The comparison of a tensor in a buffer finds what the values at its positions say. -/
theorem findings_unpacked {s : Shape} {d : Buffer} (hshape : k.layout.shape = s) :
    mergeMismatches s.channels k.scalars
        (fun c => siteMismatches k.quantity c s
          (fun x => (k.layout.unpacked d).floatAt (x.inChannel c)) (k.expected c) k.epsilon k.floor)
        true (nonzeroCells k.quantity d k.layout) (upTo k.limit) =
      k.findings fun p => d.floatAt (k.layout.offset p) := by
  subst hshape
  refine mergeMismatches_congr (fun _ _ => rfl) (fun c hc => ?_) rfl
  refine siteMismatches_congr fun x hx => ?_
  exact Layout.floatAt_unpacked (Shape.inChannel_mem_positions hx hc)

/-- An element lies outside of the padding. -/
theorem inChannel_ne_of_mem_padding {l : Layout} {x : Site} {c : Nat} {p : Position}
    (hc : c < l.shape.channels) (hx : x ∈ l.shape.sites) (hp : p ∈ l.paddingPositions) :
    x.inChannel c ≠ p := by
  rintro rfl
  have hdisjoint := List.disjoint_of_nodup_append l.positions_append_padding_nodup
  exact hdisjoint (Shape.inChannel_mem_positions hx hc) hp

namespace Clean

/-- A value that is not near the expected one is found, and nothing else. -/
theorem findings_element (h : k.Clean read) (hlimit : Ample k.limit) {c : Nat} {x : Site}
    (hc : c < k.layout.shape.channels) (hx : x ∈ k.layout.shape.sites) {value : Float}
    (hfar : nearlyEqual value (k.expected c x) k.epsilon k.floor = false) :
    k.findings (Function.update read (x.inChannel c) value) =
      [.ofValues k.quantity c (some (x.inChannel c)) value (k.expected c x) k.epsilon k.floor] := by
  have hchannels : ∀ i < k.layout.shape.channels, k.scalars i ++ upTo k.limit
      (k.channelMismatches (Function.update read (x.inChannel c) value) i) = if i = c then
        [.ofValues k.quantity c (some (x.inChannel c)) value (k.expected c x) k.epsilon k.floor]
        else [] := by
    intro i hi
    rw [h.scalars i hi, List.nil_append, channelMismatches]
    by_cases hic : i = c
    · subst hic
      rw [if_pos rfl, siteMismatches_eq_singleton hx, upTo_singleton hlimit, Function.update_self]
      · rw [Function.update_self, hfar]
      · intro y hy hyx
        have hne : y.inChannel i ≠ x.inChannel i := fun heq => hyx (inChannel_injective heq).1
        rw [Function.update_of_ne hne, h.elements i hi y hy]
    · rw [if_neg hic, siteMismatches_eq_nil_iff.mpr, upTo_nil]
      intro y hy
      have hne : y.inChannel i ≠ x.inChannel c := fun heq => hic (inChannel_injective heq).2
      rw [Function.update_of_ne hne, h.elements i hi y hy]
  have hpadding : cellMismatches k.quantity k.layout
      (Function.update read (x.inChannel c) value) = [] := by
    refine cellMismatches_eq_nil_iff.mpr fun p hp => ?_
    rw [Function.update_of_ne (inChannel_ne_of_mem_padding hc hx hp).symm, h.padding p hp]
  rw [findings, mergeMismatches, hpadding, upTo_nil, if_pos rfl, List.append_nil,
    List.flatMap_congr fun i hi => hchannels i (List.mem_range.mp hi)]
  exact flatMap_range_ite hc _

/-- A value in the padding that is not zero is found, and nothing else. -/
theorem findings_padding (h : k.Clean read) (hlimit : Ample k.limit) {p : Position}
    (hp : p ∈ k.layout.paddingPositions) {value : Float} (hvalue : (value != 0) = true) :
    k.findings (Function.update read p value) = [.ofPadding k.quantity p value] := by
  have hchannels : ((List.range k.layout.shape.channels).flatMap fun i =>
      k.scalars i ++ upTo k.limit (k.channelMismatches (Function.update read p value) i)) = [] := by
    refine List.flatMap_eq_nil_iff.mpr fun i hi => ?_
    have hi := List.mem_range.mp hi
    rw [h.scalars i hi, List.nil_append, channelMismatches, siteMismatches_eq_nil_iff.mpr, upTo_nil]
    intro y hy
    rw [Function.update_of_ne (inChannel_ne_of_mem_padding hi hy hp), h.elements i hi y hy]
  have hpadding : cellMismatches k.quantity k.layout (Function.update read p value) =
      [.ofPadding k.quantity p value] := by
    rw [cellMismatches_eq_singleton hp, Function.update_self]
    · rw [Function.update_self, hvalue]
    · intro q hq hqp
      rw [Function.update_of_ne hqp, h.padding q hq]
  rw [findings, mergeMismatches, hchannels, hpadding, List.nil_append, if_pos rfl,
    upTo_singleton hlimit]

end Clean

end OutputCheck

/-! ## Overwriting a cell -/

/-- A run finds one mismatch and nothing else: it is in the verdict, or in the report if
the run has to pass. -/
structure FindsOnly (run : Bool → Logged Verdict) (verdict : Verdict) (limit : Int)
    (m : Mismatch) : Prop where
  result : (run false).result = .ok { verdict with mismatches := [m] }
  failure : (run true).result = .error (.verification ⟨verdict.config.describe, [m], limit⟩)

/-- What one overwritten cell of an output changes in a run: it is found where it is, if
it is wrong there, and it is not looked at beyond the layout. -/
structure Localised (run : Buffer → Bool → Logged Verdict) (l : Layout) (quantity : String)
    (expected : Nat → Site → Float) (epsilon floor : Float) (d : Buffer) (verdict : Verdict)
    (limit : Int) : Prop where
  element : ∀ c < l.shape.channels, ∀ x ∈ l.shape.sites, ∀ value : d.type.Carrier,
    nearlyEqual (d.type.toFloat value) (expected c x) epsilon floor = false →
      ∃ d', d.write (l.offset (x.inChannel c)) value = .ok d' ∧
        FindsOnly (run d') verdict limit
          (.ofValues quantity c (some (x.inChannel c)) (d.type.toFloat value) (expected c x) epsilon
            floor)
  padding : ∀ p, l.Holds p → (l.shape.channels : Int) ≤ p.c → ∀ value : d.type.Carrier,
    (d.type.toFloat value != 0) = true →
      ∃ d', d.write (l.offset p) value = .ok d' ∧
        FindsOnly (run d') verdict limit (.ofPadding quantity p (d.type.toFloat value))
  beyond : ∀ i : Int, l.size ≤ i → i < d.size → ∀ value : d.type.Carrier,
    ∃ d', d.write i value = .ok d' ∧ ∀ raise, (run d' raise).result = .ok verdict

theorem findsOnly_of_conclude {run : Bool → Logged Verdict} {verdict : Verdict} {limit : Int}
    {m : Mismatch} (hlimit : verdict.config.tolerance.maxReported = some limit)
    (hpos : 1 ≤ limit)
    (h : ∀ raise, (run raise).result =
      (conclude { verdict with mismatches := [m] } raise).result) :
    FindsOnly run verdict limit m := by
  have hfailed : ¬ ({ verdict with mismatches := [m] } : Verdict).passed = true := nofun
  constructor
  · rw [h, conclude_result_false]
  · rw [h]
    exact conclude_result_of_failed hlimit (by omega) hfailed

/-- The run is decided by a check of its output, which finds nothing in `d`. -/
theorem localised_of_check {run : Buffer → Bool → Logged Verdict} {k : OutputCheck} {d : Buffer}
    {verdict : Verdict} {limit : Int}
    (hlimit : verdict.config.tolerance.maxReported = some limit) (hk : k.limit = some limit)
    (hpos : 1 ≤ limit) (hsize : k.layout.size ≤ d.size) (hpassed : verdict.mismatches = [])
    (hrun : ∀ d', d'.size = d.size → d'.type = d.type → ∀ raise, (run d' raise).result =
      (conclude { verdict with
        mismatches := k.findings fun p => d'.floatAt (k.layout.offset p) } raise).result)
    (hfindings : (k.findings fun p => d.floatAt (k.layout.offset p)) = []) :
    Localised run k.layout k.quantity k.expected k.epsilon k.floor d verdict limit := by
  have hample : Ample k.limit := by
    intro m hm
    rw [hk] at hm
    rwa [← Option.some.inj hm]
  have hclean := OutputCheck.clean_of_findings hample hfindings
  -- a write at a held position is an update of what is read from positions
  have hread : ∀ p, k.layout.Holds p → ∀ value : d.type.Carrier,
      (k.findings fun q => (d.set (k.layout.offset p) value).floatAt (k.layout.offset q)) =
        k.findings (Function.update (fun q => d.floatAt (k.layout.offset q)) p
          (d.type.toFloat value)) := by
    intro p hp value
    refine OutputCheck.findings_congr fun q hq => ?_
    rw [Layout.floatAt_set_offset hsize hp hq]
    by_cases hqp : q = p
    · rw [hqp, if_pos rfl, Function.update_self]
    · rw [if_neg hqp, Function.update_of_ne hqp]
  constructor
  · intro c hc x hx value hfar
    have hholds := Layout.holds_of_mem_positions (Shape.inChannel_mem_positions hx hc)
    refine ⟨_, Buffer.write_eq_ok (Layout.inside_of_holds hsize hholds), ?_⟩
    refine findsOnly_of_conclude hlimit hpos fun raise => ?_
    rw [hrun _ Buffer.size_set Buffer.type_set, hread _ hholds, hclean.findings_element hample hc hx hfar]
  · intro p hp hchannel value hvalue
    have hmem : p ∈ k.layout.paddingPositions := by
      refine ((k.layout.holds_iff_mem p).mp hp).resolve_left fun hlogical => ?_
      have hlt := (Shape.mem_cells.mp hlogical).2.1.2
      omega
    refine ⟨_, Buffer.write_eq_ok (Layout.inside_of_holds hsize hp), ?_⟩
    refine findsOnly_of_conclude hlimit hpos fun raise => ?_
    rw [hrun _ Buffer.size_set Buffer.type_set, hread _ hp, hclean.findings_padding hample hmem hvalue]
  · intro i hi hlt value
    refine ⟨_, Buffer.write_eq_ok ⟨by omega, hlt⟩, fun raise => ?_⟩
    have hsame : (k.findings fun q => (d.set i value).floatAt (k.layout.offset q)) =
        verdict.mismatches := by
      rw [hpassed, ← hfindings]
      exact OutputCheck.findings_congr fun q hq => Layout.floatAt_set_beyond hi hq
    rw [hrun _ Buffer.size_set Buffer.type_set, hsame]
    exact conclude_result_of_passed (List.isEmpty_iff.mpr hpassed) raise

/-! ## Forward runs -/

section

variable {config : RunConfig}

theorem Fits.overwrite {type : ElementType} {b b' : Buffer} {l : Layout}
    (h : Fits config type b l) (hsize : b'.size = b.size) (htype : b'.type = b.type) :
    Fits config type b' l :=
  ⟨h.shape, hsize ▸ h.size, htype.trans h.type⟩

/-- Nothing is wrong with statistics that need no comparison or are near to those used. -/
theorem ForwardChannel.statisticsMismatches_eq_nil_iff {ch : ForwardChannel} {epsilon : Float}
    {c : Nat} :
    ch.statisticsMismatches config epsilon c = [] ↔
      (config.normalization.computeStatistics = true → config.normalization.isTraining = true →
        nearlyEqual ch.reported.mean (ch.statistics config).mean epsilon
            config.tolerance.statisticsFloor = true ∧
          nearlyEqual ch.reported.variance (ch.statistics config).variance epsilon
            config.tolerance.statisticsFloor = true) := by
  unfold statisticsMismatches
  dsimp only
  split
  · rename_i hmodes
    obtain ⟨hcompute, htraining⟩ := Bool.and_eq_true_iff.mp hmodes
    rw [List.append_eq_nil_iff, scalarMismatches_eq_nil_iff, scalarMismatches_eq_nil_iff]
    exact ⟨fun hnear _ _ => hnear, fun hnear => hnear hcompute htraining⟩
  · rename_i hmodes
    refine iff_of_true rfl fun hcompute htraining => ?_
    exact absurd (Bool.and_eq_true_iff.mpr ⟨hcompute, htraining⟩) hmodes

/-- The check of the output of a forward run. -/
def ForwardBuffers.outputCheck (b : ForwardBuffers) (config : RunConfig) (src dst : Tensor)
    (epsilon : Float) : OutputCheck where
  layout := b.outputLayout
  quantity := "dst"
  scalars c := (b.channel src dst c).statisticsMismatches config epsilon c
  expected c := (b.channel src dst c).expected config
  epsilon := epsilon
  floor := config.tolerance.outputFloorFor config.precision
  limit := config.tolerance.maxReported

namespace ForwardView.Of

variable {v : ForwardView} {b : ForwardBuffers}

theorem overwrite (h : v.Of b config) {d' : Buffer} (hsize : d'.size = v.dst.size)
    (htype : d'.type = v.dst.type) :
    ForwardView.Of { v with dst := d' } { b with dst := some d' } config where
  nonempty := h.nonempty
  src := h.src
  dst := activation_eq_ok_iff.mpr
    ⟨rfl, (activation_eq_ok_iff.mp h.dst).2.overwrite hsize htype⟩
  statistics := h.statistics
  affine := h.affine
  srcLayout := h.srcLayout
  dstLayout := h.dstLayout
  indexable := by
    refine ⟨?_, h.indexable.sites, h.indexable.padding⟩
    have hcounted := h.indexable.counted
    rw [h.activations_eq] at hcounted
    simpa [ForwardBuffers.activations, (activation_eq_ok_iff.mp h.src).1, hsize] using hcounted

theorem forwardVerdict_mismatches (h : v.Of b config) (hpadding : config.checkPadding = true)
    (dst : Tensor) (epsilon : Float) :
    (forwardVerdict config b (v.srcLayout.unpacked v.src) (v.dstLayout.unpacked v.dst)
      (nonzeroCells "dst" v.dst v.dstLayout) epsilon (upTo config.tolerance.maxReported)).mismatches =
        (b.outputCheck config (v.srcLayout.unpacked v.src) dst epsilon).findings fun p =>
          v.dst.floatAt (b.outputLayout.offset p) := by
  have hshape : b.outputLayout.shape = config.shape := h.dstLayout ▸ h.dstFits.shape
  rw [forwardVerdict, hpadding, h.dstLayout]
  exact OutputCheck.findings_unpacked
    (k := b.outputCheck config (v.srcLayout.unpacked v.src) dst epsilon) hshape

theorem localised (h : v.Of b config) (hpadding : config.checkPadding = true) {limit : Int}
    (hlimit : config.tolerance.maxReported = some limit) (hpos : 1 ≤ limit) {epsilon : Float}
    (hepsilon : config.epsilon = .ok epsilon) {verdict : Verdict}
    (hverdict : verdict = forwardVerdict config b (v.srcLayout.unpacked v.src)
      (v.dstLayout.unpacked v.dst) (nonzeroCells "dst" v.dst v.dstLayout) epsilon
      (upTo config.tolerance.maxReported))
    (hpassed : verdict.mismatches = []) :
    Localised (fun d' => verifyForward config { b with dst := some d' }) b.outputLayout "dst"
      (fun c => (b.channel (v.srcLayout.unpacked v.src) (v.dstLayout.unpacked v.dst) c).expected
        config)
      epsilon (config.tolerance.outputFloorFor config.precision) v.dst verdict limit := by
  have hcheck := h.forwardVerdict_mismatches hpadding (v.dstLayout.unpacked v.dst) epsilon
  have hsize : b.outputLayout.size ≤ v.dst.size := h.dstLayout ▸ h.dstFits.size
  subst hverdict
  refine localised_of_check
    (k := b.outputCheck config (v.srcLayout.unpacked v.src) (v.dstLayout.unpacked v.dst) epsilon)
    hlimit hlimit hpos hsize hpassed (fun d' hd' htype raise => ?_) (hcheck.symm.trans hpassed)
  have h' := h.overwrite hd' htype
  have hmismatches := h'.forwardVerdict_mismatches hpadding (v.dstLayout.unpacked v.dst) epsilon
  rw [h'.verifyForward_result, hepsilon, ok_bind]
  -- the reference does not look at the output
  exact congrArg (fun ms => (conclude { forwardVerdict config b (v.srcLayout.unpacked v.src)
    (v.dstLayout.unpacked v.dst) (nonzeroCells "dst" v.dst v.dstLayout) epsilon
    (upTo config.tolerance.maxReported) with mismatches := ms } raise).result) hmismatches

end ForwardView.Of

/-- A forward run with elements that gives a verdict was accepted, and the verdict is that
on its tensors. -/
theorem ForwardBuffers.exists_of_result {b : ForwardBuffers} {raise : Bool} {verdict : Verdict}
    (hnonempty : config.shape.isEmpty = false)
    (hresult : (verifyForward config b raise).result = .ok verdict) :
    ∃ v : ForwardView, v.Of b config ∧ ∃ epsilon, config.epsilon = .ok epsilon ∧
      verdict = forwardVerdict config b (v.srcLayout.unpacked v.src) (v.dstLayout.unpacked v.dst)
        (nonzeroCells "dst" v.dst v.dstLayout) epsilon (upTo config.tolerance.maxReported) := by
  have hchecks : (b.view config).isOk = true := by
    rcases hview : b.view config with e | o
    · rw [verifyForward, hview] at hresult
      cases hresult
    · rfl
  obtain ⟨v, hchecked⟩ := ForwardBuffers.exists_checked hchecks hnonempty
  have h : v.Of b config := by
    rcases hcompare : v.compare config with e | found
    · rw [verifyForward, ForwardBuffers.view_eq_ok_iff.mpr hchecked] at hresult
      obtain ⟨_, hresult⟩ := Logged.result_of_provided hresult
      simp only [hcompare] at hresult
      cases hresult
    · exact hchecked.of_compare_eq_ok hcompare
  rw [h.verifyForward_result, bind_eq_ok_iff] at hresult
  obtain ⟨epsilon, hepsilon, hconclude⟩ := hresult
  exact ⟨v, h, epsilon, hepsilon, eq_of_conclude_result hconclude⟩

/-! ## Backward runs -/

/-- The check of the gradient with respect to the input. -/
def BackwardBuffers.outputCheck (b : BackwardBuffers) (config : RunConfig)
    (src diffDst diffSrc : Tensor) (epsilon : Float) : OutputCheck where
  layout := b.outputLayout
  quantity := "diff_src"
  scalars c := (b.channel src diffDst diffSrc c).parameterMismatches config epsilon c
  expected c := (b.channel src diffDst diffSrc c).expected config
  epsilon := epsilon
  floor := config.tolerance.diffSrcFloor
  limit := config.tolerance.maxReported

namespace BackwardView.Of

variable {v : BackwardView} {b : BackwardBuffers}

theorem overwrite (h : v.Of b config) {d' : Buffer} (hsize : d'.size = v.diffSrc.size)
    (htype : d'.type = v.diffSrc.type) :
    BackwardView.Of { v with diffSrc := d' } { b with diffSrc := some d' } config where
  nonempty := h.nonempty
  parameters := h.parameters
  src := h.src
  diffDst := h.diffDst
  diffSrc := activation_eq_ok_iff.mpr
    ⟨rfl, (activation_eq_ok_iff.mp h.diffSrc).2.overwrite hsize htype⟩
  mean := h.mean
  variance := h.variance
  scale := h.scale
  srcLayout := h.srcLayout
  diffDstLayout := h.diffDstLayout
  diffSrcLayout := h.diffSrcLayout
  indexable := by
    refine ⟨?_, h.indexable.sites, h.indexable.padding⟩
    have hcounted := h.indexable.counted
    rw [h.activations_eq] at hcounted
    simpa [BackwardBuffers.activations, (activation_eq_ok_iff.mp h.src).1,
      (activation_eq_ok_iff.mp h.diffDst).1, hsize] using hcounted

theorem backwardVerdict_mismatches (h : v.Of b config) (hpadding : config.checkPadding = true)
    (diffSrc : Tensor) (epsilon : Float) :
    (backwardVerdict config b (v.srcLayout.unpacked v.src) (v.diffDstLayout.unpacked v.diffDst)
      (v.diffSrcLayout.unpacked v.diffSrc) (nonzeroCells "diff_src" v.diffSrc v.diffSrcLayout)
      epsilon (upTo config.tolerance.maxReported)).mismatches =
        (b.outputCheck config (v.srcLayout.unpacked v.src) (v.diffDstLayout.unpacked v.diffDst)
          diffSrc epsilon).findings fun p => v.diffSrc.floatAt (b.outputLayout.offset p) := by
  have hshape : b.outputLayout.shape = config.shape := h.diffSrcLayout ▸ h.diffSrcFits.shape
  rw [backwardVerdict, hpadding, h.diffSrcLayout]
  exact OutputCheck.findings_unpacked
    (k := b.outputCheck config (v.srcLayout.unpacked v.src) (v.diffDstLayout.unpacked v.diffDst)
      diffSrc epsilon) hshape

theorem localised (h : v.Of b config) (hpadding : config.checkPadding = true) {limit : Int}
    (hlimit : config.tolerance.maxReported = some limit) (hpos : 1 ≤ limit) {epsilon : Float}
    (hepsilon : config.epsilon = .ok epsilon) {verdict : Verdict}
    (hverdict : verdict = backwardVerdict config b (v.srcLayout.unpacked v.src)
      (v.diffDstLayout.unpacked v.diffDst) (v.diffSrcLayout.unpacked v.diffSrc)
      (nonzeroCells "diff_src" v.diffSrc v.diffSrcLayout) epsilon
      (upTo config.tolerance.maxReported))
    (hpassed : verdict.mismatches = []) :
    Localised (fun d' => verifyBackward config { b with diffSrc := some d' }) b.outputLayout
      "diff_src"
      (fun c => (b.channel (v.srcLayout.unpacked v.src) (v.diffDstLayout.unpacked v.diffDst)
        (v.diffSrcLayout.unpacked v.diffSrc) c).expected config)
      epsilon config.tolerance.diffSrcFloor v.diffSrc verdict limit := by
  have hcheck :=
    h.backwardVerdict_mismatches hpadding (v.diffSrcLayout.unpacked v.diffSrc) epsilon
  have hsize : b.outputLayout.size ≤ v.diffSrc.size := h.diffSrcLayout ▸ h.diffSrcFits.size
  subst hverdict
  refine localised_of_check
    (k := b.outputCheck config (v.srcLayout.unpacked v.src) (v.diffDstLayout.unpacked v.diffDst)
      (v.diffSrcLayout.unpacked v.diffSrc) epsilon)
    hlimit hlimit hpos hsize hpassed (fun d' hd' htype raise => ?_) (hcheck.symm.trans hpassed)
  have h' := h.overwrite hd' htype
  have hmismatches :=
    h'.backwardVerdict_mismatches hpadding (v.diffSrcLayout.unpacked v.diffSrc) epsilon
  rw [h'.verifyBackward_result, hepsilon, ok_bind]
  -- the reference does not look at the gradient that is checked
  exact congrArg (fun ms => (conclude { backwardVerdict config b (v.srcLayout.unpacked v.src)
    (v.diffDstLayout.unpacked v.diffDst) (v.diffSrcLayout.unpacked v.diffSrc)
    (nonzeroCells "diff_src" v.diffSrc v.diffSrcLayout) epsilon
    (upTo config.tolerance.maxReported) with mismatches := ms } raise).result) hmismatches

end BackwardView.Of

/-- A backward run with elements that gives a verdict was accepted, and the verdict is that
on its tensors. -/
theorem BackwardBuffers.exists_of_result {b : BackwardBuffers} {raise : Bool} {verdict : Verdict}
    (hnonempty : config.shape.isEmpty = false)
    (hresult : (verifyBackward config b raise).result = .ok verdict) :
    ∃ v : BackwardView, v.Of b config ∧ ∃ epsilon, config.epsilon = .ok epsilon ∧
      verdict = backwardVerdict config b (v.srcLayout.unpacked v.src)
        (v.diffDstLayout.unpacked v.diffDst) (v.diffSrcLayout.unpacked v.diffSrc)
        (nonzeroCells "diff_src" v.diffSrc v.diffSrcLayout) epsilon
        (upTo config.tolerance.maxReported) := by
  have hchecks : b.Checks config := by
    rcases hparameters : b.parameters config with e | parameters
    · rw [verifyBackward, hparameters] at hresult
      exact absurd hresult nofun
    · refine ⟨parameters, hparameters, fun _ => ?_⟩
      rcases hview : b.view config parameters with e | v
      · simp only [verifyBackward, hparameters, hnonempty, Bool.false_eq_true, if_false,
          hview] at hresult
        exact absurd hresult nofun
      · rfl
  obtain ⟨v, hchecked⟩ := hchecks.exists_checked hnonempty
  have h : v.Of b config := by
    rcases hcompare : v.compare config with e | found
    · simp only [verifyBackward, hchecked.parameters, hnonempty, Bool.false_eq_true, if_false,
        BackwardBuffers.view_eq_ok hchecked, hcompare] at hresult
      obtain ⟨_, hresult⟩ := Logged.result_of_provided hresult
      cases hresult
    · exact hchecked.of_compare_eq_ok hcompare
  rw [h.verifyBackward_result, bind_eq_ok_iff] at hresult
  obtain ⟨epsilon, hepsilon, hconclude⟩ := hresult
  exact ⟨v, h, epsilon, hepsilon, eq_of_conclude_result hconclude⟩

end

/-! ## Both together -/

/-- **Localisation.** Take a run with elements that passes, with the padding checked and a
limit above zero. If one cell of its output is overwritten, then the run finds exactly one
mismatch, at that cell, if the cell is an element and the value is not near the reference,
or if the cell is in the padding and the value is not zero. If the cell lies beyond the
layout, the run has the same outcome as before. -/
theorem single_fault_localised {config : RunConfig} {limit : Int}
    (hnonempty : config.shape.isEmpty = false) (hpadding : config.checkPadding = true)
    (hlimit : config.tolerance.maxReported = some limit) (hpos : 1 ≤ limit) :
    (∀ (b : ForwardBuffers) (raise : Bool) (verdict : Verdict),
      (verifyForward config b raise).result = .ok verdict → verdict.passed = true →
        ∃ (s d : Buffer) (src dst : Tensor) (epsilon : Float),
          (b.src = some s ∧ b.srcLayout.unpack s = .ok src) ∧
          (b.dst = some d ∧ b.outputLayout.unpack d = .ok dst) ∧ config.epsilon = .ok epsilon ∧
          b.outputLayout.shape = config.shape ∧
          Localised (fun d' => verifyForward config { b with dst := some d' }) b.outputLayout "dst"
            (fun c => (b.channel src dst c).expected config) epsilon
            (config.tolerance.outputFloorFor config.precision) d verdict limit) ∧
    (∀ (b : BackwardBuffers) (raise : Bool) (verdict : Verdict),
      (verifyBackward config b raise).result = .ok verdict → verdict.passed = true →
        ∃ (s g d : Buffer) (src diffDst diffSrc : Tensor) (epsilon : Float),
          (b.src = some s ∧ b.srcLayout.unpack s = .ok src) ∧
          (b.diffDst = some g ∧ b.gradientLayout.unpack g = .ok diffDst) ∧
          (b.diffSrc = some d ∧ b.outputLayout.unpack d = .ok diffSrc) ∧
          config.epsilon = .ok epsilon ∧ b.outputLayout.shape = config.shape ∧
          Localised (fun d' => verifyBackward config { b with diffSrc := some d' }) b.outputLayout
            "diff_src" (fun c => (b.channel src diffDst diffSrc c).expected config) epsilon
            config.tolerance.diffSrcFloor d verdict limit) := by
  constructor
  · intro b raise verdict hresult hpassed
    obtain ⟨v, h, epsilon, hepsilon, hverdict⟩ :=
      ForwardBuffers.exists_of_result hnonempty hresult
    exact ⟨v.src, v.dst, v.srcLayout.unpacked v.src, v.dstLayout.unpacked v.dst, epsilon,
      ⟨(activation_eq_ok_iff.mp h.src).1, h.srcLayout ▸ h.srcFits.unpack⟩,
      ⟨(activation_eq_ok_iff.mp h.dst).1, h.dstLayout ▸ h.dstFits.unpack⟩, hepsilon,
      h.dstLayout ▸ h.dstFits.shape,
      h.localised hpadding hlimit hpos hepsilon hverdict (List.isEmpty_iff.mp hpassed)⟩
  · intro b raise verdict hresult hpassed
    obtain ⟨v, h, epsilon, hepsilon, hverdict⟩ :=
      BackwardBuffers.exists_of_result hnonempty hresult
    exact ⟨v.src, v.diffDst, v.diffSrc, v.srcLayout.unpacked v.src,
      v.diffDstLayout.unpacked v.diffDst, v.diffSrcLayout.unpacked v.diffSrc, epsilon,
      ⟨(activation_eq_ok_iff.mp h.src).1, h.srcLayout ▸ h.srcFits.unpack⟩,
      ⟨(activation_eq_ok_iff.mp h.diffDst).1, h.diffDstLayout ▸ h.diffDstFits.unpack⟩,
      ⟨(activation_eq_ok_iff.mp h.diffSrc).1, h.diffSrcLayout ▸ h.diffSrcFits.unpack⟩, hepsilon,
      h.diffSrcLayout ▸ h.diffSrcFits.shape,
      h.localised hpadding hlimit hpos hepsilon hverdict (List.isEmpty_iff.mp hpassed)⟩

/-- A right output in blocks, with one cell more than the layout has. -/
def matchingBuffers : ForwardBuffers :=
  { twoChannelsBuffers with dst := some (.ofList .float32 [1, 3, 0, 0, 2, 4, 0, 0, 7]) }

theorem single_fault_localised_twoChannels :
    twoChannels.shape.isEmpty = false ∧ twoChannels.checkPadding = true ∧
      twoChannels.tolerance.maxReported = some 32 ∧ (1 : Int) ≤ 32 ∧
      ∃ verdict, (verifyForward twoChannels matchingBuffers true).result = .ok verdict ∧
        verdict.passed = true ∧ ∃ (d : Buffer) (src dst : Tensor) (epsilon : Float),
          Localised (fun d' => verifyForward twoChannels { matchingBuffers with dst := some d' })
            twoChannelsBlocked "dst"
            (fun c => (matchingBuffers.channel src dst c).expected twoChannels) epsilon
            (twoChannels.tolerance.outputFloorFor twoChannels.precision) d verdict 32 := by
  have hpasses : (verifyForward twoChannels matchingBuffers true).passes = true := by
    decide +kernel
  rcases hresult : (verifyForward twoChannels matchingBuffers true).result with e | verdict
  · rw [Logged.passes, hresult] at hpasses
    cases hpasses
  · rw [Logged.passes, hresult] at hpasses
    obtain ⟨_, d, src, dst, epsilon, _, _, _, _, hlocalised⟩ :=
      (@single_fault_localised twoChannels 32 rfl rfl rfl (by decide)).1 matchingBuffers true
        verdict hresult hpasses
    exact ⟨rfl, rfl, rfl, by decide, verdict, rfl, hpasses, d, src, dst, epsilon, hlocalised⟩

end BatchNorm
