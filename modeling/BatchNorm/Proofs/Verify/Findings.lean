import BatchNorm.Proofs.Verify.Localisation

/-!
# What there is to find

`OutputCheck.Mismatching` says, value by value, what is wrong with a run: single values
that a channel reports, elements that are not near the reference, and cells of the
padding that are not zero. `OutputCheck.mismatches` lists these, each once, and a run
lists the same with its lists of elements and of padding cut. `EndsWith` is how a run
with such a list ends: its verdict, its failure and its last log line.
-/

set_option autoImplicit false

namespace BatchNorm

/-! ## Lists with cut parts -/

section

variable {α β : Type} {is : List α} {f g : α → List β}

/-- Parts that are cut, and as long together as the whole parts, are whole. -/
theorem eq_of_length_flatMap_le (h : ∀ i ∈ is, (f i).Sublist (g i))
    (hlength : (is.flatMap g).length ≤ (is.flatMap f).length) : ∀ i ∈ is, f i = g i := by
  induction is with
  | nil => exact fun i hi => absurd hi List.not_mem_nil
  | cons a is ih =>
      have hfirst := h a List.mem_cons_self
      have hothers : ∀ i ∈ is, (f i).Sublist (g i) := fun i hi => h i (List.mem_cons_of_mem a hi)
      have hle := (List.Sublist.flatMap_right is hothers).length_le
      have hle' := hfirst.length_le
      rw [List.flatMap_cons, List.flatMap_cons, List.length_append, List.length_append] at hlength
      intro i hi
      rcases List.mem_cons.mp hi with rfl | hi
      · exact hfirst.eq_of_length_le (by omega)
      · exact ih hothers (by omega) i hi

end

section

variable {channels m : Nat} {scalars elements : Nat → List Mismatch} {checkPadding : Bool}
  {padding : List Mismatch}

theorem mem_mergeMismatches_iff {cut : List Mismatch → List Mismatch} {x : Mismatch} :
    x ∈ mergeMismatches channels scalars elements checkPadding padding cut ↔
      (∃ c < channels, x ∈ scalars c ∨ x ∈ cut (elements c)) ∨
        checkPadding = true ∧ x ∈ cut padding := by
  rw [mergeMismatches, List.mem_append, List.mem_flatMap]
  simp only [List.mem_range, List.mem_append]
  cases checkPadding with
  | false => simp
  | true => simp

theorem mergeMismatches_take_sublist :
    (mergeMismatches channels scalars elements checkPadding padding (List.take m)).Sublist
      (mergeMismatches channels scalars elements checkPadding padding id) := by
  refine List.Sublist.append (List.Sublist.flatMap_right _ fun c _ => ?_) ?_
  · exact (List.Sublist.refl _).append (List.take_sublist m _)
  · cases checkPadding with
    | false => exact List.Sublist.refl _
    | true => exact List.take_sublist m _

/-- The cut list is as long as the whole one exactly if no list of elements and not the
padding is longer than the limit. -/
theorem length_mergeMismatches_take_iff :
    (mergeMismatches channels scalars elements checkPadding padding (List.take m)).length =
        (mergeMismatches channels scalars elements checkPadding padding id).length ↔
      (∀ c < channels, (elements c).length ≤ m) ∧ (checkPadding = true → padding.length ≤ m) := by
  constructor
  · intro hlength
    have hparts : ∀ c ∈ List.range channels,
        (scalars c ++ (elements c).take m).Sublist (scalars c ++ elements c) := fun c _ =>
      (List.Sublist.refl _).append (List.take_sublist m _)
    have hle := (List.Sublist.flatMap_right _ hparts).length_le
    have hle' := (List.take_sublist m padding).length_le
    rw [mergeMismatches, mergeMismatches, List.length_append, List.length_append] at hlength
    constructor
    · intro c hc
      have hwhole := eq_of_length_flatMap_le hparts (by
        cases checkPadding with
        | false => exact (Nat.add_right_cancel hlength).ge
        | true =>
            simp only [id_eq, if_true] at hlength
            omega) c (List.mem_range.mpr hc)
      exact List.take_eq_self_iff _ |>.mp (List.append_cancel_left hwhole)
    · rintro rfl
      simp only [id_eq, if_true] at hlength
      rw [List.length_take] at hlength hle'
      omega
  · rintro ⟨helements, hpadding⟩
    have hparts : ∀ c ∈ List.range channels,
        scalars c ++ (elements c).take m = scalars c ++ id (elements c) := by
      intro c hc
      rw [List.take_of_length_le (helements c (List.mem_range.mp hc))]
      rfl
    rw [mergeMismatches, mergeMismatches, List.flatMap_congr hparts]
    cases checkPadding with
    | false => rfl
    | true =>
        rw [if_pos rfl, if_pos rfl, List.take_of_length_le (hpadding rfl)]
        rfl

/-- Mismatches from different places are different. -/
theorem Attributed.nodup (h : Attributed scalars elements padding)
    (hscalars : ∀ c, (scalars c).Nodup) (helements : ∀ c, (elements c).Nodup)
    (hpadding : padding.Nodup) :
    (mergeMismatches channels scalars elements checkPadding padding id).Nodup := by
  have hbelongs : ∀ c, ∀ x ∈ scalars c ++ elements c, x.belongsTo c = true := by
    intro c x hx
    rcases List.mem_append.mp hx with hx | hx
    · exact (h.scalars c x hx).1
    · exact (h.elements c x hx).1
  have hchannel : ∀ c, (scalars c ++ elements c).Nodup := by
    intro c
    refine (hscalars c).append (helements c) fun x hx hx' => ?_
    have hsome := (h.elements c x hx').2
    rw [(h.scalars c x hx).2] at hsome
    exact absurd hsome (by decide)
  have hchannels : ((List.range channels).flatMap fun c => scalars c ++ elements c).Nodup := by
    refine List.nodup_flatMap.mpr ⟨fun c _ => hchannel c, ?_⟩
    refine List.nodup_range.pairwise_of_forall_ne fun c _ c' _ hne x hx hx' => ?_
    exact hne (Mismatch.eq_of_belongsTo (hbelongs c x hx) (hbelongs c' x hx'))
  refine hchannels.append ?_ fun x hx hx' => ?_
  · cases checkPadding with
    | false => exact List.nodup_nil
    | true => exact hpadding
  · cases checkPadding with
    | false => exact absurd hx' List.not_mem_nil
    | true =>
        obtain ⟨c, _, hx⟩ := List.mem_flatMap.mp hx
        have hown := hbelongs c x hx
        simp [Mismatch.belongsTo, (h.padding x hx').1] at hown

end

/-! ## Each mismatch once -/

section

variable {quantity quantity' : String} {c : Int} {epsilon floor : Float}

theorem nodup_scalarMismatches {actual expected : Float} :
    (scalarMismatches quantity c actual expected epsilon floor).Nodup := by
  unfold scalarMismatches
  split
  · exact List.nodup_nil
  · exact List.nodup_singleton _

theorem nodup_scalarMismatches_append {actual expected actual' expected' : Float}
    (h : quantity ≠ quantity') :
    (scalarMismatches quantity c actual expected epsilon floor ++
      scalarMismatches quantity' c actual' expected' epsilon floor).Nodup := by
  refine nodup_scalarMismatches.append nodup_scalarMismatches fun x hx hx' => h ?_
  have hquantity := congrArg Mismatch.quantity (eq_of_mem_scalarMismatches hx)
  have hquantity' := congrArg Mismatch.quantity (eq_of_mem_scalarMismatches hx')
  exact hquantity.symm.trans hquantity'

theorem nodup_siteMismatches {s : Shape} {c : Nat} {a e : Site → Float} :
    (siteMismatches quantity c s a e epsilon floor).Nodup := by
  refine List.Nodup.map_on (fun x _ y _ hxy => ?_) (s.sites_nodup.filter _)
  have hposition := Option.some.inj (congrArg Mismatch.position hxy)
  exact (inChannel_injective hposition).1

theorem nodup_cellMismatches {l : Layout} {read : Position → Float} :
    (cellMismatches quantity l read).Nodup := by
  have hnodup := (List.nodup_append'.mp l.positions_append_padding_nodup).2.1
  refine List.Nodup.map_on (fun p _ q _ hpq => ?_) (hnodup.filter _)
  exact Option.some.inj (congrArg Mismatch.position hpq)

end

theorem ForwardChannel.nodup_statisticsMismatches {ch : ForwardChannel} {config : RunConfig}
    {epsilon : Float} {c : Nat} : (ch.statisticsMismatches config epsilon c).Nodup := by
  unfold statisticsMismatches
  split
  · exact nodup_scalarMismatches_append (by decide)
  · exact List.nodup_nil

theorem BackwardChannel.nodup_parameterMismatches {ch : BackwardChannel} {config : RunConfig}
    {epsilon : Float} {c : Nat} : (ch.parameterMismatches config epsilon c).Nodup := by
  unfold parameterMismatches
  split
  · exact nodup_scalarMismatches_append (by decide)
  · exact List.nodup_nil

/-! ## The mismatches of a run -/

namespace OutputCheck

/-- What is wrong with a run whose output has the given values: a single value that a
channel reports, an element that is not near the reference, or a cell of the padding
that is not zero, if the padding is looked at. -/
inductive Mismatching (k : OutputCheck) (checkPadding : Bool) (read : Position → Float) :
    Mismatch → Prop
  | scalar {c : Nat} {x : Mismatch} (hc : c < k.layout.shape.channels) (hx : x ∈ k.scalars c) :
      Mismatching k checkPadding read x
  | element {c : Nat} {site : Site} (hc : c < k.layout.shape.channels)
      (hsite : site ∈ k.layout.shape.sites)
      (hfar : nearlyEqual (read (site.inChannel c)) (k.expected c site) k.epsilon k.floor = false) :
      Mismatching k checkPadding read (.ofValues k.quantity c (some (site.inChannel c))
        (read (site.inChannel c)) (k.expected c site) k.epsilon k.floor)
  | cell {p : Position} (hcheck : checkPadding = true) (hp : p ∈ k.layout.paddingPositions)
      (hvalue : (read p != 0) = true) :
      Mismatching k checkPadding read (.ofPadding k.quantity p (read p))

/-- The mismatches of a run, channel by channel and then those of the padding, each list
of elements and that of the padding cut. -/
def mismatches (k : OutputCheck) (checkPadding : Bool) (read : Position → Float)
    (cut : List Mismatch → List Mismatch) : List Mismatch :=
  mergeMismatches k.layout.shape.channels k.scalars (k.channelMismatches read) checkPadding
    (cellMismatches k.quantity k.layout read) cut

/-- No channel has more wrong elements than the limit, and neither has the padding more
cells that are not zero, if it is looked at. -/
def Within (k : OutputCheck) (checkPadding : Bool) (read : Position → Float) (m : Nat) : Prop :=
  (∀ c < k.layout.shape.channels, (k.channelMismatches read c).length ≤ m) ∧
    (checkPadding = true → (cellMismatches k.quantity k.layout read).length ≤ m)

variable {k : OutputCheck} {checkPadding : Bool} {read : Position → Float} {m : Nat} {x : Mismatch}

/-- All that is wrong is what the whole lists have. -/
theorem mem_mismatches_iff :
    x ∈ k.mismatches checkPadding read id ↔ k.Mismatching checkPadding read x := by
  rw [mismatches, mem_mergeMismatches_iff]
  constructor
  · rintro (⟨c, hc, hx | hx⟩ | ⟨hcheck, hx⟩)
    · exact .scalar hc hx
    · obtain ⟨site, hsite, hfar, rfl⟩ := exists_of_mem_siteMismatches hx
      exact .element hc hsite hfar
    · obtain ⟨p, hp, rfl⟩ := List.mem_map.mp hx
      obtain ⟨hp, hvalue⟩ := List.mem_filter.mp hp
      exact .cell hcheck hp hvalue
  · intro hx
    cases hx with
    | scalar hc hx => exact Or.inl ⟨_, hc, Or.inl hx⟩
    | element hc hsite hfar =>
        refine Or.inl ⟨_, hc, Or.inr (List.mem_map.mpr ⟨_, List.mem_filter.mpr ⟨hsite, ?_⟩, rfl⟩)⟩
        rw [hfar]
        rfl
    | cell hcheck hp hvalue =>
        exact Or.inr ⟨hcheck, List.mem_map.mpr ⟨_, List.mem_filter.mpr ⟨hp, hvalue⟩, rfl⟩⟩

/-- What is known of the single values of a channel and of the quantity that is checked, so
that the mismatches of a run can be told apart. -/
structure Regular (k : OutputCheck) : Prop where
  scalars : ∀ c, ∀ x ∈ k.scalars c, x.belongsTo c = true ∧ x.position = none
  nodup : ∀ c, (k.scalars c).Nodup
  quantity : k.quantity = "dst" ∨ k.quantity = "diff_src"

namespace Regular

theorem attributed (h : k.Regular) (read : Position → Float) :
    Attributed k.scalars (k.channelMismatches read) (cellMismatches k.quantity k.layout read) where
  scalars := h.scalars
  elements c x hx := by
    refine ⟨belongsTo_of_mem_siteMismatches ?_ x hx, position_of_mem_siteMismatches x hx⟩
    rcases h.quantity with hquantity | hquantity
    · rw [hquantity]
      decide
    · rw [hquantity]
      decide
  padding x hx := by
    obtain ⟨p, _, rfl⟩ := List.mem_map.mp hx
    refine ⟨decide_eq_true ?_, rfl⟩
    show s!"{k.quantity} padding" ∈ ["dst padding", "diff_src padding"]
    rcases h.quantity with hquantity | hquantity
    · rw [hquantity]
      decide
    · rw [hquantity]
      decide

theorem nodup_mismatches (h : k.Regular) (read : Position → Float) :
    (k.mismatches checkPadding read id).Nodup :=
  (h.attributed read).nodup h.nodup (fun _ => nodup_siteMismatches) nodup_cellMismatches

end Regular

/-- A tensor in a buffer has the mismatches that the values at its positions say. -/
theorem mismatches_unpacked {s : Shape} {d : Buffer} {cut : List Mismatch → List Mismatch}
    (hshape : k.layout.shape = s) :
    mergeMismatches s.channels k.scalars
        (fun c => siteMismatches k.quantity c s
          (fun x => (k.layout.unpacked d).floatAt (x.inChannel c)) (k.expected c) k.epsilon k.floor)
        checkPadding (nonzeroCells k.quantity d k.layout) cut =
      k.mismatches checkPadding (fun p => d.floatAt (k.layout.offset p)) cut := by
  subst hshape
  refine mergeMismatches_congr (fun _ _ => rfl) (fun c hc => ?_) rfl
  refine siteMismatches_congr fun x hx => ?_
  exact Layout.floatAt_unpacked (Shape.inChannel_mem_positions hx hc)

end OutputCheck

theorem ForwardBuffers.regular_outputCheck (b : ForwardBuffers) (config : RunConfig)
    (src dst : Tensor) (epsilon : Float) : (b.outputCheck config src dst epsilon).Regular where
  scalars := (ForwardChannel.attributed (b.channel src dst) config epsilon
    (.ofList .float32 []) b.outputLayout).scalars
  nodup _ := ForwardChannel.nodup_statisticsMismatches
  quantity := Or.inl rfl

theorem BackwardBuffers.regular_outputCheck (b : BackwardBuffers) (config : RunConfig)
    (src diffDst diffSrc : Tensor) (epsilon : Float) :
    (b.outputCheck config src diffDst diffSrc epsilon).Regular where
  scalars := (BackwardChannel.attributed (b.channel src diffDst diffSrc) config epsilon
    (.ofList .float32 []) b.outputLayout).scalars
  nodup _ := BackwardChannel.nodup_parameterMismatches
  quantity := Or.inr rfl

/-! ## Tensors without elements -/

/-- The mismatch of a parameter gradient that ought to be zero. -/
def Mismatch.ofGradient (quantity : String) (c : Nat) (value atol : Float) : Mismatch where
  quantity := quantity
  channel := c
  position := none
  expected := 0
  actual := value
  deviation := value.abs
  epsilon := atol

/-- What is wrong with a backward run without elements: the parameter gradients that are
not near zero, in the mode that has them. A NaN is not. -/
inductive BackwardBuffers.NonzeroGradient (b : BackwardBuffers) (config : RunConfig) :
    Mismatch → Prop
  | scale {c : Nat} (hmode : config.backwardMode = some .dataAndParameters)
      (hc : c < config.shape.channels)
      (hfar : ¬ (entry b.diffScale c).abs ≤ config.tolerance.emptyGradient) :
      NonzeroGradient b config
        (.ofGradient "diff_scale" c (entry b.diffScale c) config.tolerance.emptyGradient)
  | shift {c : Nat} (hmode : config.backwardMode = some .dataAndParameters)
      (hc : c < config.shape.channels)
      (hfar : ¬ (entry b.diffShift c).abs ≤ config.tolerance.emptyGradient) :
      NonzeroGradient b config
        (.ofGradient "diff_shift" c (entry b.diffShift c) config.tolerance.emptyGradient)

section

variable {config : RunConfig} {b : BackwardBuffers} {quantity : String} {value : Nat → Float}

theorem mem_nonzeroGradients_iff {x : Mismatch} :
    x ∈ nonzeroGradients config quantity value ↔ ∃ c < config.shape.channels,
      ¬ (value c).abs ≤ config.tolerance.emptyGradient ∧
        .ofGradient quantity c (value c) config.tolerance.emptyGradient = x := by
  simp only [nonzeroGradients, List.mem_map, List.mem_filter, List.mem_range, Bool.not_eq_true',
    decide_eq_false_iff_not, and_assoc]
  rfl

theorem nodup_nonzeroGradients : (nonzeroGradients config quantity value).Nodup := by
  refine List.Nodup.map_on (fun c _ c' _ h => ?_) (List.nodup_range.filter _)
  exact Int.ofNat.inj (congrArg Mismatch.channel h)

theorem mem_emptyVerdict_iff {x : Mismatch} :
    x ∈ (emptyVerdict config b).mismatches ↔ b.NonzeroGradient config x := by
  unfold emptyVerdict
  dsimp only
  split
  · rename_i hmode
    rw [List.mem_append, mem_nonzeroGradients_iff, mem_nonzeroGradients_iff]
    constructor
    · rintro (⟨c, hc, hfar, rfl⟩ | ⟨c, hc, hfar, rfl⟩)
      · exact .scale hmode hc hfar
      · exact .shift hmode hc hfar
    · intro hx
      cases hx with
      | scale _ hc hfar => exact Or.inl ⟨_, hc, hfar, rfl⟩
      | shift _ hc hfar => exact Or.inr ⟨_, hc, hfar, rfl⟩
  · rename_i hmode
    refine iff_of_false List.not_mem_nil fun hx => ?_
    cases hx with
    | scale h _ _ => exact hmode h
    | shift h _ _ => exact hmode h

theorem nodup_emptyVerdict : (emptyVerdict config b).mismatches.Nodup := by
  unfold emptyVerdict
  dsimp only
  split
  · refine nodup_nonzeroGradients.append nodup_nonzeroGradients fun x hx hx' => ?_
    obtain ⟨c, _, _, rfl⟩ := mem_nonzeroGradients_iff.mp hx
    obtain ⟨c', _, _, hx'⟩ := mem_nonzeroGradients_iff.mp hx'
    have hquantity : "diff_shift" = "diff_scale" := congrArg Mismatch.quantity hx'
    exact absurd hquantity (by decide)
  · exact List.nodup_nil

end

/-! ## How a run ends -/

/-- How a run ends that lists some mismatches: they are in its verdict, and if the run has
to pass and there are any, they are in the report that it fails with, which names their
channels and whose message begins with their number. The last line of its log then has
both. -/
structure EndsWith (run : Bool → Logged Verdict) (config : RunConfig) (limit : Int)
    (ms : List Mismatch) : Prop where
  result : ∃ verdict : Verdict, verdict.config = config ∧ verdict.mismatches = ms ∧
    (run false).result = .ok verdict ∧ (ms = [] → (run true).result = .ok verdict)
  failure : ms ≠ [] → ∃ report : Report, (run true).result = .error (.verification report) ∧
    report.mismatches = ms ∧ report.channels = Mismatch.channels ms ∧
    report.lines.head? = some (Mismatch.headline ms.length config.describe)
  warning : ms ≠ [] → ∀ raise,
    let count := ms.length
    let channels := ", ".intercalate ((Mismatch.channels ms).map toString)
    (run raise).log.getLast? = some ⟨.warning,
      s!"{count} mismatch(es) in channel(s) {channels} for {config.describe}"⟩

/-- A run that writes a line and concludes with a verdict ends with its mismatches. -/
theorem endsWith_of_conclude {run : Bool → Logged Verdict} {limit : Int} (verdict : Verdict)
    (message : String) (hlimit : verdict.config.tolerance.maxReported = some limit)
    (hpos : 0 ≤ limit) (h : ∀ raise, run raise = .after .debug message (conclude verdict raise)) :
    EndsWith run verdict.config limit verdict.mismatches := by
  have hresult : ∀ raise, (run raise).result = (conclude verdict raise).result := by
    intro raise
    rw [h raise]
    rfl
  have hpassed : verdict.mismatches = [] ↔ verdict.passed = true := List.isEmpty_iff.symm
  refine ⟨⟨verdict, rfl, rfl, ?_, fun hnone => ?_⟩, fun hsome => ?_, fun hsome raise => ?_⟩
  · rw [hresult, conclude_result_false]
  · rw [hresult, conclude_result_of_passed (hpassed.mp hnone)]
  · refine ⟨⟨verdict.config.describe, verdict.mismatches, limit⟩, ?_, rfl, rfl, rfl⟩
    rw [hresult]
    exact conclude_result_of_failed hlimit hpos (mt hpassed.mpr hsome)
  · intro count channels
    rw [h raise, conclude, if_neg (mt hpassed.mpr hsome)]
    rfl

section

variable {config : RunConfig} {limit : Int} {epsilon : Float}

theorem forwardVerdict_mismatches_eq {b : ForwardBuffers} {src : Tensor} {d : Buffer}
    {cut : List Mismatch → List Mismatch} (hshape : b.outputLayout.shape = config.shape) :
    (forwardVerdict config b src (b.outputLayout.unpacked d) (nonzeroCells "dst" d b.outputLayout)
      epsilon cut).mismatches =
      (b.outputCheck config src (b.outputLayout.unpacked d) epsilon).mismatches config.checkPadding
        (fun p => d.floatAt (b.outputLayout.offset p)) cut :=
  OutputCheck.mismatches_unpacked
    (k := b.outputCheck config src (b.outputLayout.unpacked d) epsilon) hshape

theorem backwardVerdict_mismatches_eq {b : BackwardBuffers} {src diffDst : Tensor} {d : Buffer}
    {cut : List Mismatch → List Mismatch} (hshape : b.outputLayout.shape = config.shape) :
    (backwardVerdict config b src diffDst (b.outputLayout.unpacked d)
      (nonzeroCells "diff_src" d b.outputLayout) epsilon cut).mismatches =
      (b.outputCheck config src diffDst (b.outputLayout.unpacked d) epsilon).mismatches
        config.checkPadding (fun p => d.floatAt (b.outputLayout.offset p)) cut :=
  OutputCheck.mismatches_unpacked
    (k := b.outputCheck config src diffDst (b.outputLayout.unpacked d) epsilon) hshape

/-- The verification of accepted buffers ends with the mismatches of its tensors. -/
theorem ForwardView.Of.endsWith {v : ForwardView} {b : ForwardBuffers} (h : v.Of b config)
    (hlimit : config.tolerance.maxReported = some limit) (hpos : 0 ≤ limit)
    (hepsilon : config.epsilon = .ok epsilon) :
    EndsWith (verifyForward config b) config limit
      ((b.outputCheck config (v.srcLayout.unpacked v.src) (v.dstLayout.unpacked v.dst)
        epsilon).mismatches config.checkPadding (fun p => v.dst.floatAt (b.outputLayout.offset p))
        (upTo (some limit))) := by
  have hshape : b.outputLayout.shape = config.shape := h.dstLayout ▸ h.dstFits.shape
  rw [h.dstLayout, ← forwardVerdict_mismatches_eq hshape]
  refine endsWith_of_conclude (forwardVerdict config b _ _ _ _ _)
    s!"verifying {config.describe}" hlimit hpos fun raise => ?_
  simp only [verifyForward, ForwardBuffers.view_eq_ok_iff.mpr h.toChecked,
    h.dstReadable.demandTexts_eq_ok, Logged.provided, h.compare_eq, hepsilon, hlimit, h.dstLayout]
  rfl

theorem BackwardView.Of.endsWith {v : BackwardView} {b : BackwardBuffers} (h : v.Of b config)
    (hlimit : config.tolerance.maxReported = some limit) (hpos : 0 ≤ limit)
    (hepsilon : config.epsilon = .ok epsilon) :
    EndsWith (verifyBackward config b) config limit
      ((b.outputCheck config (v.srcLayout.unpacked v.src) (v.diffDstLayout.unpacked v.diffDst)
        (v.diffSrcLayout.unpacked v.diffSrc) epsilon).mismatches config.checkPadding
        (fun p => v.diffSrc.floatAt (b.outputLayout.offset p)) (upTo (some limit))) := by
  have hshape : b.outputLayout.shape = config.shape := h.diffSrcLayout ▸ h.diffSrcFits.shape
  rw [h.diffSrcLayout, ← backwardVerdict_mismatches_eq hshape]
  refine endsWith_of_conclude (backwardVerdict config b _ _ _ _ _ _)
    s!"verifying {config.describe}" hlimit hpos fun raise => ?_
  simp only [verifyBackward, h.parameters, h.nonempty, Bool.false_eq_true, if_false,
    BackwardBuffers.view_eq_ok h.toChecked, h.diffSrcReadable.demandTexts_eq_ok, Logged.provided,
    h.compare_eq, hepsilon, hlimit, h.diffSrcLayout]
  rfl

/-- A forward run without elements has nothing to list. -/
theorem ForwardBuffers.endsWith_of_isEmpty {b : ForwardBuffers}
    (haccepted : b.Accepted config) (hempty : config.shape.isEmpty = true) :
    EndsWith (verifyForward config b) config limit [] := by
  have hresult : ∀ raise, (verifyForward config b raise).result = .ok ⟨config, [], {}⟩ :=
    verifyForward_result_of_isEmpty haccepted hempty
  exact ⟨⟨_, rfl, rfl, hresult false, fun _ => hresult true⟩, fun h => absurd rfl h,
    fun h => absurd rfl h⟩

/-- A backward run without elements ends with all parameter gradients that are not near
zero. -/
theorem BackwardBuffers.endsWith_of_isEmpty {b : BackwardBuffers}
    (hlimit : config.tolerance.maxReported = some limit) (hpos : 0 ≤ limit)
    (haccepted : b.Accepted config) (hempty : config.shape.isEmpty = true) :
    EndsWith (verifyBackward config b) config limit (emptyVerdict config b).mismatches := by
  obtain ⟨parameters, hparameters, _⟩ := haccepted.checks
  refine endsWith_of_conclude (emptyVerdict config b)
    s!"empty tensor in {config.describe}" hlimit hpos fun raise => ?_
  simp only [verifyBackward, hparameters, hempty, if_true,
    Shape.demandTexts_eq_ok_iff.mpr haccepted.writable, Logged.provided,
    emptyMismatches_eq hparameters]
  rfl

/-! ## Accepted runs -/

/-- The check that a run with elements makes of its output has a property: the check is
made of the unpacked tensors, and the values that it reads are in the output buffer. There
is a largest deviation for every number of elements that a machine can hold. -/
def ForwardBuffers.Checked (b : ForwardBuffers) (config : RunConfig)
    (property : OutputCheck → (Position → Float) → Prop) : Prop :=
  ∃ (s d : Buffer) (src dst : Tensor),
    (b.src = some s ∧ b.srcLayout.unpack s = .ok src) ∧
    (b.dst = some d ∧ b.outputLayout.unpack d = .ok dst) ∧
    b.outputLayout.shape = config.shape ∧
    (s.size < 2 ^ 64 → ∃ epsilon, config.epsilon = .ok epsilon) ∧
    ∀ epsilon, config.epsilon = .ok epsilon →
      property (b.outputCheck config src dst epsilon) fun p => d.floatAt (b.outputLayout.offset p)

/-- The same for the gradient with respect to the input. -/
def BackwardBuffers.Checked (b : BackwardBuffers) (config : RunConfig)
    (property : OutputCheck → (Position → Float) → Prop) : Prop :=
  ∃ (s g d : Buffer) (src diffDst diffSrc : Tensor),
    (b.src = some s ∧ b.srcLayout.unpack s = .ok src) ∧
    (b.diffDst = some g ∧ b.gradientLayout.unpack g = .ok diffDst) ∧
    (b.diffSrc = some d ∧ b.outputLayout.unpack d = .ok diffSrc) ∧
    b.outputLayout.shape = config.shape ∧
    (s.size < 2 ^ 64 → ∃ epsilon, config.epsilon = .ok epsilon) ∧
    ∀ epsilon, config.epsilon = .ok epsilon →
      property (b.outputCheck config src diffDst diffSrc epsilon) fun p =>
        d.floatAt (b.outputLayout.offset p)

variable {m : Nat} {property : OutputCheck → (Position → Float) → Prop}

/-- An accepted run with elements has each property that follows from how it ends. -/
theorem ForwardBuffers.checked_of_endsWith {b : ForwardBuffers}
    (hlimit : config.tolerance.maxReported = some (m : Int))
    (haccepted : b.Accepted config) (hnonempty : config.shape.isEmpty = false)
    (hproperty : ∀ k read, k.Regular → EndsWith (verifyForward config b) config m
      (k.mismatches config.checkPadding read (List.take m)) → property k read) :
    b.Checked config property := by
  obtain ⟨v, h⟩ := haccepted.exists_view hnonempty
  refine ⟨v.src, v.dst, v.srcLayout.unpacked v.src, v.dstLayout.unpacked v.dst,
    ⟨(activation_eq_ok_iff.mp h.src).1, h.srcLayout ▸ h.srcFits.unpack⟩,
    ⟨(activation_eq_ok_iff.mp h.dst).1, h.dstLayout ▸ h.dstFits.unpack⟩,
    h.dstLayout ▸ h.dstFits.shape, fun hsize => ?_, fun epsilon hepsilon => ?_⟩
  · have hcount := h.srcFits.reductionSize_le (channels_pos hnonempty)
    exact ⟨_, epsilon_eq_ok (lt_of_le_of_lt hcount hsize)⟩
  · exact hproperty _ _ (b.regular_outputCheck config _ _ epsilon) (h.endsWith hlimit m.cast_nonneg hepsilon)

theorem BackwardBuffers.checked_of_endsWith {b : BackwardBuffers}
    (hlimit : config.tolerance.maxReported = some (m : Int)) (haccepted : b.Accepted config)
    (hnonempty : config.shape.isEmpty = false)
    (hproperty : ∀ k read, k.Regular → EndsWith (verifyBackward config b) config m
      (k.mismatches config.checkPadding read (List.take m)) → property k read) :
    b.Checked config property := by
  obtain ⟨v, h⟩ := haccepted.exists_view hnonempty
  refine ⟨v.src, v.diffDst, v.diffSrc, v.srcLayout.unpacked v.src,
    v.diffDstLayout.unpacked v.diffDst, v.diffSrcLayout.unpacked v.diffSrc,
    ⟨(activation_eq_ok_iff.mp h.src).1, h.srcLayout ▸ h.srcFits.unpack⟩,
    ⟨(activation_eq_ok_iff.mp h.diffDst).1, h.diffDstLayout ▸ h.diffDstFits.unpack⟩,
    ⟨(activation_eq_ok_iff.mp h.diffSrc).1, h.diffSrcLayout ▸ h.diffSrcFits.unpack⟩,
    h.diffSrcLayout ▸ h.diffSrcFits.shape, fun hsize => ?_, fun epsilon hepsilon => ?_⟩
  · have hcount := h.srcFits.reductionSize_le (channels_pos hnonempty)
    exact ⟨_, epsilon_eq_ok (lt_of_le_of_lt hcount hsize)⟩
  · exact hproperty _ _ (b.regular_outputCheck config _ _ _ epsilon) (h.endsWith hlimit m.cast_nonneg hepsilon)

end

end BatchNorm
