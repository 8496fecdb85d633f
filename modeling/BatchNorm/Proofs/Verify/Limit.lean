import BatchNorm.Proofs.Verify.Independence

/-!
# What a limit decides

The limit on what is reported cuts the mismatching elements of each channel and the
padding before a run is judged. A limit above zero leaves something of each list that
has something, so it decides nothing but the length of a report. A limit of zero drops
every list, and one of `-k` drops those of at most `k` mismatches: a run then passes
although there is something wrong with it. `verdict_of_limit` says of every limit which
runs it lets pass, in terms of the verdict on the same run without a limit.
-/

set_option autoImplicit false

namespace BatchNorm

/-! ## Lists that a limit drops -/

/-- A limit leaves nothing of a list with so many items. -/
def DropsAll (limit : Option Int) (count : Nat) : Prop :=
  count = 0 ∨ ∃ m, limit = some m ∧ (m = 0 ∨ (count : Int) ≤ -m)

/-- Limits above zero, and no limit. -/
def Ample (limit : Option Int) : Prop := ∀ m, limit = some m → 1 ≤ m

theorem upTo_eq_nil_iff {α : Type} {limit : Option Int} {xs : List α} :
    upTo limit xs = [] ↔ DropsAll limit xs.length := by
  match limit with
  | none => simp [upTo, DropsAll]
  | some (.ofNat k) =>
      simp only [upTo, DropsAll, List.take_eq_nil_iff, List.length_eq_zero_iff, Option.some.injEq,
        exists_eq_left']
      constructor
      · rintro (hk | hxs)
        · exact Or.inr (Or.inl (by simp [hk]))
        · exact Or.inl hxs
      · rintro (hxs | hk | hle)
        · exact Or.inr hxs
        · exact Or.inl (Int.ofNat.inj hk)
        · exact Or.inr (List.length_eq_zero_iff.mp (by simp at hle; omega))
  | some (.negSucc k) =>
      simp only [upTo, DropsAll, List.take_eq_nil_iff, List.length_eq_zero_iff, Option.some.injEq,
        exists_eq_left', Int.neg_negSucc]
      constructor
      · rintro (hle | hxs)
        · exact Or.inr (Or.inr (by omega))
        · exact Or.inl hxs
      · rintro (hxs | hzero | hle)
        · exact Or.inr hxs
        · exact absurd hzero (by omega)
        · exact Or.inl (by omega)

theorem dropsAll_iff_of_ample {limit : Option Int} {count : Nat} (h : Ample limit) :
    DropsAll limit count ↔ count = 0 := by
  constructor
  · rintro (hzero | ⟨m, hm, hdrops⟩)
    · exact hzero
    · have hpos := h m hm
      omega
  · exact Or.inl

/-! ## Verdicts that a limit drops -/

namespace Verdict

/-- The mismatches of the elements of a channel. -/
def elementMismatches (v : Verdict) (c : Nat) : List Mismatch :=
  (v.mismatches.filter (·.belongsTo c)).filter (·.position.isSome)

def paddingMismatches (v : Verdict) : List Mismatch := v.mismatches.filter (·.isPadding)

/-- A limit leaves nothing of what a verdict found. Single values have no position, and
no limit drops them. -/
structure DroppedBy (v : Verdict) (limit : Option Int) : Prop where
  positioned : ∀ m ∈ v.mismatches, m.position.isSome = true
  elements : ∀ c < v.config.shape.channels, DropsAll limit (v.elementMismatches c).length
  padding : DropsAll limit v.paddingMismatches.length

theorem droppedBy_of_passed {v : Verdict} {limit : Option Int} (h : v.passed = true) :
    v.DroppedBy limit := by
  have hnone : v.mismatches = [] := List.isEmpty_iff.mp h
  refine ⟨?_, fun c _ => Or.inl ?_, Or.inl ?_⟩
  · rw [hnone]
    exact fun m hm => absurd hm List.not_mem_nil
  · rw [elementMismatches, hnone]
    rfl
  · rw [paddingMismatches, hnone]
    rfl

/-- No limit drops more than that of zero. -/
theorem DroppedBy.zero {v : Verdict} {limit : Option Int} (h : v.DroppedBy limit) :
    v.DroppedBy (some 0) where
  positioned := h.positioned
  elements _ _ := Or.inr ⟨0, rfl, Or.inl rfl⟩
  padding := Or.inr ⟨0, rfl, Or.inl rfl⟩

theorem droppedBy_congr {v : Verdict} {limit limit' : Option Int} (h : Ample limit)
    (h' : Ample limit') : v.DroppedBy limit ↔ v.DroppedBy limit' := by
  have hdrops : ∀ count, DropsAll limit count ↔ DropsAll limit' count := fun count => by
    rw [dropsAll_iff_of_ample h, dropsAll_iff_of_ample h']
  constructor
  · intro hv
    exact ⟨hv.positioned, fun c hc => (hdrops _).mp (hv.elements c hc), (hdrops _).mp hv.padding⟩
  · intro hv
    exact ⟨hv.positioned, fun c hc => (hdrops _).mpr (hv.elements c hc), (hdrops _).mpr hv.padding⟩

end Verdict

theorem mergeMismatches_eq_nil_iff {channels : Nat} {scalars elements : Nat → List Mismatch}
    {checkPadding : Bool} {padding : List Mismatch} {cut : List Mismatch → List Mismatch} :
    mergeMismatches channels scalars elements checkPadding padding cut = [] ↔
      (∀ c < channels, scalars c = [] ∧ cut (elements c) = []) ∧
        (checkPadding = true → cut padding = []) := by
  simp only [mergeMismatches, List.append_eq_nil_iff, List.flatMap_eq_nil_iff, List.mem_range]
  cases checkPadding with
  | false => simp
  | true => simp

/-- Where the mismatches of a run come from: single values and elements belong to their
channel, and elements and cells of the padding have a position. -/
structure Attributed (scalars elements : Nat → List Mismatch) (padding : List Mismatch) : Prop where
  scalars : ∀ c, ∀ m ∈ scalars c, m.belongsTo c = true ∧ m.position = none
  elements : ∀ c, ∀ m ∈ elements c, m.belongsTo c = true ∧ m.position.isSome = true
  padding : ∀ m ∈ padding, m.isPadding = true ∧ m.position.isSome = true

namespace Attributed

variable {scalars elements : Nat → List Mismatch} {padding : List Mismatch} {checkPadding : Bool}
  {v v' : Verdict} {limit : Option Int}

theorem elementMismatches_eq (h : Attributed scalars elements padding)
    (hfull : v.mismatches =
      mergeMismatches v.config.shape.channels scalars elements checkPadding padding id)
    {c : Nat} (hc : c < v.config.shape.channels) : v.elementMismatches c = elements c := by
  have hchannel : (mergeMismatches v.config.shape.channels scalars elements checkPadding padding
      id).filter (·.belongsTo c) = scalars c ++ id (elements c) :=
    filter_mergeMismatches hc (fun _ _ hm => hm) (fun i m hm => (h.scalars i m hm).1)
      (fun i m hm => (h.elements i m hm).1) (fun m hm => (h.padding m hm).1)
  have hscalars : (scalars c).filter (·.position.isSome) = [] := by
    refine List.filter_eq_nil_iff.mpr fun m hm => ?_
    rw [(h.scalars c m hm).2]
    decide
  have helements : (elements c).filter (·.position.isSome) = elements c :=
    List.filter_eq_self.mpr fun m hm => (h.elements c m hm).2
  rw [Verdict.elementMismatches, hfull, hchannel, List.filter_append, hscalars, List.nil_append]
  exact helements

theorem paddingMismatches_eq (h : Attributed scalars elements padding)
    (hfull : v.mismatches =
      mergeMismatches v.config.shape.channels scalars elements checkPadding padding id) :
    v.paddingMismatches = if checkPadding then padding else [] := by
  have hchannels : ((List.range v.config.shape.channels).flatMap fun c =>
      scalars c ++ elements c).filter (·.isPadding) = [] := by
    refine List.filter_eq_nil_iff.mpr fun m hm hpadding => ?_
    obtain ⟨c, _, hm⟩ := List.mem_flatMap.mp hm
    have hbelongs : m.belongsTo c = true := by
      rcases List.mem_append.mp hm with hm | hm
      · exact (h.scalars c m hm).1
      · exact (h.elements c m hm).1
    simp [Mismatch.belongsTo, hpadding] at hbelongs
  rw [Verdict.paddingMismatches, hfull, mergeMismatches, List.filter_append]
  simp only [id_eq, hchannels, List.nil_append]
  cases checkPadding with
  | false => rfl
  | true => exact List.filter_eq_self.mpr fun m hm => (h.padding m hm).1

/-- A verdict passes exactly when its limit drops all that is found without one. -/
theorem passed_iff (h : Attributed scalars elements padding)
    (hfull : v.mismatches =
      mergeMismatches v.config.shape.channels scalars elements checkPadding padding id)
    (hcut : v'.mismatches =
      mergeMismatches v.config.shape.channels scalars elements checkPadding padding (upTo limit)) :
    v'.passed = true ↔ v.DroppedBy limit := by
  have hpadding := h.paddingMismatches_eq hfull
  rw [Verdict.passed, hcut, List.isEmpty_iff, mergeMismatches_eq_nil_iff]
  constructor
  · rintro ⟨hchannels, hcells⟩
    refine ⟨fun m hm => ?_, fun c hc => ?_, ?_⟩
    · rw [hfull] at hm
      rcases mem_of_mem_mergeMismatches (fun _ _ hm => hm) hm with ⟨c, hc, hm | hm⟩ | hm
      · rw [(hchannels c hc).1] at hm
        exact absurd hm List.not_mem_nil
      · exact (h.elements c m hm).2
      · exact (h.padding m hm).2
    · rw [h.elementMismatches_eq hfull hc]
      exact upTo_eq_nil_iff.mp (hchannels c hc).2
    · rw [hpadding]
      cases checkPadding with
      | false => exact Or.inl rfl
      | true => exact upTo_eq_nil_iff.mp (hcells rfl)
  · intro hv
    refine ⟨fun c hc => ⟨?_, ?_⟩, fun hcheck => ?_⟩
    · -- a mismatch of a single value would be in the verdict, without a position
      refine List.eq_nil_iff_forall_not_mem.mpr fun m hm => ?_
      have hmem : m ∈ v.mismatches := by
        rw [hfull, mergeMismatches]
        refine List.mem_append_left _ (List.mem_flatMap.mpr ⟨c, List.mem_range.mpr hc, ?_⟩)
        exact List.mem_append_left _ hm
      have hsome := hv.positioned m hmem
      rw [(h.scalars c m hm).2] at hsome
      exact absurd hsome (by decide)
    · have hdrops := hv.elements c hc
      rw [h.elementMismatches_eq hfull hc] at hdrops
      exact upTo_eq_nil_iff.mpr hdrops
    · have hdrops := hv.padding
      rw [hpadding, if_pos hcheck] at hdrops
      exact upTo_eq_nil_iff.mpr hdrops

end Attributed

theorem position_of_mem_scalarMismatches {quantity : String} {c : Int}
    {actual expected epsilon floor : Float} :
    ∀ m ∈ scalarMismatches quantity c actual expected epsilon floor, m.position = none := by
  intro m hm
  rw [eq_of_mem_scalarMismatches hm]
  rfl

theorem position_of_mem_siteMismatches {quantity : String} {c : Int} {s : Shape}
    {a e : Site → Float} {epsilon floor : Float} :
    ∀ m ∈ siteMismatches quantity c s a e epsilon floor, m.position.isSome = true := by
  intro m hm
  obtain ⟨x, _, _, rfl⟩ := exists_of_mem_siteMismatches hm
  rfl

theorem position_of_mem_nonzeroCells {quantity : String} {b : Buffer} {l : Layout} :
    ∀ m ∈ nonzeroCells quantity b l, m.position.isSome = true := by
  intro m hm
  obtain ⟨p, _, rfl⟩ := List.mem_map.mp hm
  rfl

theorem ForwardChannel.attributed (channel : Nat → ForwardChannel) (config : RunConfig)
    (epsilon : Float) (d : Buffer) (l : Layout) :
    Attributed (fun c => (channel c).statisticsMismatches config epsilon c)
      (fun c => (channel c).outputMismatches config epsilon c) (nonzeroCells "dst" d l) where
  scalars c m hm := by
    refine ⟨belongsTo_of_mem_statisticsMismatches m hm, ?_⟩
    unfold statisticsMismatches at hm
    split at hm
    · rcases List.mem_append.mp hm with hm | hm
      · exact position_of_mem_scalarMismatches m hm
      · exact position_of_mem_scalarMismatches m hm
    · exact absurd hm List.not_mem_nil
  elements c m hm := ⟨belongsTo_of_mem_outputMismatches m hm, position_of_mem_siteMismatches m hm⟩
  padding m hm :=
    ⟨isPadding_of_mem_nonzeroCells (by decide) m hm, position_of_mem_nonzeroCells m hm⟩

theorem BackwardChannel.attributed (channel : Nat → BackwardChannel) (config : RunConfig)
    (epsilon : Float) (d : Buffer) (l : Layout) :
    Attributed (fun c => (channel c).parameterMismatches config epsilon c)
      (fun c => (channel c).inputMismatches config epsilon c) (nonzeroCells "diff_src" d l) where
  scalars c m hm := by
    refine ⟨belongsTo_of_mem_parameterMismatches m hm, ?_⟩
    unfold parameterMismatches at hm
    split at hm
    · rcases List.mem_append.mp hm with hm | hm
      · exact position_of_mem_scalarMismatches m hm
      · exact position_of_mem_scalarMismatches m hm
    · exact absurd hm List.not_mem_nil
  elements c m hm := ⟨belongsTo_of_mem_inputMismatches m hm, position_of_mem_siteMismatches m hm⟩
  padding m hm :=
    ⟨isPadding_of_mem_nonzeroCells (by decide) m hm, position_of_mem_nonzeroCells m hm⟩

/-! ## Runs -/

/-- Whether a run ends with a verdict that passes. -/
def Logged.passes (run : Logged Verdict) : Bool :=
  match run.result with
  | .ok verdict => verdict.passed
  | .error _ => false

theorem conclude_passes (verdict : Verdict) (raise : Bool) :
    (conclude verdict raise).passes = verdict.passed := by
  by_cases hpassed : verdict.passed = true
  · rw [Logged.passes, conclude_result_of_passed hpassed]
  · rw [Logged.passes, conclude_result, Verdict.demandPassed, if_neg hpassed]
    cases raise with
    | false => rfl
    | true =>
        have hfailed := Bool.eq_false_iff.mpr hpassed
        rcases verdict.report with e | report
        · exact hfailed.symm
        · exact hfailed.symm

theorem passes_iff {run : Logged Verdict} {epsilon : Except Failure Float}
    {verdict : Float → Verdict} {raise : Bool}
    (h : run.result = epsilon >>= fun e => (conclude (verdict e) raise).result) :
    run.passes = true ↔ ∃ e, epsilon = .ok e ∧ (verdict e).passed = true := by
  rw [Logged.passes, h]
  cases epsilon with
  | error failure => exact iff_of_false nofun (by rintro ⟨e, he, _⟩; exact absurd he nofun)
  | ok e =>
      have hconclude := conclude_passes (verdict e) raise
      rw [Logged.passes] at hconclude
      rw [ok_bind, hconclude]
      constructor
      · intro hpassed
        exact ⟨e, rfl, hpassed⟩
      · rintro ⟨e', he, hpassed⟩
        rwa [Except.ok.inj he]

/-- The configuration with another limit. -/
def RunConfig.withLimit (config : RunConfig) (limit : Option Int) : RunConfig :=
  { config with tolerance := { config.tolerance with maxReported := limit } }

variable {config : RunConfig} {limit : Option Int}

theorem Indexable.withLimit {arrays : List Buffer} {output : Layout}
    (h : Indexable config arrays output) : Indexable (config.withLimit limit) arrays output :=
  ⟨h.counted, h.sites, h.padding⟩

theorem ForwardView.Of.withLimit {v : ForwardView} {b : ForwardBuffers} (h : v.Of b config) :
    v.Of b (config.withLimit limit) :=
  ⟨⟨h.nonempty, h.src, h.dst, h.statistics, h.affine, h.srcLayout, h.dstLayout⟩,
    h.indexable.withLimit⟩

theorem BackwardView.Of.withLimit {v : BackwardView} {b : BackwardBuffers} (h : v.Of b config) :
    v.Of b (config.withLimit limit) :=
  ⟨⟨h.nonempty, h.parameters, h.src, h.diffDst, h.diffSrc, h.mean, h.variance, h.scale,
    h.srcLayout, h.diffDstLayout, h.diffSrcLayout⟩, h.indexable.withLimit⟩

theorem ForwardBuffers.Accepted.withLimit {b : ForwardBuffers} (h : b.Accepted config) :
    b.Accepted (config.withLimit limit) :=
  ⟨h.checks, h.writable, fun hnonempty => (h.indexable hnonempty).withLimit⟩

theorem BackwardBuffers.Accepted.withLimit {b : BackwardBuffers} (h : b.Accepted config) :
    b.Accepted (config.withLimit limit) :=
  ⟨h.checks, h.writable, fun hnonempty => (h.indexable hnonempty).withLimit⟩

/-- A run passes with a limit exactly when the verdicts of the run without one are dropped
by it. -/
theorem passes_iff_droppedBy {run unlimited : Logged Verdict} {epsilon : Except Failure Float}
    {cut full : Float → Verdict} {raise : Bool}
    (hrun : run.result = epsilon >>= fun e => (conclude (cut e) raise).result)
    (hunlimited : unlimited.result = epsilon >>= fun e => (conclude (full e) false).result)
    (hpassed : ∀ e, (cut e).passed = true ↔ (full e).DroppedBy limit) :
    run.passes = true ↔ ∃ v, unlimited.result = .ok v ∧ v.DroppedBy limit := by
  rw [passes_iff hrun, hunlimited, bind_conclude_false]
  constructor
  · rintro ⟨e, rfl, hcut⟩
    exact ⟨full e, rfl, (hpassed e).mp hcut⟩
  · rintro ⟨v, hv, hdropped⟩
    cases epsilon with
    | error failure => exact absurd hv nofun
    | ok e =>
        obtain rfl := Except.ok.inj hv
        exact ⟨e, rfl, (hpassed e).mpr hdropped⟩

theorem ForwardBuffers.passes_iff {b : ForwardBuffers} (haccepted : b.Accepted config)
    (raise : Bool) :
    (verifyForward (config.withLimit limit) b raise).passes = true ↔
      ∃ v, (verifyForward (config.withLimit none) b false).result = .ok v ∧ v.DroppedBy limit := by
  have haccepted' : ∀ limit, b.Accepted (config.withLimit limit) := fun _ => haccepted.withLimit
  cases hempty : config.shape.isEmpty with
  | true =>
      have hresult : ∀ limit raise, (verifyForward (config.withLimit limit) b raise).result =
          .ok ⟨config.withLimit limit, [], {}⟩ := fun limit raise =>
        verifyForward_result_of_isEmpty (haccepted' limit) hempty raise
      rw [Logged.passes, hresult, hresult]
      exact iff_of_true rfl ⟨_, rfl, Verdict.droppedBy_of_passed rfl⟩
  | false =>
      obtain ⟨v, h⟩ := haccepted.exists_view hempty
      exact passes_iff_droppedBy (h.withLimit.verifyForward_result raise)
        (h.withLimit.verifyForward_result false) fun e =>
          (ForwardChannel.attributed (b.channel _ _) config e v.dst v.dstLayout).passed_iff rfl rfl

theorem position_of_mem_emptyVerdict {b : BackwardBuffers} :
    ∀ m ∈ (emptyVerdict config b).mismatches, m.position = none := by
  intro m hm
  unfold emptyVerdict at hm
  split at hm
  · rcases List.mem_append.mp hm with hm | hm
    · obtain ⟨c, _, rfl⟩ := List.mem_map.mp hm
      rfl
    · obtain ⟨c, _, rfl⟩ := List.mem_map.mp hm
      rfl
  · exact absurd hm List.not_mem_nil

theorem BackwardBuffers.passes_iff {b : BackwardBuffers} (haccepted : b.Accepted config)
    (raise : Bool) :
    (verifyBackward (config.withLimit limit) b raise).passes = true ↔
      ∃ v, (verifyBackward (config.withLimit none) b false).result = .ok v ∧ v.DroppedBy limit := by
  have haccepted' : ∀ limit, b.Accepted (config.withLimit limit) := fun _ => haccepted.withLimit
  cases hempty : config.shape.isEmpty with
  | true =>
      have hresult : ∀ limit raise, (verifyBackward (config.withLimit limit) b raise).result =
          (conclude (emptyVerdict (config.withLimit limit) b) raise).result := fun limit raise =>
        verifyBackward_result_of_isEmpty (haccepted' limit) hempty raise
      have hpasses := conclude_passes (emptyVerdict (config.withLimit limit) b) raise
      rw [Logged.passes, ← hresult] at hpasses
      rw [Logged.passes, hpasses, hresult, conclude_result_false]
      -- what a run without elements finds is single values, the same for every limit
      constructor
      · intro hpassed
        exact ⟨_, rfl, Verdict.droppedBy_of_passed hpassed⟩
      · rintro ⟨v, hv, hdropped⟩
        obtain rfl := Except.ok.inj hv
        refine List.isEmpty_iff.mpr (List.eq_nil_iff_forall_not_mem.mpr fun m hm => ?_)
        have hsome := hdropped.positioned m hm
        rw [position_of_mem_emptyVerdict m hm] at hsome
        exact absurd hsome (by decide)
  | false =>
      obtain ⟨v, h⟩ := haccepted.exists_view hempty
      exact passes_iff_droppedBy (h.withLimit.verifyBackward_result raise)
        (h.withLimit.verifyBackward_result false) fun e =>
          (BackwardChannel.attributed (b.channel _ _ _) config e v.diffSrc v.diffSrcLayout).passed_iff
            rfl rfl

/-- A run that passes with some limit passes with a limit of zero. -/
theorem BackwardBuffers.passes_zero {b : BackwardBuffers} (haccepted : b.Accepted config)
    {raise : Bool} (h : (verifyBackward (config.withLimit limit) b raise).passes = true) :
    (verifyBackward (config.withLimit (some 0)) b raise).passes = true := by
  obtain ⟨v, hv, hdropped⟩ := (passes_iff haccepted raise).mp h
  exact (passes_iff haccepted raise).mpr ⟨v, hv, hdropped.zero⟩

/-- Runs that are decided by what a limit drops agree on all limits above zero. -/
theorem passes_eq_of_ample {run : Option Int → Logged Verdict} {unlimited : Except Failure Verdict}
    (hrun : ∀ limit, (run limit).passes = true ↔ ∃ v, unlimited = .ok v ∧ v.DroppedBy limit)
    {limit limit' : Option Int} (h : Ample limit) (h' : Ample limit') :
    (run limit).passes = (run limit').passes := by
  rw [Bool.eq_iff_iff, hrun, hrun]
  simp only [Verdict.droppedBy_congr h h']

/-- **Limits.** An accepted run passes with a limit exactly when that limit drops all that
the same run finds without one. Hence all limits above zero agree on whether it passes,
and agree with the run that has no limit. -/
theorem verdict_of_limit (config : RunConfig) :
    (∀ b : ForwardBuffers, b.Accepted config → ∀ raise : Bool,
      (∀ limit, (verifyForward (config.withLimit limit) b raise).passes = true ↔
        ∃ v, (verifyForward (config.withLimit none) b false).result = .ok v ∧ v.DroppedBy limit) ∧
      ∀ limit limit', Ample limit → Ample limit' →
        (verifyForward (config.withLimit limit) b raise).passes =
          (verifyForward (config.withLimit limit') b raise).passes) ∧
    (∀ b : BackwardBuffers, b.Accepted config → ∀ raise : Bool,
      (∀ limit, (verifyBackward (config.withLimit limit) b raise).passes = true ↔
        ∃ v, (verifyBackward (config.withLimit none) b false).result = .ok v ∧
          v.DroppedBy limit) ∧
      ∀ limit limit', Ample limit → Ample limit' →
        (verifyBackward (config.withLimit limit) b raise).passes =
          (verifyBackward (config.withLimit limit') b raise).passes) := by
  constructor
  · intro b haccepted raise
    have hpasses := fun limit => @ForwardBuffers.passes_iff config limit b haccepted raise
    exact ⟨hpasses, fun limit limit' h h' => passes_eq_of_ample hpasses h h'⟩
  · intro b haccepted raise
    have hpasses := fun limit => @BackwardBuffers.passes_iff config limit b haccepted raise
    exact ⟨hpasses, fun limit limit' h h' => passes_eq_of_ample hpasses h h'⟩

theorem verdict_of_limit_twoChannels :
    twoChannelsBuffers.Accepted twoChannels ∧ Ample (some 1) ∧ Ample (some 32) ∧
      (verifyForward (twoChannels.withLimit (some 1)) twoChannelsBuffers false).passes =
        (verifyForward (twoChannels.withLimit (some 32)) twoChannelsBuffers false).passes := by
  have haccepted := twoChannelsBuffers_accepted
  have hone : Ample (some 1) := by
    intro m hm
    rw [← Option.some.inj hm]
  have hmany : Ample (some 32) := by
    intro m hm
    rw [← Option.some.inj hm]
    decide
  exact ⟨haccepted, hone, hmany,
    ((verdict_of_limit twoChannels).1 _ haccepted false).2 _ _ hone hmany⟩

/-- A limit that lets nothing through makes a run pass that is wrong in both channels and
in the padding, and so does one that drops the last mismatch of each list. -/
theorem limit_changes_verdict :
    twoChannelsBuffers.Accepted twoChannels ∧
      (verifyForward (twoChannels.withLimit (some 1)) twoChannelsBuffers false).passes = false ∧
      (verifyForward (twoChannels.withLimit (some 0)) twoChannelsBuffers false).passes = true ∧
      (verifyForward (twoChannels.withLimit (some (-1))) twoChannelsBuffers true).passes = true :=
  ⟨twoChannelsBuffers_accepted, by decide +kernel⟩

end BatchNorm
