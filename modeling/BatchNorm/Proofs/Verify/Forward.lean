import BatchNorm.Proofs.Verify.Accepted
import BatchNorm.Verify.Forward

/-!
# The forward verification, channel by channel

What the verification of a forward run reads of a channel is a handful of values:
`ForwardChannel`. From them alone come the statistics of the channel, the values
expected in the output and everything that is out of tolerance, by plain formulas
that know no layout and cannot fail. On accepted buffers the verification is these
formulas, applied to the unpacked tensors (`checkChannel_eq_ok`, `compare_eq`).
-/

set_option autoImplicit false

namespace BatchNorm

/-- What the verification of a forward run reads of one channel. -/
structure ForwardChannel where
  src : Site → Float
  dst : Site → Float
  reported : Statistics Float
  affine : Affine Float

namespace ForwardChannel

variable (ch : ForwardChannel) (config : RunConfig) (epsilon : Float) (c : Nat)

/-- The statistics that the channel is normalized with. -/
def statistics : Statistics Float :=
  if config.normalization.computeStatistics then .ofValues (config.shape.sites.map ch.src)
  else ch.reported

/-- The value that the output ought to have at a site. -/
def expected (x : Site) : Float :=
  let used := ch.statistics config
  let affine := if config.normalization.hasAffine then some ch.affine else none
  config.precision.stored <| Affine.apply affine <|
    (ch.src x - used.mean) * inverseDeviation used.variance config.normalization.epsilon

/-- The mismatches of the reported statistics, which only a training run computes
and reports. -/
def statisticsMismatches : List Mismatch :=
  let floor := config.tolerance.statisticsFloor
  let used := ch.statistics config
  if config.normalization.computeStatistics && config.normalization.isTraining then
    scalarMismatches "mean" c ch.reported.mean used.mean epsilon floor ++
      scalarMismatches "variance" c ch.reported.variance used.variance epsilon floor
  else []

/-- The mismatches of the output. -/
def outputMismatches : List Mismatch :=
  siteMismatches "dst" c config.shape ch.dst (ch.expected config) epsilon
    (config.tolerance.outputFloorFor config.precision)

variable {ch config epsilon c}

theorem quantity_of_mem_statisticsMismatches {x : Mismatch}
    (hx : x ∈ ch.statisticsMismatches config epsilon c) :
    x.quantity = "mean" ∨ x.quantity = "variance" := by
  unfold statisticsMismatches at hx
  split at hx
  · rcases List.mem_append.mp hx with hx | hx
    · exact Or.inl (eq_of_mem_scalarMismatches hx ▸ rfl)
    · exact Or.inr (eq_of_mem_scalarMismatches hx ▸ rfl)
  · exact absurd hx List.not_mem_nil

end ForwardChannel

namespace ForwardBuffers

/-- Channel `c` of a run with the given tensors. -/
def channel (b : ForwardBuffers) (src dst : Tensor) (c : Nat) : ForwardChannel where
  src x := widen (src.singleAt (x.inChannel c))
  dst x := dst.floatAt (x.inChannel c)
  reported := ⟨entry b.mean c, entry b.variance c⟩
  affine := ⟨entry b.scale c, entry b.shift c⟩

/-! ## What is accepted -/

/-- The statistics buffers that take part in a run. -/
def statistics (b : ForwardBuffers) (config : RunConfig) :
    Except Failure (Option (Statistics Buffer)) :=
  if config.normalization.exposesStatistics then do
    let mean ← channelArray config.shape.channels .mean b.mean
    let variance ← channelArray config.shape.channels .variance b.variance
    return some ⟨mean, variance⟩
  else return none

/-- The buffers of scales and shifts that take part in a run. -/
def affine (b : ForwardBuffers) (config : RunConfig) : Except Failure (Option (Affine Buffer)) :=
  if config.normalization.hasAffine then do
    let scale ← channelArray config.shape.channels .scale b.scale
    let shift ← channelArray config.shape.channels .shift b.shift
    return some ⟨scale, shift⟩
  else return none

theorem view_eq (b : ForwardBuffers) (config : RunConfig) :
    b.view config = do
      let src ← activation config config.precision.elementType .src b.src b.srcLayout
      let dst ← activation config config.precision.elementType .dst b.dst b.outputLayout
      if config.shape.isEmpty then return none
      let statistics ← b.statistics config
      let affine ← b.affine config
      return some
        { src, dst, statistics, affine, srcLayout := b.srcLayout, dstLayout := b.outputLayout } := by
  unfold view statistics affine
  cases config.normalization.exposesStatistics <;> cases config.normalization.hasAffine <;>
    simp [bind_assoc]

end ForwardBuffers

/-- The buffers that the checks of a run with elements let pass. -/
structure ForwardView.Checked (v : ForwardView) (b : ForwardBuffers) (config : RunConfig) :
    Prop where
  nonempty : config.shape.isEmpty = false
  src : activation config config.precision.elementType .src b.src b.srcLayout = .ok v.src
  dst : activation config config.precision.elementType .dst b.dst b.outputLayout = .ok v.dst
  statistics : b.statistics config = .ok v.statistics
  affine : b.affine config = .ok v.affine
  srcLayout : v.srcLayout = b.srcLayout
  dstLayout : v.dstLayout = b.outputLayout

theorem ForwardBuffers.view_eq_ok_iff {b : ForwardBuffers} {config : RunConfig} {v : ForwardView} :
    b.view config = .ok (some v) ↔ v.Checked b config := by
  rw [view_eq]
  constructor
  · intro h
    obtain ⟨src, hsrc, h⟩ := bind_eq_ok_iff.mp h
    obtain ⟨dst, hdst, h⟩ := bind_eq_ok_iff.mp h
    by_cases hempty : config.shape.isEmpty = true
    · rw [if_pos hempty] at h
      exact absurd h nofun
    · rw [if_neg hempty] at h
      obtain ⟨statistics, hstatistics, h⟩ := bind_eq_ok_iff.mp h
      obtain ⟨affine, haffine, h⟩ := bind_eq_ok_iff.mp h
      obtain rfl := Option.some.inj (Except.ok.inj h)
      exact ⟨Bool.eq_false_iff.mpr hempty, hsrc, hdst, hstatistics, haffine, rfl, rfl⟩
  · intro h
    obtain ⟨src, dst, srcLayout, dstLayout, statistics, affine⟩ := v
    obtain ⟨hempty, hsrc, hdst, hstatistics, haffine, rfl, rfl⟩ := h
    simp [hempty, hsrc, hdst, hstatistics, haffine]

/-- Checks that pass leave a view, if there are elements. -/
theorem ForwardBuffers.exists_checked {b : ForwardBuffers} {config : RunConfig}
    (hchecks : (b.view config).isOk = true) (hnonempty : config.shape.isEmpty = false) :
    ∃ v : ForwardView, v.Checked b config := by
  rcases hview : b.view config with e | o
  · rw [hview] at hchecks
    exact absurd hchecks nofun
  · cases o with
    | some v => exact ⟨v, view_eq_ok_iff.mp hview⟩
    | none =>
        rw [view_eq] at hview
        obtain ⟨src, _, hview⟩ := bind_eq_ok_iff.mp hview
        obtain ⟨dst, _, hview⟩ := bind_eq_ok_iff.mp hview
        rw [if_neg (by simp [hnonempty])] at hview
        obtain ⟨statistics, _, hview⟩ := bind_eq_ok_iff.mp hview
        obtain ⟨affine, _, hview⟩ := bind_eq_ok_iff.mp hview
        exact absurd (Except.ok.inj hview) nofun

theorem ForwardView.Checked.srcFits {v : ForwardView} {b : ForwardBuffers} {config : RunConfig}
    (h : v.Checked b config) : Fits config config.precision.elementType v.src v.srcLayout :=
  h.srcLayout ▸ (activation_eq_ok_iff.mp h.src).2

theorem ForwardView.Checked.dstFits {v : ForwardView} {b : ForwardBuffers} {config : RunConfig}
    (h : v.Checked b config) : Fits config config.precision.elementType v.dst v.dstLayout :=
  h.dstLayout ▸ (activation_eq_ok_iff.mp h.dst).2

/-- The activation buffers that a run has. -/
def ForwardBuffers.activations (b : ForwardBuffers) : List Buffer := [b.src, b.dst].reduceOption

theorem ForwardView.Checked.activations_eq {v : ForwardView} {b : ForwardBuffers}
    {config : RunConfig} (h : v.Checked b config) : b.activations = [v.src, v.dst] := by
  rw [ForwardBuffers.activations, (activation_eq_ok_iff.mp h.src).1,
    (activation_eq_ok_iff.mp h.dst).1]
  rfl

/-- A forward run that can be verified: its checks pass, its extents can be written and, if
there are elements, they can be indexed. -/
structure ForwardBuffers.Accepted (b : ForwardBuffers) (config : RunConfig) : Prop where
  checks : (b.view config).isOk = true
  writable : config.shape.Writable
  indexable : config.shape.isEmpty = false → Indexable config b.activations b.outputLayout

/-- Checks that pass are all there is to a run where five words can be counted for each place
of the output and the extents can be written. -/
theorem ForwardBuffers.accepted_of_view {b : ForwardBuffers} {config : RunConfig}
    (hchecks : (b.view config).isOk = true) (hwritable : config.shape.Writable)
    (hcounted : ∀ a ∈ b.activations, a.size < 2 ^ 63)
    (hwords : 40 * b.outputLayout.size < 2 ^ 63) : b.Accepted config where
  checks := hchecks
  writable := hwritable
  indexable hnonempty := by
    obtain ⟨v, h⟩ := exists_checked hchecks hnonempty
    have hfits := h.dstFits
    rw [h.dstLayout] at hfits
    exact hfits.indexable hnonempty hcounted hwords

/-- The buffers that the verification of accepted buffers with elements reads. -/
structure ForwardView.Of (v : ForwardView) (b : ForwardBuffers) (config : RunConfig) : Prop
    extends ForwardView.Checked v b config where
  indexable : Indexable config b.activations b.outputLayout

/-- Accepted buffers with elements have a view. -/
theorem ForwardBuffers.Accepted.exists_view {b : ForwardBuffers} {config : RunConfig}
    (haccepted : b.Accepted config) (hnonempty : config.shape.isEmpty = false) :
    ∃ v : ForwardView, v.Of b config := by
  obtain ⟨v, h⟩ := exists_checked haccepted.checks hnonempty
  exact ⟨v, h, haccepted.indexable hnonempty⟩

/-! ## One channel -/

namespace ForwardView.Checked

variable {v : ForwardView} {b : ForwardBuffers} {config : RunConfig}

/-- Statistics buffers take part or not; if they do, they have the entries of each
channel. -/
theorem statistics_cases (h : v.Checked b config) :
    (config.normalization.exposesStatistics = true ∧ ∃ buffers, v.statistics = some buffers ∧
      ∀ c, c < config.shape.channels →
        ForwardView.statisticsAt buffers c = .ok ⟨entry b.mean c, entry b.variance c⟩) ∨
    (config.normalization.exposesStatistics = false ∧ v.statistics = none) := by
  have hstatistics := h.statistics
  unfold ForwardBuffers.statistics at hstatistics
  split at hstatistics
  · rename_i hexposes
    obtain ⟨mean, hmean, hstatistics⟩ := bind_eq_ok_iff.mp hstatistics
    obtain ⟨variance, hvariance, hstatistics⟩ := bind_eq_ok_iff.mp hstatistics
    refine Or.inl ⟨hexposes, _, (Except.ok.inj hstatistics).symm, fun c hc => ?_⟩
    simp only [ForwardView.statisticsAt, readFloat_channelArray hmean hc,
      readFloat_channelArray hvariance hc, ok_bind, pure_eq_ok]
  · rename_i hexposes
    exact Or.inr ⟨Bool.eq_false_iff.mpr hexposes, (Except.ok.inj hstatistics).symm⟩

/-- The affine parameters of a channel. -/
theorem affine_eq_ok (h : v.Checked b config) {c : Nat} (hc : c < config.shape.channels) :
    v.affine.mapM (ForwardView.affineAt · c) =
      .ok (if config.normalization.hasAffine then some ⟨entry b.scale c, entry b.shift c⟩
        else none) := by
  have haffine := h.affine
  unfold ForwardBuffers.affine at haffine
  split at haffine
  · rename_i hflag
    obtain ⟨scale, hscale, haffine⟩ := bind_eq_ok_iff.mp haffine
    obtain ⟨shift, hshift, haffine⟩ := bind_eq_ok_iff.mp haffine
    rw [← Except.ok.inj haffine, if_pos hflag, Option.mapM_some]
    simp only [ForwardView.affineAt, readFloat_channelArray hscale hc,
      readFloat_channelArray hshift hc, ok_bind, pure_eq_ok, map_ok]
  · rename_i hflag
    rw [← Except.ok.inj haffine, if_neg hflag]
    rfl

theorem channelStatistics_eq_ok (h : v.Checked b config) {c : Nat} (hc : c < config.shape.channels)
    (epsilon : Float) (src dst : Tensor) :
    v.channelStatistics config epsilon c (config.shape.sites.map (b.channel src dst c).src) =
      .ok ((b.channel src dst c).statistics config,
        (b.channel src dst c).statisticsMismatches config epsilon c) := by
  unfold ForwardView.channelStatistics ForwardChannel.statisticsMismatches
    ForwardChannel.statistics
  rcases h.statistics_cases with ⟨hexposes, buffers, hbuffers, hread⟩ | ⟨hexposes, hnone⟩
  · -- the buffers take part: supplied ones are used, reported ones are compared
    by_cases hcompute : config.normalization.computeStatistics = true
    · have htraining : config.normalization.isTraining = true := by
        simpa [Normalization.exposesStatistics, hcompute] using hexposes
      simp only [hcompute, htraining, hbuffers, if_true, hread c hc, ok_bind, pure_eq_ok,
        ForwardView.compareStatistics, compareScalar_eq, Bool.and_self]
      rfl
    · simp only [hcompute, hbuffers, if_false, hread c hc, ok_bind, pure_eq_ok, Bool.false_and,
        Bool.false_eq_true]
      rfl
  · -- without them the run computes and is no training run
    have hmodes : config.normalization.computeStatistics = true ∧
        config.normalization.isTraining = false := by
      simpa [Normalization.exposesStatistics] using hexposes
    obtain ⟨hcompute, htraining⟩ := hmodes
    simp only [hcompute, htraining, hnone, if_true, pure_eq_ok, Bool.and_false, Bool.false_eq_true,
      if_false]

/-- Where the elements are counted and the table of the sites exists, both activations can be
read. -/
theorem readable (h : v.Checked b config) (hcounted : ∀ a ∈ b.activations, a.size < 2 ^ 63)
    (hsites : b.outputLayout.demandSites = .ok ()) :
    Readable config config.precision.elementType v.src v.srcLayout ∧
      Readable config config.precision.elementType v.dst v.dstLayout := by
  rw [h.activations_eq] at hcounted
  rw [← h.dstLayout] at hsites
  have hshape : v.srcLayout.demandSites = v.dstLayout.demandSites := by
    rw [Layout.demandSites, Layout.demandSites, h.srcFits.shape, h.dstFits.shape]
  exact ⟨⟨h.srcFits, h.nonempty, hcounted v.src (by simp), hshape.trans hsites⟩,
    ⟨h.dstFits, h.nonempty, hcounted v.dst (by simp), hsites⟩⟩

/-- **One channel.** The check of a channel gives its statistics and its
mismatches, those of the output up to the limit. -/
theorem checkChannel_eq_ok (h : v.Checked b config)
    (hsrc : Readable config config.precision.elementType v.src v.srcLayout)
    (hdst : Readable config config.precision.elementType v.dst v.dstLayout) {c : Nat}
    (hc : c < config.shape.channels) (epsilon : Float) :
    let ch := b.channel (v.srcLayout.unpacked v.src) (v.dstLayout.unpacked v.dst) c
    v.checkChannel config epsilon config.shape.columns c =
      .ok (ch.statistics config, ch.statisticsMismatches config epsilon c ++
        upTo config.tolerance.maxReported (ch.outputMismatches config epsilon c)) := by
  intro ch
  have hvalues : (config.shape.sites.map fun x =>
      (v.srcLayout.unpacked v.src).singleAt (x.inChannel c)).map widen =
        config.shape.sites.map ch.src := by
    rw [List.map_map]
    rfl
  have hexpected : (normalize (config.shape.sites.map ch.src) (ch.statistics config)
      config.normalization.epsilon (if config.normalization.hasAffine then some ch.affine
        else none)).map config.precision.stored = config.shape.sites.map (ch.expected config) := by
    rw [normalize, List.map_map, List.map_map]
    rfl
  have hstatistics : v.channelStatistics config epsilon c (config.shape.sites.map ch.src) = _ :=
    h.channelStatistics_eq_ok hc epsilon _ _
  have haffine : v.affine.mapM (ForwardView.affineAt · c) =
      .ok (if config.normalization.hasAffine then some ch.affine else none) := h.affine_eq_ok hc
  unfold ForwardView.checkChannel
  simp only [hsrc.channelValues_eq hc, hdst.channelIndices_eq_ok hc, hdst.channelFloats_eq hc,
    ok_bind, hvalues, hstatistics, haffine]
  rw [hexpected]
  simp only [compareChannel_sites, ok_bind, pure_eq_ok]
  rfl

end ForwardView.Checked

/-! ## The whole run -/

/-- The verdict on the tensors of a forward run: channel by channel, then the
padding, each list cut in the same way. -/
def forwardVerdict (config : RunConfig) (b : ForwardBuffers) (src dst : Tensor)
    (padding : List Mismatch) (epsilon : Float) (cut : List Mismatch → List Mismatch) : Verdict :=
  let channel := b.channel src dst
  let channels := List.range config.shape.channels
  { config
    mismatches :=
      mergeMismatches config.shape.channels
        (fun c => (channel c).statisticsMismatches config epsilon c)
        (fun c => (channel c).outputMismatches config epsilon c) config.checkPadding padding cut
    reference :=
      { mean := some (channels.map fun c => ((channel c).statistics config).mean)
        variance := some (channels.map fun c => ((channel c).statistics config).variance) } }

namespace ForwardView.Checked

variable {v : ForwardView} {b : ForwardBuffers} {config : RunConfig}

/-- Where both activations can be read, the comparison comes to the padding. -/
theorem compare_eq_of_readable (h : v.Checked b config)
    (hcounted : ∀ a ∈ b.activations, a.size < 2 ^ 63)
    (hsites : b.outputLayout.demandSites = .ok ()) :
    v.compare config = config.epsilon >>= fun epsilon =>
      (if config.checkPadding then
        paddingMismatches "dst" v.dst v.dstLayout config.tolerance.maxReported else .ok []) >>=
      fun padding =>
        let verdict := forwardVerdict config b (v.srcLayout.unpacked v.src)
          (v.dstLayout.unpacked v.dst) [] epsilon (upTo config.tolerance.maxReported)
        .ok { verdict with mismatches := verdict.mismatches ++ padding } := by
  obtain ⟨hsrc, hdst⟩ := h.readable hcounted hsites
  have hcounts : Buffer.demandCounts [v.src, v.dst] = .ok () := by
    rw [← h.activations_eq]
    exact demandCounts_eq_ok_iff.mpr hcounted
  unfold ForwardView.compare
  rcases config.epsilon with e | epsilon
  · rfl
  · rw [ok_bind, hcounts, ok_bind, hsrc.siteColumns_eq_ok, ok_bind,
      sweep_eq_ok fun c hc => h.checkChannel_eq_ok hsrc hdst hc epsilon, ok_bind, ok_bind]
    cases config.checkPadding with
    | false =>
        simp [forwardVerdict, mergeMismatches, upTo_nil, List.flatMap_map, Function.comp_def]
    | true =>
        simp [forwardVerdict, mergeMismatches, upTo_nil, List.flatMap_map, Function.comp_def]

/-- A run that cannot be indexed ends in an array that is too large. -/
theorem compare_eq_arrayTooLarge (h : v.Checked b config) {epsilon : Float}
    (hepsilon : config.epsilon = .ok epsilon)
    (hindex : ¬ Indexable config b.activations b.outputLayout) :
    v.compare config = misuse .arrayTooLarge := by
  rcases not_indexable_cases hindex with hcounted | hsites | ⟨hcounted, hsites, hpadding, htable⟩
  · have hcounts : Buffer.demandCounts [v.src, v.dst] = misuse .arrayTooLarge := by
      rw [← h.activations_eq]
      exact demandCounts_eq_misuse (mt demandCounts_eq_ok_iff.mp hcounted)
    rw [ForwardView.compare, hepsilon, ok_bind, hcounts]
    rfl
  · have hcolumns : v.srcLayout.siteColumns = misuse .arrayTooLarge := by
      refine Layout.siteColumns_eq_arrayTooLarge ?_
      rwa [Layout.demandSites, h.srcFits.shape, ← h.dstFits.shape, h.dstLayout]
    rw [ForwardView.compare, hepsilon, ok_bind]
    by_cases hcounts : Buffer.demandCounts [v.src, v.dst] = .ok ()
    · rw [hcounts, ok_bind, hcolumns]
      rfl
    · rw [demandCounts_eq_misuse hcounts]
      rfl
  · rw [← h.dstLayout] at htable
    rw [h.compare_eq_of_readable hcounted hsites, hepsilon, ok_bind, if_pos hpadding,
      (h.readable hcounted hsites).2.paddingMismatches_eq_arrayTooLarge htable]
    rfl

/-- A run that gives a verdict could be indexed. -/
theorem of_compare_eq_ok (h : v.Checked b config) {verdict : Verdict}
    (hcompare : v.compare config = .ok verdict) : v.Of b config := by
  obtain ⟨epsilon, hepsilon, _⟩ := bind_eq_ok_iff.mp hcompare
  refine ⟨h, Classical.byContradiction fun hindex => ?_⟩
  rw [h.compare_eq_arrayTooLarge hepsilon hindex] at hcompare
  cases hcompare

end ForwardView.Checked

namespace ForwardView.Of

variable {v : ForwardView} {b : ForwardBuffers} {config : RunConfig}

theorem dstReadable (h : v.Of b config) :
    Readable config config.precision.elementType v.dst v.dstLayout :=
  (h.readable h.indexable.counted h.indexable.sites).2

/-- What has a view with elements is accepted. -/
theorem accepted (h : v.Of b config) : b.Accepted config where
  checks := by
    rw [ForwardBuffers.view_eq_ok_iff.mpr h.toChecked]
    rfl
  writable := Shape.demandTexts_eq_ok_iff.mp h.dstReadable.demandTexts_eq_ok
  indexable _ := h.indexable

theorem padding_inWords (h : v.Of b config) (hpadding : config.checkPadding = true) :
    v.dstLayout.PaddingInWords := by
  have hdst := h.dstReadable
  refine Layout.Paddable.inWords ?_ (lt_of_le_of_lt hdst.size hdst.counted)
  rw [h.dstLayout]
  exact h.indexable.padding hpadding

theorem compare_eq (h : v.Of b config) :
    v.compare config = config.epsilon.map fun epsilon =>
      forwardVerdict config b (v.srcLayout.unpacked v.src) (v.dstLayout.unpacked v.dst)
        (nonzeroCells "dst" v.dst v.dstLayout) epsilon (upTo config.tolerance.maxReported) := by
  rw [h.compare_eq_of_readable h.indexable.counted h.indexable.sites]
  rcases config.epsilon with e | epsilon
  · rfl
  · rw [ok_bind]
    cases hpadding : config.checkPadding with
    | false => simp [Except.map, forwardVerdict, mergeMismatches, hpadding]
    | true =>
        rw [if_pos rfl, paddingMismatches_eq (h.padding_inWords hpadding) h.dstFits.size]
        simp [Except.map, forwardVerdict, mergeMismatches, hpadding, upTo_nil]

/-- **The whole run.** The verification of accepted buffers concludes with the
verdict on their tensors, and fails before that only if the number of elements is
beyond binary64. -/
theorem verifyForward_result (h : v.Of b config) (raise : Bool) :
    (verifyForward config b raise).result = config.epsilon >>= fun epsilon =>
      (conclude (forwardVerdict config b (v.srcLayout.unpacked v.src) (v.dstLayout.unpacked v.dst)
        (nonzeroCells "dst" v.dst v.dstLayout) epsilon (upTo config.tolerance.maxReported))
        raise).result := by
  unfold verifyForward
  rw [ForwardBuffers.view_eq_ok_iff.mpr h.toChecked]
  simp only [h.dstReadable.demandTexts_eq_ok, Logged.provided, Logged.after, h.compare_eq]
  rcases config.epsilon with e | epsilon
  · rfl
  · rfl

end ForwardView.Of

/-- The verification of a tensor without elements finds nothing. -/
theorem verifyForward_result_of_isEmpty {config : RunConfig} {b : ForwardBuffers}
    (haccepted : b.Accepted config) (hempty : config.shape.isEmpty = true) (raise : Bool) :
    (verifyForward config b raise).result = .ok ⟨config, [], {}⟩ := by
  have hchecks := haccepted.checks
  unfold verifyForward
  rcases hview : b.view config with e | o
  · rw [hview] at hchecks
    exact absurd hchecks nofun
  · cases o with
    | none =>
        simp only [Shape.demandTexts_eq_ok_iff.mpr haccepted.writable, Logged.provided,
          Logged.after]
    | some v =>
        have hnonempty := (ForwardBuffers.view_eq_ok_iff.mp hview).nonempty
        rw [hempty] at hnonempty
        exact absurd hnonempty (by decide)

/-- A mismatch of the output is at a position of the tensor in its channel, and is
about the element that the output has there. -/
theorem exists_position_of_mem_forwardVerdict {config : RunConfig} {b : ForwardBuffers}
    {src dst : Tensor} {d : Buffer} {l : Layout} {epsilon : Float} {m : Nat} {x : Mismatch}
    (hx : x ∈ (forwardVerdict config b src dst (nonzeroCells "dst" d l) epsilon
      (List.take m)).mismatches) (hquantity : x.quantity = "dst") :
    ∃ p ∈ config.shape.positions, x.position = some p ∧ p.c = x.channel ∧
      x.actual = dst.floatAt p ∧
      nearlyEqual x.actual x.expected epsilon
        (config.tolerance.outputFloorFor config.precision) = false := by
  rcases mem_of_mem_mergeMismatches (fun _ _ h => List.mem_of_mem_take h) hx with
    ⟨c, hc, hx | hx⟩ | hx
  · rcases ForwardChannel.quantity_of_mem_statisticsMismatches hx with hmean | hvariance
    · exact absurd (hquantity.symm.trans hmean) (by decide)
    · exact absurd (hquantity.symm.trans hvariance) (by decide)
  · obtain ⟨site, hsite, hfar, rfl⟩ := exists_of_mem_siteMismatches hx
    exact ⟨_, Shape.inChannel_mem_positions hsite hc, rfl, rfl, rfl, hfar⟩
  · exact absurd (hquantity.symm.trans (quantity_of_mem_nonzeroCells hx)) (by decide)

/-- **Forward verification.** For accepted buffers with elements and a limit `m`,
what the verification finds is what the formulas say about the unpacked tensors:
for each channel the mismatches of the statistics and the first `m` of the output,
then the first `m` cells of the padding that are not zero. Mismatches of the output
are about elements of the output. The largest deviation allowed is there for every
number of elements that a machine can hold. -/
theorem verifyForward_eq_naive {config : RunConfig} {b : ForwardBuffers} {m : Nat}
    (hnonempty : config.shape.isEmpty = false)
    (hlimit : config.tolerance.maxReported = some (m : Int))
    (haccepted : b.Accepted config) :
    ∃ (s d : Buffer) (src dst : Tensor),
      (b.src = some s ∧ b.srcLayout.unpack s = .ok src) ∧
      (b.dst = some d ∧ b.outputLayout.unpack d = .ok dst) ∧
      (s.size < 2 ^ 64 → config.epsilon =
        .ok (scaledEpsilon config.tolerance.epsilonFactor config.shape.reductionSize)) ∧
      let naive := fun epsilon => forwardVerdict config b src dst
        (nonzeroCells "dst" d b.outputLayout) epsilon (List.take m)
      (verifyForward config b false).result = config.epsilon.map naive ∧
      (verifyForward config b true).result =
        (config.epsilon >>= fun epsilon => (naive epsilon).orFail m) ∧
      ∀ epsilon, ∀ x ∈ (naive epsilon).mismatches, x.quantity = "dst" →
        ∃ p ∈ config.shape.positions, x.position = some p ∧ p.c = x.channel ∧
          x.actual = d.floatAt (b.outputLayout.offset p) ∧
          nearlyEqual x.actual x.expected epsilon
            (config.tolerance.outputFloorFor config.precision) = false := by
  obtain ⟨v, h⟩ := haccepted.exists_view hnonempty
  have hcut : upTo config.tolerance.maxReported = (List.take m : List Mismatch → _) := by
    rw [hlimit]
    exact funext (upTo_natCast m)
  refine ⟨v.src, v.dst, v.srcLayout.unpacked v.src, v.dstLayout.unpacked v.dst,
    ⟨(activation_eq_ok_iff.mp h.src).1, h.srcLayout ▸ h.srcFits.unpack⟩,
    ⟨(activation_eq_ok_iff.mp h.dst).1, h.dstLayout ▸ h.dstFits.unpack⟩, ?_, ?_, ?_, ?_⟩
  · intro hsize
    exact epsilon_eq_ok (lt_of_le_of_lt (h.srcFits.reductionSize_le (channels_pos hnonempty)) hsize)
  · rw [h.verifyForward_result, hcut, h.dstLayout]
    exact bind_conclude_false _ _
  · rw [h.verifyForward_result, hcut, h.dstLayout]
    exact bind_conclude_true (fun _ => hlimit) _
  · intro epsilon x hx hquantity
    obtain ⟨p, hp, hposition, hc, hactual, hfar⟩ :=
      exists_position_of_mem_forwardVerdict hx hquantity
    refine ⟨p, hp, hposition, hc, ?_, hfar⟩
    rw [hactual, Layout.floatAt_unpacked (by rwa [h.dstFits.shape]), h.dstLayout]

/-- Two channels of two values each, which their statistics leave as they are. -/
def twoChannels : RunConfig where
  shape := ⟨1, 2, 1, 1, 2⟩
  normalization := { epsilon := 0, computeStatistics := false }
  numThreads := some 1
  epsilon_nonneg := by decide +kernel
  threads_pos := by simp

/-- Blocks of four channels, of which two are padding. -/
def twoChannelsBlocked : Layout where
  order := .blocked
  shape := twoChannels.shape
  paddedChannels := 4
  block := 4
  channels_le := by decide
  block_dvd := by decide

/-- An output in blocks, wrong in the second value of the first channel and in the
last cell of the padding. -/
def twoChannelsBuffers : ForwardBuffers where
  src := some (.ofList .float32 [1, 2, 3, 4])
  dst := some (.ofList .float32 [1, 3, 0, 0, 5, 4, 0, 9])
  srcLayout := .dense twoChannels.shape
  dstLayout := some twoChannelsBlocked
  mean := some (.ofList .float32 [0, 0])
  variance := some (.ofList .float32 [1, 1])

theorem twoChannelsBuffers_accepted : twoChannelsBuffers.Accepted twoChannels :=
  ForwardBuffers.accepted_of_view (by decide +kernel) (by decide) (by decide) (by decide)

theorem verifyForward_eq_naive_twoChannels :
    twoChannels.shape.isEmpty = false ∧ twoChannelsBuffers.Accepted twoChannels ∧
      ∃ (d : Buffer) (src dst : Tensor),
        (verifyForward twoChannels twoChannelsBuffers false).result =
          twoChannels.epsilon.map fun epsilon => forwardVerdict twoChannels twoChannelsBuffers src
            dst (nonzeroCells "dst" d twoChannelsBlocked) epsilon (List.take 32) := by
  have hlimit : twoChannels.tolerance.maxReported = some ((32 : Nat) : Int) := rfl
  obtain ⟨_, d, src, dst, _, _, _, hresult, _⟩ :=
    verifyForward_eq_naive rfl hlimit twoChannelsBuffers_accepted
  exact ⟨rfl, twoChannelsBuffers_accepted, d, src, dst, hresult⟩

end BatchNorm
