import BatchNorm.Proofs.Verify.Accepted
import BatchNorm.Verify.Backward

/-!
# The backward verification, channel by channel

As in the forward direction, the verification of a backward run comes down to
formulas about what it reads of each channel (`BackwardChannel`), applied to the
unpacked tensors. A tensor without elements has nothing but its parameter
gradients, which have to be zero (`emptyMismatches_eq`).
-/

set_option autoImplicit false

namespace BatchNorm

/-- What the verification of a backward run reads of one channel. -/
structure BackwardChannel where
  src : Site → Float
  diffDst : Site → Float
  diffSrc : Site → Float
  statistics : Statistics Float
  scale : Float
  reported : ParameterGradients Float

namespace BackwardChannel

variable (ch : BackwardChannel) (config : RunConfig) (epsilon : Float) (c : Nat)

/-- One over the standard deviation. -/
def inverse : Float := inverseDeviation ch.statistics.variance config.normalization.epsilon

/-- The gradients with respect to scale and shift. -/
def gradients : ParameterGradients Float where
  diffScale := ch.inverse config *
    PairwiseSum.total (config.shape.sites.map fun x => (ch.src x - ch.statistics.mean) * ch.diffDst x)
  diffShift := PairwiseSum.total (config.shape.sites.map ch.diffDst)

/-- The gradient that the input ought to have at a site. Statistics that were
computed depend on the input and correct it. -/
def expected (x : Site) : Float :=
  let inverse := ch.inverse config
  let gamma := if config.normalization.hasAffine then ch.scale else 1
  let corrected :=
    if config.normalization.computeStatistics then
      ch.diffDst x - correction config.shape.reductionSize ch.statistics.mean inverse
        (ch.gradients config) (ch.src x)
    else ch.diffDst x
  corrected * (gamma * inverse)

/-- The mismatches of the gradients with respect to scale and shift, in the mode
that has them. -/
def parameterMismatches : List Mismatch :=
  let floor := config.tolerance.gradientFloor
  let gradients := ch.gradients config
  if config.backwardMode = some .dataAndParameters then
    scalarMismatches "diff_scale" c ch.reported.diffScale gradients.diffScale epsilon floor ++
      scalarMismatches "diff_shift" c ch.reported.diffShift gradients.diffShift epsilon floor
  else []

/-- The mismatches of the gradient with respect to the input. -/
def inputMismatches : List Mismatch :=
  siteMismatches "diff_src" c config.shape ch.diffSrc (ch.expected config) epsilon
    config.tolerance.diffSrcFloor

variable {ch config epsilon c}

end BackwardChannel

namespace BackwardBuffers

/-- Channel `c` of a run with the given tensors. -/
def channel (b : BackwardBuffers) (src diffDst diffSrc : Tensor) (c : Nat) : BackwardChannel where
  src x := widen (src.singleAt (x.inChannel c))
  diffDst x := widen (diffDst.singleAt (x.inChannel c))
  diffSrc x := diffSrc.floatAt (x.inChannel c)
  statistics := ⟨entry b.mean c, entry b.variance c⟩
  scale := entry b.scale c
  reported := ⟨entry b.diffScale c, entry b.diffShift c⟩

/-! ## What is accepted -/

/-- The checks of a backward run pass: those of the mode and, if there are
elements, those of the buffers. -/
def Checks (b : BackwardBuffers) (config : RunConfig) : Prop :=
  ∃ parameters, b.parameters config = .ok parameters ∧
    (config.shape.isEmpty = false → (b.view config parameters).isOk = true)

/-- The activation buffers that a run has. -/
def activations (b : BackwardBuffers) : List Buffer := [b.src, b.diffDst, b.diffSrc].reduceOption

/-- A backward run that can be verified: its checks pass, its extents can be written and, if
there are elements, they can be indexed. -/
structure Accepted (b : BackwardBuffers) (config : RunConfig) : Prop where
  checks : b.Checks config
  writable : config.shape.Writable
  indexable : config.shape.isEmpty = false → Indexable config b.activations b.outputLayout

/-- The scales that take part in a run. -/
def scales (b : BackwardBuffers) (config : RunConfig) : Except Failure (Option Buffer) :=
  if config.normalization.hasAffine then
    some <$> channelArray config.shape.channels .scale b.scale
  else return none

theorem view_eq (b : BackwardBuffers) (config : RunConfig)
    (parameters : Option (ParameterGradients Buffer)) :
    b.view config parameters = do
      let src ← activation config .float32 .src b.src b.srcLayout
      let diffDst ← activation config .float32 .diffDst b.diffDst b.gradientLayout
      let diffSrc ← activation config .float32 .diffSrc b.diffSrc b.outputLayout
      let mean ← channelArray config.shape.channels .mean b.mean
      let variance ← channelArray config.shape.channels .variance b.variance
      let scale ← b.scales config
      return {
        src, diffDst, diffSrc, scale, parameters
        srcLayout := b.srcLayout
        diffDstLayout := b.gradientLayout
        diffSrcLayout := b.outputLayout
        statistics := ⟨mean, variance⟩ } := by
  unfold view scales
  cases config.normalization.hasAffine <;> simp

theorem parameters_eq_ok_iff {b : BackwardBuffers} {config : RunConfig}
    {parameters : Option (ParameterGradients Buffer)} :
    b.parameters config = .ok parameters ↔ config.precision = .f32 ∧
      (config.backwardMode = some .data ∧ parameters = none ∨
        config.backwardMode = some .dataAndParameters ∧ ∃ buffers, parameters = some buffers ∧
          channelArray config.shape.channels .diffScale b.diffScale = .ok buffers.diffScale ∧
          channelArray config.shape.channels .diffShift b.diffShift = .ok buffers.diffShift) := by
  unfold BackwardBuffers.parameters
  simp only [bind_eq_ok_iff, require_eq_ok_iff]
  rcases hmode : config.backwardMode with _ | mode
  · simp
  · cases mode with
    | data => simp [eq_comm]
    | dataAndParameters =>
        simp only [bind_eq_ok_iff, pure_eq_ok, Except.ok.injEq]
        constructor
        · rintro ⟨_, hprecision, diffScale, hscale, diffShift, hshift, rfl⟩
          exact ⟨hprecision, Or.inr ⟨trivial, _, rfl, hscale, hshift⟩⟩
        · rintro ⟨hprecision, ⟨hdata, _⟩ | ⟨_, buffers, rfl, hscale, hshift⟩⟩
          · exact absurd hdata (by decide)
          · exact ⟨(), hprecision, _, hscale, _, hshift, rfl⟩

end BackwardBuffers

/-- The buffers that the checks of a run with elements let pass. -/
structure BackwardView.Checked (v : BackwardView) (b : BackwardBuffers) (config : RunConfig) :
    Prop where
  nonempty : config.shape.isEmpty = false
  parameters : b.parameters config = .ok v.parameters
  src : activation config .float32 .src b.src b.srcLayout = .ok v.src
  diffDst : activation config .float32 .diffDst b.diffDst b.gradientLayout = .ok v.diffDst
  diffSrc : activation config .float32 .diffSrc b.diffSrc b.outputLayout = .ok v.diffSrc
  mean : channelArray config.shape.channels .mean b.mean = .ok v.statistics.mean
  variance : channelArray config.shape.channels .variance b.variance = .ok v.statistics.variance
  scale : b.scales config = .ok v.scale
  srcLayout : v.srcLayout = b.srcLayout
  diffDstLayout : v.diffDstLayout = b.gradientLayout
  diffSrcLayout : v.diffSrcLayout = b.outputLayout

namespace BackwardView.Checked

variable {v : BackwardView} {b : BackwardBuffers} {config : RunConfig}

theorem srcFits (h : v.Checked b config) : Fits config .float32 v.src v.srcLayout :=
  h.srcLayout ▸ (activation_eq_ok_iff.mp h.src).2

theorem diffDstFits (h : v.Checked b config) : Fits config .float32 v.diffDst v.diffDstLayout :=
  h.diffDstLayout ▸ (activation_eq_ok_iff.mp h.diffDst).2

theorem diffSrcFits (h : v.Checked b config) : Fits config .float32 v.diffSrc v.diffSrcLayout :=
  h.diffSrcLayout ▸ (activation_eq_ok_iff.mp h.diffSrc).2

theorem activations_eq (h : v.Checked b config) :
    b.activations = [v.src, v.diffDst, v.diffSrc] := by
  rw [BackwardBuffers.activations, (activation_eq_ok_iff.mp h.src).1,
    (activation_eq_ok_iff.mp h.diffDst).1, (activation_eq_ok_iff.mp h.diffSrc).1]
  rfl

end BackwardView.Checked

/-- The buffers that the verification of accepted buffers with elements reads. -/
structure BackwardView.Of (v : BackwardView) (b : BackwardBuffers) (config : RunConfig) : Prop
    extends BackwardView.Checked v b config where
  indexable : Indexable config b.activations b.outputLayout

namespace BackwardBuffers

variable {b : BackwardBuffers} {config : RunConfig}

theorem checked_of_view_eq_ok {parameters : Option (ParameterGradients Buffer)} {v : BackwardView}
    (hnonempty : config.shape.isEmpty = false) (hparameters : b.parameters config = .ok parameters)
    (h : b.view config parameters = .ok v) : v.Checked b config := by
  rw [view_eq] at h
  obtain ⟨src, hsrc, h⟩ := bind_eq_ok_iff.mp h
  obtain ⟨diffDst, hdiffDst, h⟩ := bind_eq_ok_iff.mp h
  obtain ⟨diffSrc, hdiffSrc, h⟩ := bind_eq_ok_iff.mp h
  obtain ⟨mean, hmean, h⟩ := bind_eq_ok_iff.mp h
  obtain ⟨variance, hvariance, h⟩ := bind_eq_ok_iff.mp h
  obtain ⟨scale, hscale, h⟩ := bind_eq_ok_iff.mp h
  rw [← Except.ok.inj h]
  exact ⟨hnonempty, hparameters, hsrc, hdiffDst, hdiffSrc, hmean, hvariance, hscale, rfl, rfl, rfl⟩

theorem view_eq_ok {v : BackwardView} (h : v.Checked b config) :
    b.view config v.parameters = .ok v := by
  obtain ⟨src, diffDst, diffSrc, srcLayout, diffDstLayout, diffSrcLayout, statistics, scale,
    parameters⟩ := v
  obtain ⟨_, _, hsrc, hdiffDst, hdiffSrc, hmean, hvariance, hscale, rfl, rfl, rfl⟩ := h
  rw [view_eq]
  simp only [hsrc, hdiffDst, hdiffSrc, hmean, hvariance, hscale, ok_bind, pure_eq_ok]

/-- What has a view passes the checks. -/
theorem checks_of_checked {v : BackwardView} (h : v.Checked b config) : b.Checks config := by
  refine ⟨v.parameters, h.parameters, fun _ => ?_⟩
  rw [view_eq_ok h]
  rfl

/-- Checks that pass leave a view, if there are elements. -/
theorem Checks.exists_checked (hchecks : b.Checks config)
    (hnonempty : config.shape.isEmpty = false) : ∃ v : BackwardView, v.Checked b config := by
  obtain ⟨parameters, hparameters, hview⟩ := hchecks
  have hview := hview hnonempty
  rcases hok : b.view config parameters with e | v
  · rw [hok] at hview
    exact absurd hview nofun
  · exact ⟨v, checked_of_view_eq_ok hnonempty hparameters hok⟩

/-- Checks that pass are all there is to a run where five words can be counted for each place
of the output and the extents can be written. -/
theorem Checks.accepted (hchecks : b.Checks config) (hwritable : config.shape.Writable)
    (hcounted : ∀ a ∈ b.activations, a.size < 2 ^ 63) (hwords : 40 * b.outputLayout.size < 2 ^ 63) :
    b.Accepted config where
  checks := hchecks
  writable := hwritable
  indexable hnonempty := by
    obtain ⟨v, h⟩ := hchecks.exists_checked hnonempty
    have hfits := h.diffSrcFits
    rw [h.diffSrcLayout] at hfits
    exact hfits.indexable hnonempty hcounted hwords

/-- Accepted buffers with elements have a view. -/
theorem Accepted.exists_view (haccepted : b.Accepted config)
    (hnonempty : config.shape.isEmpty = false) : ∃ v : BackwardView, v.Of b config := by
  obtain ⟨v, h⟩ := haccepted.checks.exists_checked hnonempty
  exact ⟨v, h, haccepted.indexable hnonempty⟩

end BackwardBuffers

/-! ## One channel -/

namespace BackwardView

/-- The factor of channel `c`. -/
def gammaAt (v : BackwardView) (c : Nat) : Except Failure Float :=
  match v.scale with
  | some scale => scale.readFloat c
  | none => return 1

/-- The mismatches of the gradients with respect to scale and shift. -/
def checkParameters (v : BackwardView) (config : RunConfig) (epsilon : Float) (c : Nat)
    (reference : ParameterGradients Float) : Except Failure (List Mismatch) :=
  match v.parameters with
  | some buffers => compareParameters config epsilon c buffers reference
  | none => return []

theorem checkChannel_eq (v : BackwardView) (config : RunConfig) (epsilon : Float)
    (columns : List (List Int)) (c : Nat) :
    v.checkChannel config epsilon columns c = do
      let values := (← v.srcLayout.channelValues v.src c).map widen
      let grads := (← v.diffDstLayout.channelValues v.diffDst c).map widen
      let mean ← v.statistics.mean.readFloat c
      let inverse :=
        inverseDeviation (← v.statistics.variance.readFloat c) config.normalization.epsilon
      let gamma ← v.gammaAt c
      let reference ← parameterGradients values grads mean inverse
      let found ← v.checkParameters config epsilon c reference
      let expected ← inputGradient values grads mean inverse reference gamma
        config.normalization.computeStatistics
      let actual ← v.diffSrc.gatherFloats (← v.diffSrcLayout.channelIndices c)
      let elements ← compareChannel "diff_src" c actual expected epsilon
        config.tolerance.diffSrcFloor (some columns) config.tolerance.maxReported
      return (reference, found ++ elements) := by
  unfold checkChannel gammaAt checkParameters
  cases v.scale <;> cases v.parameters <;> rfl

end BackwardView

namespace BackwardChannel

variable (ch : BackwardChannel) (config : RunConfig)

theorem parameterGradients_eq_ok :
    parameterGradients (config.shape.sites.map ch.src) (config.shape.sites.map ch.diffDst)
      ch.statistics.mean (ch.inverse config) = .ok (ch.gradients config) := by
  rw [parameterGradients, broadcast_of_length_eq _ (by simp), ok_bind, List.zipWith_map,
    List.zipWith_self]
  rfl

theorem inputGradient_eq_ok {config : RunConfig} (hnonempty : config.shape.isEmpty = false) :
    inputGradient (config.shape.sites.map ch.src) (config.shape.sites.map ch.diffDst)
        ch.statistics.mean (ch.inverse config) (ch.gradients config)
        (if config.normalization.hasAffine then ch.scale else 1)
        config.normalization.computeStatistics =
      .ok (config.shape.sites.map (ch.expected config)) := by
  have hlength : (config.shape.sites.map ch.src).length = config.shape.reductionSize := by
    rw [List.length_map, Shape.length_sites]
  have hsites : (config.shape.sites.map ch.src).isEmpty = false := by
    rw [List.isEmpty_eq_false_iff_exists_mem]
    refine List.exists_mem_of_length_pos ?_
    rw [hlength]
    exact reductionSize_pos hnonempty
  -- an empty channel would fail here: its mean correction divides by its length
  unfold inputGradient
  cases hcompute : config.normalization.computeStatistics with
  | false =>
      simp only [Bool.false_eq_true, if_false, pure_eq_ok, ok_bind, List.map_map]
      refine congrArg Except.ok (List.map_congr_left fun x _ => ?_)
      simp only [Function.comp_apply, expected, hcompute, Bool.false_eq_true, if_false]
  | true =>
      rw [broadcastInto_of_length_eq _ (by simp), List.zipWith_map, List.zipWith_self]
      simp only [hsites, hlength, if_true, Bool.false_eq_true, if_false, pure_eq_ok, ok_bind,
        List.map_map]
      refine congrArg Except.ok (List.map_congr_left fun x _ => ?_)
      simp only [Function.comp_apply, expected, hcompute, if_true]

end BackwardChannel

/-- The activations can all be read. -/
structure BackwardView.AllReadable (v : BackwardView) (config : RunConfig) : Prop where
  src : Readable config .float32 v.src v.srcLayout
  diffDst : Readable config .float32 v.diffDst v.diffDstLayout
  diffSrc : Readable config .float32 v.diffSrc v.diffSrcLayout

namespace BackwardView.Checked

variable {v : BackwardView} {b : BackwardBuffers} {config : RunConfig}

/-- The factor of a channel: its scale where there are scales, and one elsewhere. -/
theorem gamma_eq_ok (h : v.Checked b config) {c : Nat} (hc : c < config.shape.channels) :
    v.gammaAt c = .ok (if config.normalization.hasAffine then entry b.scale c else 1) := by
  have hscale := h.scale
  unfold BackwardView.gammaAt
  unfold BackwardBuffers.scales at hscale
  split at hscale
  · rename_i hflag
    rw [map_eq_ok_iff] at hscale
    obtain ⟨scale, hread, hscale⟩ := hscale
    rw [← hscale, if_pos hflag]
    exact readFloat_channelArray hread hc
  · rename_i hflag
    rw [← Except.ok.inj hscale, if_neg hflag]
    rfl

/-- The gradients with respect to scale and shift of a channel, compared in the mode that
has them. -/
theorem checkParameters_eq_ok (h : v.Checked b config) {c : Nat} (hc : c < config.shape.channels)
    (epsilon : Float) (src diffDst diffSrc : Tensor) :
    v.checkParameters config epsilon c ((b.channel src diffDst diffSrc c).gradients config) =
      .ok ((b.channel src diffDst diffSrc c).parameterMismatches config epsilon c) := by
  unfold BackwardView.checkParameters
  obtain ⟨_, ⟨hmode, hnone⟩ | ⟨hmode, buffers, hbuffers, hdiffScale, hdiffShift⟩⟩ :=
    BackwardBuffers.parameters_eq_ok_iff.mp h.parameters
  · rw [hnone, BackwardChannel.parameterMismatches, if_neg (by rw [hmode]; decide)]
    rfl
  · rw [hbuffers, BackwardChannel.parameterMismatches, if_pos hmode]
    simp only [BackwardView.compareParameters, readFloat_channelArray hdiffScale hc,
      readFloat_channelArray hdiffShift hc, ok_bind, compareScalar_eq, pure_eq_ok]
    rfl

/-- Where the elements are counted and the table of the sites exists, all activations can be
read. -/
theorem allReadable (h : v.Checked b config) (hcounted : ∀ a ∈ b.activations, a.size < 2 ^ 63)
    (hsites : b.outputLayout.demandSites = .ok ()) : v.AllReadable config := by
  rw [h.activations_eq] at hcounted
  rw [← h.diffSrcLayout, Layout.demandSites, h.diffSrcFits.shape] at hsites
  refine ⟨⟨h.srcFits, h.nonempty, hcounted v.src (by simp), ?_⟩,
    ⟨h.diffDstFits, h.nonempty, hcounted v.diffDst (by simp), ?_⟩,
    ⟨h.diffSrcFits, h.nonempty, hcounted v.diffSrc (by simp), ?_⟩⟩
  · rwa [Layout.demandSites, h.srcFits.shape]
  · rwa [Layout.demandSites, h.diffDstFits.shape]
  · rwa [Layout.demandSites, h.diffSrcFits.shape]

/-- **One channel.** The check of a channel gives its parameter gradients and its
mismatches, those of the gradient with respect to the input up to the limit. -/
theorem checkChannel_eq_ok (h : v.Checked b config) (hread : v.AllReadable config) {c : Nat}
    (hc : c < config.shape.channels) (epsilon : Float) :
    let ch := b.channel (v.srcLayout.unpacked v.src) (v.diffDstLayout.unpacked v.diffDst)
      (v.diffSrcLayout.unpacked v.diffSrc) c
    v.checkChannel config epsilon config.shape.columns c =
      .ok (ch.gradients config, ch.parameterMismatches config epsilon c ++
        upTo config.tolerance.maxReported (ch.inputMismatches config epsilon c)) := by
  intro ch
  have hvalues : (config.shape.sites.map fun x =>
      (v.srcLayout.unpacked v.src).singleAt (x.inChannel c)).map widen =
        config.shape.sites.map ch.src := by
    rw [List.map_map]
    rfl
  have hgrads : (config.shape.sites.map fun x =>
      (v.diffDstLayout.unpacked v.diffDst).singleAt (x.inChannel c)).map widen =
        config.shape.sites.map ch.diffDst := by
    rw [List.map_map]
    rfl
  have hmean : v.statistics.mean.readFloat c = .ok ch.statistics.mean :=
    readFloat_channelArray h.mean hc
  have hvariance : v.statistics.variance.readFloat c = .ok ch.statistics.variance :=
    readFloat_channelArray h.variance hc
  have hgamma : v.gammaAt c = .ok (if config.normalization.hasAffine then ch.scale else 1) :=
    h.gamma_eq_ok hc
  have hgradients := ch.parameterGradients_eq_ok config
  have hparameters : v.checkParameters config epsilon c (ch.gradients config) =
      .ok (ch.parameterMismatches config epsilon c) := h.checkParameters_eq_ok hc epsilon _ _ _
  have hexpected := ch.inputGradient_eq_ok h.nonempty
  rw [BackwardView.checkChannel_eq]
  simp only [hread.src.channelValues_eq hc, hread.diffDst.channelValues_eq hc,
    hread.diffSrc.channelIndices_eq_ok hc, hread.diffSrc.channelFloats_eq hc, ok_bind, hvalues,
    hgrads, hmean, hvariance, hgamma]
  simp only [BackwardChannel.inverse] at hgradients hexpected
  simp only [hgradients, hparameters, hexpected, ok_bind, compareChannel_sites, pure_eq_ok]
  rfl

end BackwardView.Checked

/-! ## The whole run -/

theorem channelFloats_eq {config : RunConfig} {role : Role} {buffer : Option Buffer} {b : Buffer}
    (h : channelArray config.shape.channels role buffer = .ok b) :
    BackwardView.channelFloats config b = (List.range config.shape.channels).map (entry buffer) := by
  obtain ⟨rfl, hsize, _⟩ := channelArray_eq_ok_iff.mp h
  have hsize : config.shape.channels ≤ b.values.size := hsize
  refine List.ext_getElem (by simp [BackwardView.channelFloats, Buffer.toFloats, hsize]) ?_
  intro c hc _
  have hc : c < b.values.size := by
    simp [BackwardView.channelFloats, Buffer.toFloats] at hc
    omega
  simp [BackwardView.channelFloats, Buffer.toFloats, entry, Buffer.floatAt, Buffer.element, hc]

/-- The verdict on the tensors of a backward run: channel by channel, then the
padding, each list cut in the same way. -/
def backwardVerdict (config : RunConfig) (b : BackwardBuffers) (src diffDst diffSrc : Tensor)
    (padding : List Mismatch) (epsilon : Float) (cut : List Mismatch → List Mismatch) : Verdict :=
  let channel := b.channel src diffDst diffSrc
  let channels := List.range config.shape.channels
  { config
    mismatches :=
      mergeMismatches config.shape.channels
        (fun c => (channel c).parameterMismatches config epsilon c)
        (fun c => (channel c).inputMismatches config epsilon c) config.checkPadding padding cut
    reference :=
      { mean := some (channels.map (entry b.mean))
        variance := some (channels.map (entry b.variance))
        diffScale := some (channels.map fun c => ((channel c).gradients config).diffScale)
        diffShift := some (channels.map fun c => ((channel c).gradients config).diffShift) } }

namespace BackwardView.Checked

variable {v : BackwardView} {b : BackwardBuffers} {config : RunConfig}

/-- Where all activations can be read, the comparison comes to the padding. -/
theorem compare_eq_of_readable (h : v.Checked b config)
    (hcounted : ∀ a ∈ b.activations, a.size < 2 ^ 63)
    (hsites : b.outputLayout.demandSites = .ok ()) :
    v.compare config = config.epsilon >>= fun epsilon =>
      (if config.checkPadding then
        paddingMismatches "diff_src" v.diffSrc v.diffSrcLayout config.tolerance.maxReported
      else .ok []) >>= fun padding =>
        let verdict := backwardVerdict config b (v.srcLayout.unpacked v.src)
          (v.diffDstLayout.unpacked v.diffDst) (v.diffSrcLayout.unpacked v.diffSrc) [] epsilon
          (upTo config.tolerance.maxReported)
        .ok { verdict with mismatches := verdict.mismatches ++ padding } := by
  have hread := h.allReadable hcounted hsites
  have hcounts : Buffer.demandCounts [v.src, v.diffDst, v.diffSrc] = .ok () := by
    rw [← h.activations_eq]
    exact demandCounts_eq_ok_iff.mpr hcounted
  unfold BackwardView.compare
  rcases config.epsilon with e | epsilon
  · rfl
  · rw [ok_bind, hcounts, ok_bind, hread.src.siteColumns_eq_ok, ok_bind,
      sweep_eq_ok fun c hc => h.checkChannel_eq_ok hread hc epsilon, ok_bind, ok_bind,
      channelFloats_eq h.mean, channelFloats_eq h.variance]
    cases config.checkPadding with
    | false =>
        simp [backwardVerdict, mergeMismatches, upTo_nil, List.flatMap_map, Function.comp_def]
    | true =>
        simp [backwardVerdict, mergeMismatches, upTo_nil, List.flatMap_map, Function.comp_def]

/-- A run that cannot be indexed ends in an array that is too large. -/
theorem compare_eq_arrayTooLarge (h : v.Checked b config) {epsilon : Float}
    (hepsilon : config.epsilon = .ok epsilon)
    (hindex : ¬ Indexable config b.activations b.outputLayout) :
    v.compare config = misuse .arrayTooLarge := by
  rcases not_indexable_cases hindex with hcounted | hsites | ⟨hcounted, hsites, hpadding, htable⟩
  · have hcounts : Buffer.demandCounts [v.src, v.diffDst, v.diffSrc] = misuse .arrayTooLarge := by
      rw [← h.activations_eq]
      exact demandCounts_eq_misuse (mt demandCounts_eq_ok_iff.mp hcounted)
    rw [BackwardView.compare, hepsilon, ok_bind, hcounts]
    rfl
  · have hcolumns : v.srcLayout.siteColumns = misuse .arrayTooLarge := by
      refine Layout.siteColumns_eq_arrayTooLarge ?_
      rwa [Layout.demandSites, h.srcFits.shape, ← h.diffSrcFits.shape, h.diffSrcLayout]
    rw [BackwardView.compare, hepsilon, ok_bind]
    by_cases hcounts : Buffer.demandCounts [v.src, v.diffDst, v.diffSrc] = .ok ()
    · rw [hcounts, ok_bind, hcolumns]
      rfl
    · rw [demandCounts_eq_misuse hcounts]
      rfl
  · rw [← h.diffSrcLayout] at htable
    rw [h.compare_eq_of_readable hcounted hsites, hepsilon, ok_bind, if_pos hpadding,
      (h.allReadable hcounted hsites).diffSrc.paddingMismatches_eq_arrayTooLarge htable]
    rfl

/-- A run that gives a verdict could be indexed. -/
theorem of_compare_eq_ok (h : v.Checked b config) {verdict : Verdict}
    (hcompare : v.compare config = .ok verdict) : v.Of b config := by
  obtain ⟨epsilon, hepsilon, _⟩ := bind_eq_ok_iff.mp hcompare
  refine ⟨h, Classical.byContradiction fun hindex => ?_⟩
  rw [h.compare_eq_arrayTooLarge hepsilon hindex] at hcompare
  cases hcompare

end BackwardView.Checked

namespace BackwardView.Of

variable {v : BackwardView} {b : BackwardBuffers} {config : RunConfig}

theorem diffSrcReadable (h : v.Of b config) : Readable config .float32 v.diffSrc v.diffSrcLayout :=
  (h.allReadable h.indexable.counted h.indexable.sites).diffSrc

/-- What has a view with elements is accepted. -/
theorem accepted (h : v.Of b config) : b.Accepted config where
  checks := BackwardBuffers.checks_of_checked h.toChecked
  writable := Shape.demandTexts_eq_ok_iff.mp h.diffSrcReadable.demandTexts_eq_ok
  indexable _ := h.indexable

theorem padding_inWords (h : v.Of b config) (hpadding : config.checkPadding = true) :
    v.diffSrcLayout.PaddingInWords := by
  have hdiffSrc := h.diffSrcReadable
  refine Layout.Paddable.inWords ?_ (lt_of_le_of_lt hdiffSrc.size hdiffSrc.counted)
  rw [h.diffSrcLayout]
  exact h.indexable.padding hpadding

theorem compare_eq (h : v.Of b config) :
    v.compare config = config.epsilon.map fun epsilon =>
      backwardVerdict config b (v.srcLayout.unpacked v.src) (v.diffDstLayout.unpacked v.diffDst)
        (v.diffSrcLayout.unpacked v.diffSrc) (nonzeroCells "diff_src" v.diffSrc v.diffSrcLayout)
        epsilon (upTo config.tolerance.maxReported) := by
  rw [h.compare_eq_of_readable h.indexable.counted h.indexable.sites]
  rcases config.epsilon with e | epsilon
  · rfl
  · rw [ok_bind]
    cases hpadding : config.checkPadding with
    | false => simp [Except.map, backwardVerdict, mergeMismatches, hpadding]
    | true =>
        rw [if_pos rfl, paddingMismatches_eq (h.padding_inWords hpadding) h.diffSrcFits.size]
        simp [Except.map, backwardVerdict, mergeMismatches, hpadding, upTo_nil]

/-- **The whole run.** The verification of accepted buffers with elements concludes
with the verdict on their tensors, and fails before that only if the number of
elements is beyond binary64. -/
theorem verifyBackward_result (h : v.Of b config) (raise : Bool) :
    (verifyBackward config b raise).result = config.epsilon >>= fun epsilon =>
      (conclude (backwardVerdict config b (v.srcLayout.unpacked v.src)
        (v.diffDstLayout.unpacked v.diffDst) (v.diffSrcLayout.unpacked v.diffSrc)
        (nonzeroCells "diff_src" v.diffSrc v.diffSrcLayout) epsilon
        (upTo config.tolerance.maxReported)) raise).result := by
  unfold verifyBackward
  simp only [h.parameters, h.nonempty, Bool.false_eq_true, if_false,
    BackwardBuffers.view_eq_ok h.toChecked, h.diffSrcReadable.demandTexts_eq_ok, Logged.provided,
    Logged.after, h.compare_eq]
  rcases config.epsilon with e | epsilon
  · rfl
  · rfl

end BackwardView.Of

/-! ## Tensors without elements -/

/-- The channels whose parameter gradient is not near zero. -/
def nonzeroGradients (config : RunConfig) (quantity : String) (value : Nat → Float) :
    List Mismatch :=
  let atol := config.tolerance.emptyGradient
  let far := (List.range config.shape.channels).filter fun c => !((value c).abs ≤ atol : Bool)
  far.map fun (c : Nat) =>
    { quantity, channel := c, position := none, expected := 0, actual := value c
      deviation := (value c).abs, epsilon := atol }

/-- The verdict on a tensor without elements: its scale gradients come first,
then its shift gradients, and no limit cuts them. -/
def emptyVerdict (config : RunConfig) (b : BackwardBuffers) : Verdict where
  config := config
  mismatches :=
    if config.backwardMode = some .dataAndParameters then
      nonzeroGradients config "diff_scale" (entry b.diffScale) ++
        nonzeroGradients config "diff_shift" (entry b.diffShift)
    else []

theorem emptyGradientMismatches_eq {config : RunConfig} {quantity : String} {role : Role}
    {buffer : Option Buffer} {b : Buffer}
    (h : channelArray config.shape.channels role buffer = .ok b) :
    emptyGradientMismatches quantity config.tolerance.emptyGradient
        (BackwardView.channelFloats config b) =
      nonzeroGradients config quantity (entry buffer) := by
  have hindexed : ((List.range config.shape.channels).map (entry buffer)).zipIdx =
      (List.range config.shape.channels).map fun c => (entry buffer c, c) := by
    refine List.ext_getElem (by simp) fun i hi _ => ?_
    simp
  rw [channelFloats_eq h, emptyGradientMismatches, hindexed, List.filter_map, List.map_map]
  rfl

theorem emptyMismatches_eq {config : RunConfig} {b : BackwardBuffers}
    {parameters : Option (ParameterGradients Buffer)} (h : b.parameters config = .ok parameters) :
    emptyMismatches config parameters = (emptyVerdict config b).mismatches := by
  obtain ⟨_, ⟨hmode, rfl⟩ | ⟨hmode, buffers, rfl, hdiffScale, hdiffShift⟩⟩ :=
    BackwardBuffers.parameters_eq_ok_iff.mp h
  · rw [emptyVerdict, if_neg (by rw [hmode]; decide)]
    rfl
  · rw [emptyVerdict, if_pos hmode]
    simp only [emptyMismatches, emptyGradientMismatches_eq hdiffScale,
      emptyGradientMismatches_eq hdiffShift]

/-- The verification of a tensor without elements concludes with the verdict on its
parameter gradients. -/
theorem verifyBackward_result_of_isEmpty {config : RunConfig} {b : BackwardBuffers}
    (haccepted : b.Accepted config) (hempty : config.shape.isEmpty = true) (raise : Bool) :
    (verifyBackward config b raise).result = (conclude (emptyVerdict config b) raise).result := by
  obtain ⟨parameters, hparameters, _⟩ := haccepted.checks
  unfold verifyBackward
  simp only [hparameters, hempty, if_true, Shape.demandTexts_eq_ok_iff.mpr haccepted.writable,
    Logged.provided, Logged.after, emptyMismatches_eq hparameters]
  rfl

/-! ## Both together -/

/-- Two values in training, whose gradients are all compared. -/
def twoGradients : RunConfig where
  shape := ⟨1, 1, 1, 1, 2⟩
  normalization := { epsilon := 0 }
  backwardMode := some .dataAndParameters
  epsilon_nonneg := by decide +kernel
  threads_pos := by simp

/-- Gradients of one that leave none for the input. -/
def twoGradientsBuffers : BackwardBuffers where
  src := some (.ofList .float32 [-1, 1])
  diffDst := some (.ofList .float32 [1, 1])
  diffSrc := some (.ofList .float32 [0, 0])
  mean := some (.ofList .float32 [0])
  variance := some (.ofList .float32 [1])
  srcLayout := .dense twoGradients.shape
  diffScale := some (.ofList .float32 [0])
  diffShift := some (.ofList .float32 [2])

end BatchNorm
