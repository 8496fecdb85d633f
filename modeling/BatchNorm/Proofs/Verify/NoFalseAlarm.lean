import BatchNorm.Proofs.Buffer.Packing
import BatchNorm.Proofs.Comparison.EqualValues
import BatchNorm.Proofs.Verify.Localisation

/-!
# No false alarm

A primitive that stores what the reference stores passes. Packing its output puts each
element where the verification reads it, and zeros into the padding; what is read is then
the expected value itself, and equal finite values are near under every largest deviation
that is not negative (`faithful_forward_passes`). Neither the floors nor the limit nor the
layouts have a part in it.
-/

set_option autoImplicit false

namespace BatchNorm

/-! ## The output of the reference -/

/-- The element that the reference stores at a site. -/
def ForwardChannel.output (ch : ForwardChannel) (config : RunConfig) (x : Site) :
    config.precision.elementType.Carrier :=
  let used := ch.statistics config
  let affine := if config.normalization.hasAffine then some ch.affine else none
  config.precision.store <| Affine.apply affine <|
    (ch.src x - used.mean) * inverseDeviation used.variance config.normalization.epsilon

theorem ForwardChannel.expected_eq_toFloat {ch : ForwardChannel} {config : RunConfig} {x : Site} :
    ch.expected config x = config.precision.elementType.toFloat (ch.output config x) := rfl

/-- The site of a position in its channel. -/
def Position.site (p : Position) : Site := ⟨p.n.toNat, p.d.toNat, p.h.toNat, p.w.toNat⟩

namespace ForwardBuffers

/-- The elements that the reference stores, in the order of their positions. The output
that is checked takes no part in them. -/
def referenceOutput (b : ForwardBuffers) (config : RunConfig) (src : Tensor) : Buffer :=
  .ofList config.precision.elementType <| config.shape.positions.map fun p =>
    (b.channel src src p.c.toNat).output config p.site

/-- The primitive reports the statistics of the reference, which are finite, where it has
to: in training, if they are computed. -/
def ReportsStatistics (b : ForwardBuffers) (config : RunConfig) (src : Tensor) : Prop :=
  config.normalization.computeStatistics = true → config.normalization.isTraining = true →
    ∀ c < config.shape.channels,
      let reference := Statistics.ofValues (config.shape.sites.map (b.channel src src c).src)
      ((entry b.mean c == reference.mean) = true ∧ reference.mean.isFinite = true) ∧
        (entry b.variance c == reference.variance) = true ∧ reference.variance.isFinite = true

variable {b : ForwardBuffers} {config : RunConfig} {src dst : Tensor} {d : Buffer} {dims : List Nat}
  {epsilon : Float}

theorem element_referenceOutput {c : Nat} (hc : c < config.shape.channels) {x : Site}
    (hx : x ∈ config.shape.sites) :
    (b.referenceOutput config src).element ((Layout.dense config.shape).offset (x.inChannel c)) =
      (b.channel src dst c).output config x :=
  Buffer.element_ofPositions rfl (Shape.inChannel_mem_positions hx hc)

theorem expected_mem_referenceOutput {c : Nat} (hc : c < config.shape.channels) {x : Site}
    (hx : x ∈ config.shape.sites) :
    (b.channel src dst c).expected config x ∈ (b.referenceOutput config src).toFloats := by
  rw [Buffer.toFloats, referenceOutput]
  refine List.mem_map.mpr
    ⟨(b.channel src dst c).output config x, ?_, ForwardChannel.expected_eq_toFloat.symm⟩
  exact List.mem_map.mpr ⟨x.inChannel c, Shape.inChannel_mem_positions hx hc, rfl⟩

/-- The reference output is packed as it is. -/
theorem eq_packed (hshape : b.outputLayout.shape = config.shape)
    (hpack : b.outputLayout.pack ⟨dims, b.referenceOutput config src⟩ none = .ok d) :
    d = b.outputLayout.packed (b.referenceOutput config src) := by
  obtain ⟨_, haccept, _⟩ := bind_eq_ok_iff.mp hpack
  have hsize : (b.referenceOutput config src).size = (Layout.dense b.outputLayout.shape).size := by
    rw [hshape, ← Layout.length_positions, referenceOutput, Buffer.size_ofList, List.length_map]
  exact Except.ok.inj (hpack.symm.trans (Layout.pack_eq_ok haccept hsize))

/-! ## What is found in it -/

theorem statisticsMismatches_eq_nil (h : b.ReportsStatistics config src) (hepsilon : 0 ≤ epsilon)
    {c : Nat} (hc : c < config.shape.channels) :
    (b.channel src dst c).statisticsMismatches config epsilon c = [] := by
  refine ForwardChannel.statisticsMismatches_eq_nil_iff.mpr fun hcompute htraining => ?_
  obtain ⟨⟨hmean, hfiniteMean⟩, hvariance, hfiniteVariance⟩ := h hcompute htraining c hc
  have hused : (b.channel src dst c).statistics config =
      .ofValues (config.shape.sites.map (b.channel src src c).src) := if_pos hcompute
  rw [hused]
  exact ⟨nearlyEqual_of_beq hmean hfiniteMean hepsilon,
    nearlyEqual_of_beq hvariance hfiniteVariance hepsilon⟩

theorem outputMismatches_eq_nil
    (hvalues : ∀ c < config.shape.channels, ∀ x ∈ config.shape.sites,
      dst.floatAt (x.inChannel c) = (b.channel src dst c).expected config x)
    (hfinite : ∀ x ∈ (b.referenceOutput config src).toFloats, x.isFinite = true)
    (hepsilon : 0 ≤ epsilon) {c : Nat} (hc : c < config.shape.channels) :
    (b.channel src dst c).outputMismatches config epsilon c = [] := by
  refine siteMismatches_eq_nil_iff.mpr fun x hx => ?_
  have hexpected : ((b.channel src dst c).expected config x).isFinite = true :=
    hfinite _ (expected_mem_referenceOutput hc hx)
  refine nearlyEqual_of_beq ?_ hexpected hepsilon
  show (dst.floatAt (x.inChannel c) == _) = true
  rw [hvalues c hc x hx]
  exact beq_self_of_isFinite hexpected

end ForwardBuffers

/-- The largest deviation allowed is not negative if the factor is not. -/
theorem epsilon_nonneg {config : RunConfig} {epsilon : Float}
    (hnonempty : config.shape.isEmpty = false) (hfactor : 0 ≤ config.tolerance.epsilonFactor)
    (h : config.epsilon = .ok epsilon) : 0 ≤ epsilon := by
  unfold RunConfig.epsilon Tolerance.epsilonFor at h
  split at h
  · rename_i hfinite
    rw [← Except.ok.inj h]
    exact mul_natCast_nonneg hfactor (reductionSize_pos hnonempty) hfinite
  · exact absurd h nofun

theorem ForwardView.Of.mismatches_eq_nil {v : ForwardView} {b : ForwardBuffers}
    {config : RunConfig} (h : v.Of b config) {dims : List Nat}
    (hpack : b.outputLayout.pack
      ⟨dims, b.referenceOutput config (v.srcLayout.unpacked v.src)⟩ none = .ok v.dst)
    (hfinite : ∀ x ∈ (b.referenceOutput config (v.srcLayout.unpacked v.src)).toFloats,
      x.isFinite = true)
    (hreported : b.ReportsStatistics config (v.srcLayout.unpacked v.src)) {epsilon : Float}
    (hepsilon : 0 ≤ epsilon) :
    (forwardVerdict config b (v.srcLayout.unpacked v.src) (v.dstLayout.unpacked v.dst)
      (nonzeroCells "dst" v.dst v.dstLayout) epsilon
      (upTo config.tolerance.maxReported)).mismatches = [] := by
  have hshape : b.outputLayout.shape = config.shape := h.dstLayout ▸ h.dstFits.shape
  have hdst := ForwardBuffers.eq_packed hshape hpack
  rw [h.dstLayout]
  generalize v.srcLayout.unpacked v.src = src at *
  refine mergeMismatches_eq_nil_iff.mpr ⟨fun c hc => ⟨?_, ?_⟩, fun _ => ?_⟩
  · exact ForwardBuffers.statisticsMismatches_eq_nil hreported hepsilon hc
  · rw [ForwardBuffers.outputMismatches_eq_nil (fun c hc x hx => ?_) hfinite hepsilon hc, upTo_nil]
    -- what is read at the place of a position is what was packed there
    have hmem : x.inChannel c ∈ b.outputLayout.shape.positions :=
      hshape ▸ Shape.inChannel_mem_positions hx hc
    rw [Layout.floatAt_unpacked hmem, hdst]
    have hpacked : (b.outputLayout.packed (b.referenceOutput config src)).element
        (b.outputLayout.offset (x.inChannel c)) = (b.channel src src c).output config x := by
      rw [Layout.element_packed_offset hmem, hshape]
      exact ForwardBuffers.element_referenceOutput hc hx
    exact congrArg config.precision.elementType.toFloat hpacked
  · have hcells : nonzeroCells "dst" v.dst b.outputLayout = [] := by
      refine cellMismatches_eq_nil_iff.mpr fun p hp => ?_
      have hpacked : (b.outputLayout.packed (b.referenceOutput config src)).element
          (b.outputLayout.offset p) = config.precision.elementType.zero :=
        Layout.element_packed_padding (List.mem_map_of_mem hp)
      rw [hdst, ← config.precision.zero_eq]
      exact congrArg (config.precision.elementType.toFloat · != 0) hpacked
    rw [hcells, upTo_nil]

/-- **No false alarm.** Take accepted buffers with elements whose output is the packed
output of the reference, all of it finite, and which report the statistics of the
reference where they have to. If the factor of the largest deviation is not negative, the
run passes with nothing found, whatever the floors, the limit, the precision, the modes
and the layouts are. -/
theorem faithful_forward_passes {config : RunConfig} {b : ForwardBuffers} {s d : Buffer}
    {src : Tensor} {dims : List Nat} (hnonempty : config.shape.isEmpty = false)
    (haccepted : b.Accepted config) (hfactor : 0 ≤ config.tolerance.epsilonFactor)
    (hsrc : b.src = some s) (hunpack : b.srcLayout.unpack s = .ok src) (hdst : b.dst = some d)
    (hpack : b.outputLayout.pack ⟨dims, b.referenceOutput config src⟩ none = .ok d)
    (hfinite : ∀ x ∈ (b.referenceOutput config src).toFloats, x.isFinite = true)
    (hreported : b.ReportsStatistics config src) :
    ∃ verdict : Verdict, verdict.config = config ∧ verdict.mismatches = [] ∧
      (∀ raise, (verifyForward config b raise).result = config.epsilon.map fun _ => verdict) ∧
      (s.size < 2 ^ 64 → ∀ raise, (verifyForward config b raise).result = .ok verdict) := by
  obtain ⟨v, h⟩ := haccepted.exists_view hnonempty
  obtain rfl : v.src = s :=
    Option.some.inj ((activation_eq_ok_iff.mp h.src).1.symm.trans hsrc)
  obtain rfl : v.dst = d :=
    Option.some.inj ((activation_eq_ok_iff.mp h.dst).1.symm.trans hdst)
  obtain rfl : v.srcLayout.unpacked v.src = src := by
    rw [← h.srcLayout, h.srcFits.unpack] at hunpack
    exact Except.ok.inj hunpack
  -- the reference statistics do not depend on the largest deviation allowed
  let verdict : Verdict :=
    { forwardVerdict config b (v.srcLayout.unpacked v.src) (v.dstLayout.unpacked v.dst) [] 0 id with
      mismatches := [] }
  have hresult : ∀ raise, (verifyForward config b raise).result =
      config.epsilon.map fun _ => verdict := by
    intro raise
    rw [h.verifyForward_result]
    rcases hepsilon : config.epsilon with e | epsilon
    · rfl
    · have hnil := h.mismatches_eq_nil hpack hfinite hreported
        (epsilon_nonneg hnonempty hfactor hepsilon)
      rw [ok_bind, conclude_result_of_passed (List.isEmpty_iff.mpr hnil)]
      exact congrArg (fun mismatches => Except.ok { verdict with mismatches }) hnil
  refine ⟨verdict, rfl, rfl, hresult, fun hsize raise => ?_⟩
  rw [hresult, epsilon_eq_ok
    (lt_of_le_of_lt (h.srcFits.reductionSize_le (channels_pos hnonempty)) hsize)]
  rfl

/-- A training run that reports what it computes. Its floors are no numbers. -/
def trainedChannels : RunConfig :=
  { twoChannels with
    normalization := { epsilon := 0 }
    tolerance := { statisticsFloor := 0 / 0, outputFloor := 0 / 0 } }

/-- The statistics and the output, in blocks, of the reference. -/
def trainedBuffers : ForwardBuffers where
  src := some (.ofList .float32 [1, 3, 2, 6])
  dst := some (.ofList .float32 [-1, -1, 0, 0, 1, 1, 0, 0])
  srcLayout := .dense twoChannels.shape
  dstLayout := some twoChannelsBlocked
  mean := some (.ofList .float32 [2, 4])
  variance := some (.ofList .float32 [1, 4])

theorem faithful_forward_passes_trained :
    let src : Tensor := ⟨trainedChannels.shape.dims, .ofList .float32 [1, 3, 2, 6]⟩
    trainedBuffers.Accepted trainedChannels ∧
      0 ≤ trainedChannels.tolerance.epsilonFactor ∧
      trainedBuffers.ReportsStatistics trainedChannels src ∧
      ∃ verdict : Verdict, verdict.mismatches = [] ∧
        (verifyForward trainedChannels trainedBuffers true).result = .ok verdict := by
  intro src
  have haccepted : trainedBuffers.Accepted trainedChannels :=
    ForwardBuffers.accepted_of_view (by decide +kernel) (by decide) (by decide) (by decide)
  have hfactor : 0 ≤ trainedChannels.tolerance.epsilonFactor := by decide +kernel
  have hreported : trainedBuffers.ReportsStatistics trainedChannels src := by
    intro _ _
    decide +kernel
  have houtput : trainedBuffers.referenceOutput trainedChannels src =
      .ofList .float32 [-1, 1, -1, 1] := by
    have hvalues : @id (Array Float32) (trainedBuffers.referenceOutput trainedChannels src).values =
        #[-1, 1, -1, 1] := by decide +kernel
    exact congrArg (Buffer.mk .float32) hvalues
  have hpack : trainedBuffers.outputLayout.pack
      ⟨trainedChannels.shape.dims, trainedBuffers.referenceOutput trainedChannels src⟩ none =
        .ok (.ofList .float32 [-1, -1, 0, 0, 1, 1, 0, 0]) := by
    rw [houtput]
    rfl
  have hfinite : ∀ x ∈ (trainedBuffers.referenceOutput trainedChannels src).toFloats,
      x.isFinite = true := by
    decide +kernel
  obtain ⟨verdict, _, hnone, _, hpasses⟩ := faithful_forward_passes rfl haccepted hfactor rfl
    rfl rfl hpack hfinite hreported
  exact ⟨haccepted, hfactor, hreported, verdict, hnone, hpasses (by decide) true⟩

end BatchNorm
