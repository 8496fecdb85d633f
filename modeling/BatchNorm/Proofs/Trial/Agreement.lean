import BatchNorm.Proofs.Trial.CaseRun
import BatchNorm.Proofs.Verify.Localisation

/-!
# What a passing case says about the primitive

The buffers of a case are the primitive's to write, its inputs among them, and they are
looked at after the call only. So a case that passes says that the outputs agree with the
reference on the inputs as the primitive left them. If it left those that the run reads
as they were, that are the inputs it was handed (`passing_case_agrees`); if not, a wrong
output may pass (`erased_case_passes`).
-/

set_option autoImplicit false

namespace BatchNorm

/-! ## Agreement with the reference -/

/-- The tensor that a layout finds in a buffer. Where there is no buffer, it is one of
zeros. -/
def heldTensor (l : Layout) (buffer : Option Buffer) : Tensor :=
  l.unpacked (buffer.getD (.zeros .float32 0))

theorem heldTensor_some (l : Layout) (b : Buffer) : heldTensor l (some b) = l.unpacked b := rfl

/-- Outputs of a channel that are near to what the reference makes of some inputs. -/
structure ForwardChannel.NearReference (outputs inputs : ForwardChannel) (config : RunConfig)
    (epsilon : Float) : Prop where
  dst : ∀ x ∈ config.shape.sites, nearlyEqual (outputs.dst x) (inputs.expected config x) epsilon
    (config.tolerance.outputFloorFor config.precision) = true
  statistics : config.normalization.computeStatistics = true →
    config.normalization.isTraining = true →
      let used := inputs.statistics config
      let floor := config.tolerance.statisticsFloor
      nearlyEqual outputs.reported.mean used.mean epsilon floor = true ∧
        nearlyEqual outputs.reported.variance used.variance epsilon floor = true

/-- Gradients of a channel that are near to what the reference makes of some inputs. -/
structure BackwardChannel.NearReference (outputs inputs : BackwardChannel) (config : RunConfig)
    (epsilon : Float) : Prop where
  diffSrc : ∀ x ∈ config.shape.sites, nearlyEqual (outputs.diffSrc x) (inputs.expected config x)
    epsilon config.tolerance.diffSrcFloor = true
  parameters : config.backwardMode = some .dataAndParameters →
    let gradients := inputs.gradients config
    let floor := config.tolerance.gradientFloor
    nearlyEqual outputs.reported.diffScale gradients.diffScale epsilon floor = true ∧
      nearlyEqual outputs.reported.diffShift gradients.diffShift epsilon floor = true

namespace ForwardBuffers

variable {b b' : ForwardBuffers} {config : RunConfig}

/-- Channel `c` of the tensors that the buffers hold. -/
def heldChannel (b : ForwardBuffers) (c : Nat) : ForwardChannel :=
  b.channel (heldTensor b.srcLayout b.src) (heldTensor b.outputLayout b.dst) c

/-- Buffers with the same inputs for a run: the source, the statistics that are supplied,
and the affine parameters that are applied. -/
structure SameInputs (b b' : ForwardBuffers) (config : RunConfig) : Prop where
  src : b.src = b'.src
  layout : b.srcLayout = b'.srcLayout
  statistics : config.normalization.computeStatistics = false →
    b.mean = b'.mean ∧ b.variance = b'.variance
  affine : config.normalization.hasAffine = true → b.scale = b'.scale ∧ b.shift = b'.shift

theorem SameInputs.refl (b : ForwardBuffers) (config : RunConfig) : b.SameInputs b config :=
  ⟨rfl, rfl, fun _ => ⟨rfl, rfl⟩, fun _ => ⟨rfl, rfl⟩⟩

namespace SameInputs

variable (h : b.SameInputs b' config) (c : Nat)

include h

theorem src_eq : (b.heldChannel c).src = (b'.heldChannel c).src := by
  simp only [heldChannel, channel, h.src, h.layout]

theorem statistics_eq :
    (b.heldChannel c).statistics config = (b'.heldChannel c).statistics config := by
  rw [ForwardChannel.statistics, ForwardChannel.statistics, h.src_eq]
  split
  · rfl
  · rename_i hcompute
    obtain ⟨hmean, hvariance⟩ := h.statistics (Bool.eq_false_iff.mpr hcompute)
    simp only [heldChannel, channel, hmean, hvariance]

/-- What the reference makes of a channel depends on nothing but the inputs. -/
theorem expected_eq :
    (b.heldChannel c).expected config = (b'.heldChannel c).expected config := by
  have haffine : (if config.normalization.hasAffine then some (b.heldChannel c).affine else none) =
      if config.normalization.hasAffine then some (b'.heldChannel c).affine else none := by
    split
    · rename_i hflag
      obtain ⟨hscale, hshift⟩ := h.affine hflag
      simp only [heldChannel, channel, hscale, hshift]
    · rfl
  funext x
  simp only [ForwardChannel.expected, h.statistics_eq, h.src_eq, haffine]

theorem nearReference {outputs : ForwardChannel} {epsilon : Float}
    (hnear : outputs.NearReference (b'.heldChannel c) config epsilon) :
    outputs.NearReference (b.heldChannel c) config epsilon where
  dst x hx := by
    rw [h.expected_eq]
    exact hnear.dst x hx
  statistics hcompute htraining := by
    rw [h.statistics_eq]
    exact hnear.statistics hcompute htraining

end SameInputs

/-- A run with elements that passes found the outputs near to the reference on the inputs
that the buffers hold. -/
theorem nearReference_of_passed {raise : Bool} {verdict : Verdict}
    (hnonempty : config.shape.isEmpty = false) (hlimit : Ample config.tolerance.maxReported)
    (hresult : (verifyForward config b raise).result = .ok verdict)
    (hpassed : verdict.passed = true) :
    ∃ epsilon, config.epsilon = .ok epsilon ∧ ∀ c < config.shape.channels,
      (b.heldChannel c).NearReference (b.heldChannel c) config epsilon := by
  obtain ⟨v, h, epsilon, hepsilon, rfl⟩ := exists_of_result hnonempty hresult
  have hchannel : ∀ c, b.channel (v.srcLayout.unpacked v.src) (v.dstLayout.unpacked v.dst) c =
      b.heldChannel c := fun c => by
    rw [heldChannel, (activation_eq_ok_iff.mp h.src).1, (activation_eq_ok_iff.mp h.dst).1,
      heldTensor_some, heldTensor_some, h.srcLayout, h.dstLayout]
  obtain ⟨hchannels, _⟩ := mergeMismatches_eq_nil_iff.mp (List.isEmpty_iff.mp hpassed)
  refine ⟨epsilon, hepsilon, fun c hc => ?_⟩
  obtain ⟨hscalars, helements⟩ := hchannels c hc
  rw [hchannel] at hscalars helements
  constructor
  · exact siteMismatches_eq_nil_iff.mp (eq_nil_of_upTo_eq_nil hlimit helements)
  · exact ForwardChannel.statisticsMismatches_eq_nil_iff.mp hscalars

end ForwardBuffers

namespace BackwardBuffers

variable {b b' : BackwardBuffers} {config : RunConfig}

/-- Channel `c` of the tensors that the buffers hold. -/
def heldChannel (b : BackwardBuffers) (c : Nat) : BackwardChannel :=
  b.channel (heldTensor b.srcLayout b.src) (heldTensor b.gradientLayout b.diffDst)
    (heldTensor b.outputLayout b.diffSrc) c

/-- Buffers with the same inputs for a run: the source, the gradient with respect to the
output, the statistics, and the scale that is applied. -/
structure SameInputs (b b' : BackwardBuffers) (config : RunConfig) : Prop where
  src : b.src = b'.src
  layout : b.srcLayout = b'.srcLayout
  diffDst : b.diffDst = b'.diffDst
  gradientLayout : b.gradientLayout = b'.gradientLayout
  mean : b.mean = b'.mean
  variance : b.variance = b'.variance
  scale : config.normalization.hasAffine = true → b.scale = b'.scale

namespace SameInputs

variable (h : b.SameInputs b' config) (c : Nat)

include h

theorem src_eq : (b.heldChannel c).src = (b'.heldChannel c).src := by
  simp only [heldChannel, channel, h.src, h.layout]

theorem diffDst_eq : (b.heldChannel c).diffDst = (b'.heldChannel c).diffDst := by
  simp only [heldChannel, channel, h.diffDst, h.gradientLayout]

theorem statistics_eq : (b.heldChannel c).statistics = (b'.heldChannel c).statistics := by
  simp only [heldChannel, channel, h.mean, h.variance]

theorem gradients_eq :
    (b.heldChannel c).gradients config = (b'.heldChannel c).gradients config := by
  simp only [BackwardChannel.gradients, BackwardChannel.inverse, h.src_eq, h.diffDst_eq,
    h.statistics_eq]

/-- What the reference makes of a channel depends on nothing but the inputs. -/
theorem expected_eq :
    (b.heldChannel c).expected config = (b'.heldChannel c).expected config := by
  have hgamma : (if config.normalization.hasAffine then (b.heldChannel c).scale else 1) =
      if config.normalization.hasAffine then (b'.heldChannel c).scale else 1 := by
    split
    · rename_i hflag
      simp only [heldChannel, channel, h.scale hflag]
    · rfl
  funext x
  simp only [BackwardChannel.expected, BackwardChannel.inverse, h.gradients_eq, h.src_eq,
    h.diffDst_eq, h.statistics_eq, hgamma]

theorem nearReference {outputs : BackwardChannel} {epsilon : Float}
    (hnear : outputs.NearReference (b'.heldChannel c) config epsilon) :
    outputs.NearReference (b.heldChannel c) config epsilon where
  diffSrc x hx := by
    rw [h.expected_eq]
    exact hnear.diffSrc x hx
  parameters hmode := by
    rw [h.gradients_eq]
    exact hnear.parameters hmode

end SameInputs

/-- A run with elements that passes found the gradients near to the reference on the
inputs that the buffers hold. -/
theorem nearReference_of_passed {raise : Bool} {verdict : Verdict}
    (hnonempty : config.shape.isEmpty = false) (hlimit : Ample config.tolerance.maxReported)
    (hresult : (verifyBackward config b raise).result = .ok verdict)
    (hpassed : verdict.passed = true) :
    ∃ epsilon, config.epsilon = .ok epsilon ∧ ∀ c < config.shape.channels,
      (b.heldChannel c).NearReference (b.heldChannel c) config epsilon := by
  obtain ⟨v, h, epsilon, hepsilon, rfl⟩ := exists_of_result hnonempty hresult
  have hchannel : ∀ c, b.channel (v.srcLayout.unpacked v.src) (v.diffDstLayout.unpacked v.diffDst)
      (v.diffSrcLayout.unpacked v.diffSrc) c = b.heldChannel c := fun c => by
    rw [heldChannel, (activation_eq_ok_iff.mp h.src).1, (activation_eq_ok_iff.mp h.diffDst).1,
      (activation_eq_ok_iff.mp h.diffSrc).1, heldTensor_some, heldTensor_some, heldTensor_some,
      h.srcLayout, h.diffDstLayout, h.diffSrcLayout]
  obtain ⟨hchannels, _⟩ := mergeMismatches_eq_nil_iff.mp (List.isEmpty_iff.mp hpassed)
  refine ⟨epsilon, hepsilon, fun c hc => ?_⟩
  obtain ⟨hscalars, helements⟩ := hchannels c hc
  rw [hchannel] at hscalars helements
  constructor
  · exact siteMismatches_eq_nil_iff.mp (eq_nil_of_upTo_eq_nil hlimit helements)
  · intro hmode
    rw [BackwardChannel.parameterMismatches, if_pos hmode] at hscalars
    obtain ⟨hscale, hshift⟩ := List.append_eq_nil_iff.mp hscalars
    exact ⟨scalarMismatches_eq_nil_iff.mp hscale, scalarMismatches_eq_nil_iff.mp hshift⟩

/-- The gradients with respect to scale and shift that a run without elements lets pass:
they are near to zero, which is the sum of nothing. -/
def NearZero (b : BackwardBuffers) (config : RunConfig) : Prop :=
  config.backwardMode = some .dataAndParameters → ∀ c < config.shape.channels,
    (entry b.diffScale c).abs ≤ config.tolerance.emptyGradient ∧
      (entry b.diffShift c).abs ≤ config.tolerance.emptyGradient

theorem abs_le_of_nonzeroGradients_eq_nil {quantity : String} {value : Nat → Float}
    (h : nonzeroGradients config quantity value = []) {c : Nat} (hc : c < config.shape.channels) :
    (value c).abs ≤ config.tolerance.emptyGradient := by
  have hfilter := List.filter_eq_nil_iff.mp (List.map_eq_nil_iff.mp h) c (List.mem_range.mpr hc)
  simpa using hfilter

theorem nearZero_of_passed {raise : Bool} {verdict : Verdict} (hempty : config.shape.isEmpty = true)
    (hresult : (verifyBackward config b raise).result = .ok verdict)
    (hpassed : verdict.passed = true) : b.NearZero config := by
  have haccepted : b.Accepted config := by
    rcases hparameters : b.parameters config with e | parameters
    · rw [verifyBackward, hparameters] at hresult
      cases hresult
    · have hnone : ¬ config.shape.isEmpty = false := by simp [hempty]
      simp only [verifyBackward, hparameters, hempty, if_true] at hresult
      obtain ⟨htexts, _⟩ := Logged.result_of_provided hresult
      exact ⟨⟨parameters, hparameters, fun h => absurd h hnone⟩,
        Shape.demandTexts_eq_ok_iff.mp htexts, fun h => absurd h hnone⟩
  rw [verifyBackward_result_of_isEmpty haccepted hempty] at hresult
  rw [eq_of_conclude_result hresult] at hpassed
  intro hmode c hc
  have hnone := List.isEmpty_iff.mp hpassed
  rw [emptyVerdict, if_pos hmode] at hnone
  obtain ⟨hscale, hshift⟩ := List.append_eq_nil_iff.mp hnone
  exact ⟨abs_le_of_nonzeroGradients_eq_nil hscale hc, abs_le_of_nonzeroGradients_eq_nil hshift hc⟩

end BackwardBuffers

/-! ## Passing cases -/

/-- **Passing cases.** A case that passes, with no limit or one above zero, handed buffers
to the primitive, and the primitive left buffers. If there are elements, then the outputs
that it left agree with the reference on all inputs that are the same as those that it
left: on those, and on the inputs it was handed if they are still the same. Without
elements a forward case compares nothing, and a backward case finds the parameter
gradients near to zero. -/
theorem passing_case_agrees {γ σ : Type} [RandomSource γ] (primitive : Primitive σ)
    (config : RunConfig) (layout diffLayout : Layout) (raise : Bool) (bench last : Bench γ σ)
    (verdict : Verdict) (hlimit : Ample config.tolerance.maxReported)
    (hpassed : verdict.passed = true) :
    (∀ name, (runForwardCase primitive name config layout raise).runOn bench =
        (.ok verdict, last) →
      ∃ given prepared written,
        (Trial.forwardBuffers config layout).runOn bench = (.ok given, prepared) ∧
        primitive.forward config given prepared.state = (.ok written, last.state) ∧
        (config.shape.isEmpty = false → ∃ epsilon, config.epsilon = .ok epsilon ∧
          ∀ inputs : ForwardBuffers, inputs.SameInputs written config →
            ∀ c < config.shape.channels,
              (written.heldChannel c).NearReference (inputs.heldChannel c) config epsilon)) ∧
    (∀ case, (runBackwardCase primitive case config layout diffLayout raise).runOn bench =
        (.ok verdict, last) →
      ∃ given prepared written,
        (Trial.backwardBuffers config case.mode layout diffLayout).runOn bench =
          (.ok given, prepared) ∧
        primitive.backward config given prepared.state = (.ok written, last.state) ∧
        (config.shape.isEmpty = true → written.NearZero config) ∧
        (config.shape.isEmpty = false → ∃ epsilon, config.epsilon = .ok epsilon ∧
          ∀ inputs : BackwardBuffers, inputs.SameInputs written config →
            ∀ c < config.shape.channels,
              (written.heldChannel c).NearReference (inputs.heldChannel c) config epsilon)) := by
  constructor
  · intro name hrun
    rw [runForwardCase_eq_inParts, Trial.runOn_inParts_eq_ok_iff] at hrun
    obtain ⟨given, prepared, written, state, hfill, hcall, hresult, rfl⟩ := hrun
    refine ⟨given, prepared, written, hfill, hcall, fun hnonempty => ?_⟩
    obtain ⟨epsilon, hepsilon, hnear⟩ :=
      ForwardBuffers.nearReference_of_passed hnonempty hlimit hresult hpassed
    exact ⟨epsilon, hepsilon, fun inputs hinputs c hc => hinputs.nearReference c (hnear c hc)⟩
  · intro case hrun
    rw [runBackwardCase_eq_inParts, Trial.runOn_inParts_eq_ok_iff] at hrun
    obtain ⟨given, prepared, written, state, hfill, hcall, hresult, rfl⟩ := hrun
    refine ⟨given, prepared, written, hfill, hcall,
      fun hempty => BackwardBuffers.nearZero_of_passed hempty hresult hpassed, fun hnonempty => ?_⟩
    obtain ⟨epsilon, hepsilon, hnear⟩ :=
      BackwardBuffers.nearReference_of_passed hnonempty hlimit hresult hpassed
    exact ⟨epsilon, hepsilon, fun inputs hinputs c hc => hinputs.nearReference c (hnear c hc)⟩

/-- Whether a step ends with a verdict that passes. -/
def Trial.passesOn {γ σ : Type} (step : Trial γ σ Verdict) (bench : Bench γ σ) : Bool :=
  match step.runOn bench with
  | (.ok verdict, _) => verdict.passed
  | (.error _, _) => false

theorem Trial.exists_of_passesOn {γ σ : Type} {step : Trial γ σ Verdict} {bench : Bench γ σ}
    (h : step.passesOn bench = true) :
    ∃ verdict last, step.runOn bench = (.ok verdict, last) ∧ verdict.passed = true := by
  rw [passesOn] at h
  rcases hrun : step.runOn bench with ⟨e | verdict, last⟩
  · rw [hrun] at h
    cases h
  · rw [hrun] at h
    exact ⟨verdict, last, rfl, h⟩

/-- The training of a single element. -/
def pointTraining : RunConfig where
  shape := ⟨1, 1, 1, 1, 1⟩
  normalization := { epsilon := 0.5 }
  epsilon_nonneg := by decide +kernel
  threads_pos := RunConfig.threads_pos_none

def pointBench : Bench Splitmix Unit := ⟨.ofSeed 0, (), []⟩

/-- A primitive that is right about a single element: the element is the mean. -/
def centring : Primitive Unit where
  forward _ given state :=
    (.ok { given with
      dst := some (.zeros .float32 1)
      mean := given.src
      variance := some (.zeros .float32 1) }, state)
  backward _ _ state := (.error (.raised .notImplemented ""), state)

theorem passing_case_agrees_pointTraining :
    ∃ verdict last given prepared written epsilon,
      Ample pointTraining.tolerance.maxReported ∧ verdict.passed = true ∧
      (runForwardCase centring "" pointTraining (.dense pointTraining.shape) true).runOn
        pointBench = (.ok verdict, last) ∧
      (Trial.forwardBuffers pointTraining (.dense pointTraining.shape)).runOn pointBench =
        (.ok given, prepared) ∧
      centring.forward pointTraining given prepared.state = (.ok written, last.state) ∧
      (written.heldChannel 0).NearReference (given.heldChannel 0) pointTraining epsilon := by
  have hample : Ample pointTraining.tolerance.maxReported := by
    intro m hm
    rw [← Option.some.inj hm]
    decide
  have hpasses : (runForwardCase centring "" pointTraining (.dense pointTraining.shape)
      true).passesOn pointBench = true := by decide +kernel
  obtain ⟨verdict, last, hrun, hpassed⟩ := Trial.exists_of_passesOn hpasses
  obtain ⟨given, prepared, written, hfill, hcall, hnear⟩ :=
    (passing_case_agrees centring pointTraining (.dense pointTraining.shape)
      (.dense pointTraining.shape) true pointBench last verdict hample hpassed).1 "" hrun
  obtain ⟨epsilon, _, hnear⟩ := hnear rfl
  -- the source is all that is read, and it is kept
  have hinputs : given.SameInputs written pointTraining := by
    obtain rfl := Except.ok.inj (congrArg Prod.fst hcall)
    refine ⟨rfl, rfl, fun hsupplied => ?_, fun haffine => ?_⟩
    · cases hsupplied
    · cases haffine
  exact ⟨verdict, last, given, prepared, written, epsilon, hample, hpassed, hrun, hfill, hcall,
    hnear given hinputs 0 (by decide)⟩

/-- A primitive that leaves nothing but zeros, in the source as well. -/
def erasing : Primitive Unit where
  forward _ given state :=
    (.ok { given with src := some (.zeros .float32 1), dst := some (.zeros .float32 1) }, state)
  backward _ _ state := (.error (.raised .notImplemented ""), state)

/-- A case may pass whose outputs do not agree with the reference on the inputs that the
primitive was handed: the mean of a source that it erased is taken for zero. -/
theorem erased_case_passes :
    ∃ verdict last given prepared written,
      (runForwardCase erasing "" pointTraining (.dense pointTraining.shape) true).runOn pointBench =
        (.ok verdict, last) ∧ verdict.passed = true ∧
      (Trial.forwardBuffers pointTraining (.dense pointTraining.shape)).runOn pointBench =
        (.ok given, prepared) ∧
      erasing.forward pointTraining given prepared.state = (.ok written, last.state) ∧
      ∃ epsilon, pointTraining.epsilon = .ok epsilon ∧
        ¬ (written.heldChannel 0).NearReference (given.heldChannel 0) pointTraining epsilon := by
  have hpasses : (runForwardCase erasing "" pointTraining (.dense pointTraining.shape)
      true).passesOn pointBench = true := by decide +kernel
  obtain ⟨verdict, last, hrun, hpassed⟩ := Trial.exists_of_passesOn hpasses
  have hparts := hrun
  rw [runForwardCase_eq_inParts, Trial.runOn_inParts_eq_ok_iff] at hparts
  obtain ⟨given, prepared, written, state, hfill, hcall, _, hlast⟩ := hparts
  -- the reported mean is still zero, and that of the source is not
  have hfar : (match (Trial.forwardBuffers pointTraining (.dense pointTraining.shape)).runOn
      pointBench with
    | (.ok given, _) => nearlyEqual (entry given.mean 0)
        ((given.heldChannel 0).statistics pointTraining).mean
        (scaledEpsilon standardEpsilonFactor 1) 1
    | (.error _, _) => true) = false := by decide +kernel
  rw [hfill] at hfar
  refine ⟨verdict, last, given, prepared, written, hrun, hpassed, hfill, ?_, _, rfl,
    fun hnear => ?_⟩
  · rw [hlast]
    exact hcall
  · have hmean := (hnear.statistics rfl rfl).1
    obtain rfl := Except.ok.inj (congrArg Prod.fst hcall)
    exact absurd (hfar.symm.trans hmean) (by decide)

end BatchNorm
