import BatchNorm.Comparison.Channel
import BatchNorm.Reference.Gradient
import BatchNorm.Reference.Statistics
import BatchNorm.Run.Sweep
import BatchNorm.Run.Verdict
import BatchNorm.Verify.Inputs

/-!
# Verification of a backward run

The gradients are computed again, channel by channel, from the input, the
gradient with respect to the output and the statistics of the forward run, which
are taken as they are.

* `BackwardBuffers.view` checks the buffers and picks those that are read.
* `BackwardView.compare` compares them with the reference.
* `emptyMismatches` is all that is left to compare without elements.
* `verifyBackward` does both, with the log lines of a run.
-/

set_option autoImplicit false

namespace BatchNorm

structure BackwardView where
  src : Buffer
  diffDst : Buffer
  diffSrc : Buffer
  srcLayout : Layout
  diffDstLayout : Layout
  diffSrcLayout : Layout
  statistics : Statistics Buffer
  scale : Option Buffer
  parameters : Option (ParameterGradients Buffer)

/-- The reported gradients with respect to scale and shift, in the mode that has
them. Binary32 runs with a mode are all there is. -/
def BackwardBuffers.parameters (b : BackwardBuffers) (config : RunConfig) :
    Except Failure (Option (ParameterGradients Buffer)) := do
  require (config.precision = .f32) (.backwardPrecision config.precision)
  match config.backwardMode with
  | none => refuse .backwardMode
  | some .data => return none
  | some .dataAndParameters =>
    let diffScale ← channelArray config.shape.channels .diffScale b.diffScale
    let diffShift ← channelArray config.shape.channels .diffShift b.diffShift
    return some ⟨diffScale, diffShift⟩

/-- Checks the buffers that are read when there are elements. -/
def BackwardBuffers.view (b : BackwardBuffers) (config : RunConfig)
    (parameters : Option (ParameterGradients Buffer)) : Except Failure BackwardView := do
  let src ← activation config .float32 .src b.src b.srcLayout
  let diffDst ← activation config .float32 .diffDst b.diffDst b.gradientLayout
  let diffSrc ← activation config .float32 .diffSrc b.diffSrc b.outputLayout
  let channels := config.shape.channels
  let mean ← channelArray channels .mean b.mean
  let variance ← channelArray channels .variance b.variance
  let scale ←
    if config.normalization.hasAffine then some <$> channelArray channels .scale b.scale
    else pure none
  return {
    src, diffDst, diffSrc, scale, parameters
    srcLayout := b.srcLayout
    diffDstLayout := b.gradientLayout
    diffSrcLayout := b.outputLayout
    statistics := ⟨mean, variance⟩ }

namespace BackwardView

/-- The mismatches of the gradients with respect to scale and shift. -/
def compareParameters (config : RunConfig) (epsilon : Float) (c : Nat)
    (buffers : ParameterGradients Buffer) (reference : ParameterGradients Float) :
    Except Failure (List Mismatch) := do
  let floor := config.tolerance.gradientFloor
  let scales ← compareScalar "diff_scale" c (← buffers.diffScale.readFloat c) reference.diffScale
    epsilon floor
  let shifts ← compareScalar "diff_shift" c (← buffers.diffShift.readFloat c) reference.diffShift
    epsilon floor
  return scales ++ shifts

/-- The parameter gradients of channel `c` and its mismatches: of the parameter
gradients first, then of the gradient with respect to the input. The columns hold the
coordinates of the sites. -/
def checkChannel (v : BackwardView) (config : RunConfig) (epsilon : Float)
    (columns : List (List Int)) (c : Nat) :
    Except Failure (ParameterGradients Float × List Mismatch) := do
  let values := (← v.srcLayout.channelValues v.src c).map widen
  let grads := (← v.diffDstLayout.channelValues v.diffDst c).map widen
  let mean ← v.statistics.mean.readFloat c
  let inverse := inverseDeviation (← v.statistics.variance.readFloat c) config.normalization.epsilon
  let gamma ← match v.scale with
    | some scale => scale.readFloat c
    | none => pure 1
  let reference ← parameterGradients values grads mean inverse
  let found ← match v.parameters with
    | some buffers => compareParameters config epsilon c buffers reference
    | none => pure []
  let expected ← inputGradient values grads mean inverse reference gamma
    config.normalization.computeStatistics
  let actual ← v.diffSrc.gatherFloats (← v.diffSrcLayout.channelIndices c)
  let elements ← compareChannel "diff_src" c actual expected epsilon config.tolerance.diffSrcFloor
    (some columns) config.tolerance.maxReported
  return (reference, found ++ elements)

def channelFloats (config : RunConfig) (b : Buffer) : List Float :=
  b.toFloats.take config.shape.channels

/-- The comparison of a whole run: channel by channel, then the padding. -/
def compare (v : BackwardView) (config : RunConfig) : Except Failure Verdict := do
  let epsilon ← config.epsilon
  Buffer.demandCounts [v.src, v.diffDst, v.diffSrc]
  let columns ← v.srcLayout.siteColumns
  let channels ← sweep (v.checkChannel config epsilon columns) config.shape.channels
    config.numThreads
  let padding ←
    if config.checkPadding then
      paddingMismatches "diff_src" v.diffSrc v.diffSrcLayout config.tolerance.maxReported
    else pure []
  return {
    config
    mismatches := channels.flatMap (·.2) ++ padding
    reference :=
      { mean := some (channelFloats config v.statistics.mean)
        variance := some (channelFloats config v.statistics.variance)
        diffScale := some (channels.map (·.1.diffScale))
        diffShift := some (channels.map (·.1.diffShift)) } }

end BackwardView

/-- The mismatches of one parameter gradient of a tensor without elements: each
channel whose value is not near zero. A NaN is not. -/
def emptyGradientMismatches (quantity : String) (atol : Float) (values : List Float) :
    List Mismatch :=
  (values.zipIdx.filter fun (value, _) => !(value.abs ≤ atol : Bool)).map fun (value, c) =>
    { quantity, channel := c, position := none, expected := 0, actual := value
      deviation := value.abs, epsilon := atol }

/-- The mismatches of a tensor without elements: its parameter gradients have to
be zero. -/
def emptyMismatches (config : RunConfig) (parameters : Option (ParameterGradients Buffer)) :
    List Mismatch :=
  match parameters with
  | none => []
  | some buffers =>
    let atol := config.tolerance.emptyGradient
    let values := BackwardView.channelFloats config
    emptyGradientMismatches "diff_scale" atol (values buffers.diffScale) ++
      emptyGradientMismatches "diff_shift" atol (values buffers.diffShift)

/-- Verifies a backward run. It fails if the buffers cannot be compared or the run cannot be
described, and with `raiseOnFailure` also if anything is outside the tolerance. -/
def verifyBackward (config : RunConfig) (buffers : BackwardBuffers) (raiseOnFailure : Bool) :
    Logged Verdict :=
  match buffers.parameters config with
  | .error e => .fail e
  | .ok parameters =>
    if config.shape.isEmpty then
      .provided config.shape.demandTexts <|
        .after .debug s!"empty tensor in {config.describe}" <|
          conclude ⟨config, emptyMismatches config parameters, {}⟩ raiseOnFailure
    else
      match buffers.view config parameters with
      | .error e => .fail e
      | .ok view =>
        .provided config.shape.demandTexts <|
          .after .debug s!"verifying {config.describe}" <|
            match view.compare config with
            | .error e => .fail e
            | .ok verdict => conclude verdict raiseOnFailure

end BatchNorm
