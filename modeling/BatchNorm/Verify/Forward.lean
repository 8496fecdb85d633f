import BatchNorm.Comparison.Channel
import BatchNorm.Reference.Quantize
import BatchNorm.Reference.Statistics
import BatchNorm.Run.Sweep
import BatchNorm.Run.Verdict
import BatchNorm.Verify.Inputs

/-!
# Verification of a forward run

The statistics and the normalized output are computed again, channel by channel,
from the input of a run, and compared with what the primitive wrote.

* `ForwardBuffers.view` checks the buffers and picks those that are read.
* `ForwardView.compare` compares them with the reference.
* `verifyForward` does both, with the log lines of a run.
-/

set_option autoImplicit false

namespace BatchNorm

structure ForwardView where
  src : Buffer
  dst : Buffer
  srcLayout : Layout
  dstLayout : Layout
  statistics : Option (Statistics Buffer)
  affine : Option (Affine Buffer)

/-- Checks the buffers of a forward run. Without elements there is nothing to
compare, and only the activations are looked at. -/
def ForwardBuffers.view (b : ForwardBuffers) (config : RunConfig) :
    Except Failure (Option ForwardView) := do
  let type := config.precision.elementType
  let src ← activation config type .src b.src b.srcLayout
  let dst ← activation config type .dst b.dst b.outputLayout
  if config.shape.isEmpty then return none
  let channels := config.shape.channels
  let statistics ←
    if config.normalization.exposesStatistics then
      let mean ← channelArray channels .mean b.mean
      let variance ← channelArray channels .variance b.variance
      pure (some ⟨mean, variance⟩)
    else pure none
  let affine ←
    if config.normalization.hasAffine then
      let scale ← channelArray channels .scale b.scale
      let shift ← channelArray channels .shift b.shift
      pure (some ⟨scale, shift⟩)
    else pure none
  return some
    { src, dst, statistics, affine, srcLayout := b.srcLayout, dstLayout := b.outputLayout }

namespace ForwardView

def statisticsAt (buffers : Statistics Buffer) (c : Nat) : Except Failure (Statistics Float) := do
  return ⟨← buffers.mean.readFloat c, ← buffers.variance.readFloat c⟩

def affineAt (buffers : Affine Buffer) (c : Nat) : Except Failure (Affine Float) := do
  return ⟨← buffers.scale.readFloat c, ← buffers.shift.readFloat c⟩

/-- The mismatches between reported statistics and those of the reference. -/
def compareStatistics (config : RunConfig) (epsilon : Float) (c : Nat)
    (reported reference : Statistics Float) : Except Failure (List Mismatch) := do
  let floor := config.tolerance.statisticsFloor
  let means ← compareScalar "mean" c reported.mean reference.mean epsilon floor
  let variances ← compareScalar "variance" c reported.variance reference.variance epsilon floor
  return means ++ variances

/-- The statistics that channel `c`, with the given values, is normalized with,
and the mismatches of those that the primitive reported. Computed statistics are
compared in training; supplied ones are taken as they are. -/
def channelStatistics (v : ForwardView) (config : RunConfig) (epsilon : Float) (c : Nat)
    (values : List Float) : Except Failure (Statistics Float × List Mismatch) := do
  if config.normalization.computeStatistics then
    let reference := Statistics.ofValues values
    match v.statistics with
    | none => return (reference, [])
    | some buffers =>
      let reported ← statisticsAt buffers c
      return (reference, ← compareStatistics config epsilon c reported reference)
  else
    match v.statistics with
    | none => misuse .absentBuffer
    | some buffers => return (← statisticsAt buffers c, [])

/-- The statistics of channel `c` and its mismatches: of the statistics first,
then of the output. The columns hold the coordinates of the sites. -/
def checkChannel (v : ForwardView) (config : RunConfig) (epsilon : Float)
    (columns : List (List Int)) (c : Nat) : Except Failure (Statistics Float × List Mismatch) := do
  let values := (← v.srcLayout.channelValues v.src c).map widen
  let (statistics, found) ← v.channelStatistics config epsilon c values
  let affine ← v.affine.mapM (affineAt · c)
  let out := normalize values statistics config.normalization.epsilon affine
  let expected := out.map config.precision.stored
  let actual ← v.dst.gatherFloats (← v.dstLayout.channelIndices c)
  let floor := config.tolerance.outputFloorFor config.precision
  let elements ← compareChannel "dst" c actual expected epsilon floor (some columns)
    config.tolerance.maxReported
  return (statistics, found ++ elements)

/-- The comparison of a whole run: channel by channel, then the padding. -/
def compare (v : ForwardView) (config : RunConfig) : Except Failure Verdict := do
  let epsilon ← config.epsilon
  Buffer.demandCounts [v.src, v.dst]
  let columns ← v.srcLayout.siteColumns
  let channels ← sweep (v.checkChannel config epsilon columns) config.shape.channels
    config.numThreads
  let padding ←
    if config.checkPadding then
      paddingMismatches "dst" v.dst v.dstLayout config.tolerance.maxReported
    else pure []
  return {
    config
    mismatches := channels.flatMap (·.2) ++ padding
    reference :=
      { mean := some (channels.map (·.1.mean)), variance := some (channels.map (·.1.variance)) } }

end ForwardView

/-- Verifies a forward run. It fails if the buffers cannot be compared or the run cannot be
described, and with `raiseOnFailure` also if anything is outside the tolerance. -/
def verifyForward (config : RunConfig) (buffers : ForwardBuffers) (raiseOnFailure : Bool) :
    Logged Verdict :=
  match buffers.view config with
  | .error e => .fail e
  | .ok none =>
    .provided config.shape.demandTexts <|
      .after .debug s!"empty tensor, nothing to verify for {config.describe}"
        ⟨[], .ok ⟨config, [], {}⟩⟩
  | .ok (some view) =>
    .provided config.shape.demandTexts <|
      .after .debug s!"verifying {config.describe}" <|
        match view.compare config with
        | .error e => .fail e
        | .ok verdict => conclude verdict raiseOnFailure

end BatchNorm
