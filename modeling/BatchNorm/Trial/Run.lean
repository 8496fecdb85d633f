import BatchNorm.Buffer.Held
import BatchNorm.Trial.Case
import BatchNorm.Trial.Source
import BatchNorm.Verify.Backward
import BatchNorm.Verify.Forward

/-!
# Running a case

A primitive is anything that takes a configuration with buffers and leaves
buffers behind. A trial fills the buffers of a case, lets the primitive work on
them and verifies what it left.

* `Primitive` is a primitive under test, with a state of its own.
* `runForwardCase` and `runBackwardCase` run one case.
-/

set_option autoImplicit false

namespace BatchNorm

/-- A primitive under test, with states of type `σ`. From a configuration and the
buffers it is handed it gives the buffers that it leaves, or it fails. -/
structure Primitive (σ : Type) where
  forward : RunConfig → ForwardBuffers → σ → Except Failure ForwardBuffers × σ
  backward : RunConfig → BackwardBuffers → σ → Except Failure BackwardBuffers × σ

/-- What a trial works with: a source of random numbers, the state of the
primitive, and the log so far. -/
structure Bench (γ σ : Type) where
  source : γ
  state : σ
  log : List LogLine := []

/-- A step of a trial. The bench keeps what happened to it when the step
fails. -/
abbrev Trial (γ σ α : Type) := ExceptT Failure (StateM (Bench γ σ)) α

namespace Trial

variable {γ σ : Type}

def draw {α : Type} (next : γ → α × γ) : Trial γ σ α :=
  modifyGet fun bench =>
    let (x, source) := next bench.source
    (x, { bench with source })

def log (level : LogLevel) (message : String) : Trial γ σ Unit :=
  modify fun bench => { bench with log := bench.log ++ [⟨level, message⟩] }

/-- A result that may be a failure. -/
def ofExcept {α : Type} : Except Failure α → Trial γ σ α
  | .ok x => pure x
  | .error e => throw e

def call {α : Type} (next : σ → Except Failure α × σ) : Trial γ σ α := do
  let result ← modifyGet fun bench =>
    let (result, state) := next bench.state
    (result, { bench with state })
  ofExcept result

/-- A logged result: its log lines are written before it is looked at. -/
def ofLogged {α : Type} (logged : Logged α) : Trial γ σ α := do
  modify fun bench => { bench with log := bench.log ++ logged.log }
  ofExcept logged.result

variable [RandomSource γ]

/-- Draws a buffer of `count` numbers. -/
def drawBuffer (count : Nat) (fill : Nat → γ → Buffer × γ) : Trial γ σ Buffer := do
  ofExcept (demandDraws count)
  draw (fill count)

/-- Draws a value for each channel. -/
def channelData (channels : Nat) : Trial γ σ Buffer :=
  drawBuffer channels (fillData · .float32)

/-- Fills an activation buffer; its padding is zero. -/
def activation (layout : Layout) (type : ElementType) : Trial γ σ Buffer := do
  let filled ← drawBuffer layout.size (fillData · type)
  let cleared ← ofExcept (Held.clearPadding (some (.ofBuffer filled)) layout)
  return cleared.elements

/-- Fills the buffers of a forward run. Statistics are zero when the run computes
them, and drawn when they are supplied. -/
def forwardBuffers (config : RunConfig) (layout : Layout) : Trial γ σ ForwardBuffers := do
  let channels := config.shape.channels
  let (mean, variance) ←
    if config.normalization.computeStatistics then do
      let zeros ← ofExcept (Buffer.allocate .float32 channels)
      pure (zeros, zeros)
    else do
      let mean ← channelData channels
      let variance ← drawBuffer channels fillVariance
      pure (mean, variance)
  let (scale, shift) ←
    if config.normalization.hasAffine then do
      let scale ← channelData channels
      let shift ← channelData channels
      pure (some scale, some shift)
    else pure (none, none)
  let src ← activation layout config.precision.elementType
  let dst ← activation layout config.precision.elementType
  return {
    src := some src, dst := some dst, srcLayout := layout, dstLayout := some layout
    mean := some mean, variance := some variance, scale, shift }

/-- Fills the buffers of a backward run. The parameter gradients are zero, in the
mode that has them. -/
def backwardBuffers (config : RunConfig) (mode : BackwardMode) (layout diffLayout : Layout) :
    Trial γ σ BackwardBuffers := do
  let channels := config.shape.channels
  let scale ←
    if config.normalization.hasAffine then some <$> channelData channels
    else pure none
  let gradients ←
    match mode with
    | .data => pure none
    | .dataAndParameters => some <$> ofExcept (Buffer.allocate .float32 channels)
  let src ← activation layout .float32
  let diffDst ← activation diffLayout .float32
  let diffSrc ← activation diffLayout .float32
  let mean ← channelData channels
  let variance ← drawBuffer channels fillVariance
  return {
    src := some src, diffDst := some diffDst, diffSrc := some diffSrc
    mean := some mean, variance := some variance
    srcLayout := layout, diffDstLayout := some diffLayout, diffSrcLayout := some diffLayout
    scale, diffScale := gradients, diffShift := gradients }

end Trial

section

variable {γ σ : Type} [RandomSource γ]

def runForwardCase (primitive : Primitive σ) (name : String) (config : RunConfig)
    (layout : Layout) (raiseOnFailure : Bool) : Trial γ σ Verdict := do
  let buffers ← Trial.forwardBuffers config layout
  Trial.log .debug s!"running forward case {name}"
  let written ← Trial.call (primitive.forward config buffers)
  Trial.ofLogged (verifyForward config written raiseOnFailure)

def runBackwardCase (primitive : Primitive σ) (case : BackwardCase) (config : RunConfig)
    (layout diffLayout : Layout) (raiseOnFailure : Bool) : Trial γ σ Verdict := do
  let buffers ← Trial.backwardBuffers config case.mode layout diffLayout
  Trial.log .debug s!"running backward case {case.name}"
  let written ← Trial.call (primitive.backward config buffers)
  Trial.ofLogged (verifyBackward config written raiseOnFailure)

def runCase (primitive : Primitive σ) (case : TrialCase) (config : RunConfig)
    (layout diffLayout : Layout) (raiseOnFailure : Bool) : Trial γ σ Verdict :=
  match case with
  | .forward c => runForwardCase primitive c.name config layout raiseOnFailure
  | .backward c => runBackwardCase primitive c config layout diffLayout raiseOnFailure

end

end BatchNorm
