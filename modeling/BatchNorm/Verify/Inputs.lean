import BatchNorm.Buffer.Transfer
import BatchNorm.Run.Config

/-!
# The buffers of a run

A run hands buffers to a primitive. Before anything is compared, each buffer
that the configuration calls for is checked: an activation buffer has the shape,
the length and the element type of its layout and precision, and a buffer of
channel values has a floating point number for each channel.
-/

set_option autoImplicit false

namespace BatchNorm

structure ForwardBuffers where
  src : Option Buffer
  dst : Option Buffer
  srcLayout : Layout
  dstLayout : Option Layout := none
  mean : Option Buffer := none
  variance : Option Buffer := none
  scale : Option Buffer := none
  shift : Option Buffer := none

def ForwardBuffers.outputLayout (b : ForwardBuffers) : Layout := b.dstLayout.getD b.srcLayout

/-- The buffers of a backward run. The statistics are those of the forward run
that it belongs to. -/
structure BackwardBuffers where
  src : Option Buffer
  diffDst : Option Buffer
  diffSrc : Option Buffer
  mean : Option Buffer
  variance : Option Buffer
  srcLayout : Layout
  /-- The layout of the gradient with respect to the output, if it is another
  one. -/
  diffDstLayout : Option Layout := none
  diffSrcLayout : Option Layout := none
  scale : Option Buffer := none
  diffScale : Option Buffer := none
  diffShift : Option Buffer := none

/-- The layout of the gradient with respect to the output. -/
def BackwardBuffers.gradientLayout (b : BackwardBuffers) : Layout :=
  b.diffDstLayout.getD b.srcLayout

/-- The layout of the gradient with respect to the input. -/
def BackwardBuffers.outputLayout (b : BackwardBuffers) : Layout :=
  b.diffSrcLayout.getD b.gradientLayout

/-- A buffer that has to be there. -/
def required (role : Role) (buffer : Option Buffer) : Except Failure Buffer :=
  match buffer with
  | some b => .ok b
  | none => refuse (.missing role)

/-- An activation buffer: of the shape of the configuration, at least as long as
its layout, and of the given element type. -/
def activation (config : RunConfig) (type : ElementType) (role : Role) (buffer : Option Buffer)
    (layout : Layout) : Except Failure Buffer := do
  let b ← required role buffer
  require (layout.shape = config.shape)
    (.layoutShape role layout.shape.dims config.shape.dims)
  require (layout.size ≤ b.size) (.activationSize role b.size layout.size)
  require (b.type = type) (.activationType role b.type type config.precision)
  return b

/-- A buffer of channel values: at least one floating point number for each
channel. -/
def channelArray (channels : Nat) (role : Role) (buffer : Option Buffer) :
    Except Failure Buffer := do
  let b ← required role buffer
  require (channels ≤ b.size) (.channelSize role b.size channels)
  require (b.type.isFloating = true) (.channelType role)
  return b

/-- A weights buffer, scales first, split into the scales and the shifts of the
channels. -/
def splitWeights (weights : Buffer) (channels : Int) : Except Failure (Buffer × Buffer) := do
  let weights := weights.convert .float32
  require (2 * channels ≤ weights.size) (.weightsSize weights.size (2 * channels))
  return (weights.slice 0 channels, weights.slice channels (2 * channels))

end BatchNorm
