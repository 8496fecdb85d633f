import BatchNorm.Buffer.Basic
import BatchNorm.Layout.Basic

/-!
# Indices

The places of many elements at once are computed in signed words of 64 bits. That
sets limits to a layout which a single offset does not have: the table of the
coordinates needs a number of bytes that is a word, each number that the places are
computed from has to be a word, and a place beyond the words keeps its low bits.
Sums and products commute with keeping the low bits, so it is enough to do that at
the end. Division by the block size does not: a channel is cut to a word before it.

* `Layout.channelIndices`, `Layout.logicalIndices` and `Layout.paddingIndices` are
  the lists of offsets within these limits.
-/

set_option autoImplicit false

namespace BatchNorm

/-- Checks that some numbers are words. -/
def demandWords (numbers : List Int) : Except Failure Unit :=
  if numbers.all IntegerType.int64.holds then .ok () else misuse .integerTooLarge

/-- Checks the table of the coordinates within some extents, which has a word for
each axis of each position. -/
def demandTable (extents : List Nat) : Except Failure Unit :=
  Buffer.demandDims (ElementType.integer .int64).bytes (extents.length :: extents)

namespace Layout

/-- The numbers, besides extents and coordinates, that places are computed from. -/
def factors (l : Layout) : List Int :=
  match l.order with
  | .plain | .channelsLast => [l.paddedChannels]
  | .blocked => [(l.paddedChannels : Int) / l.block, l.block]

/-- The number that stands for a channel when places are computed. -/
def channelFactor (l : Layout) (c : Int) : Int :=
  match l.order with
  | .plain | .channelsLast => c
  | .blocked => c / l.block

def demandSites (l : Layout) : Except Failure Unit :=
  demandTable [l.shape.batch, l.shape.depth, l.shape.height, l.shape.width]

/-- Checks the table of all positions and what their places are computed from. -/
def demandPositions (l : Layout) : Except Failure Unit := do
  demandTable l.shape.dims
  demandWords l.factors

/-- Checks the table of the positions in the padding, whose channels are counted
from those of the tensor on. -/
def demandPaddingCells (l : Layout) : Except Failure Unit := do
  let padding := l.paddedChannels - l.shape.channels
  demandTable [l.shape.batch, padding, l.shape.depth, l.shape.height, l.shape.width]
  demandWords [l.shape.channels]

/-- Checks the table of the positions in the padding and what their places are
computed from. -/
def demandPadding (l : Layout) : Except Failure Unit := do
  l.demandPaddingCells
  demandWords l.factors

/-- The coordinates of the sites of a channel as four columns. -/
def siteColumns (l : Layout) : Except Failure (List (List Int)) := do
  l.demandSites
  return l.shape.columns

/-- The indices of the elements of a channel, in the order of its sites. -/
def channelIndices (l : Layout) (c : Int) : Except Failure (List Int) := do
  l.demandSites
  demandWords (l.channelFactor c :: l.factors)
  return (l.channelOffsets c).map IntegerType.int64.wrap

/-- The indices of all elements, in the order of their positions. -/
def logicalIndices (l : Layout) : Except Failure (List Int) := do
  l.demandPositions
  return l.logicalOffsets.map IntegerType.int64.wrap

/-- The positions in the padding. A channel beyond the words keeps its low bits. -/
def paddingCells (l : Layout) : Except Failure (List Position) := do
  l.demandPaddingCells
  return l.paddingPositions.map fun p => { p with c := IntegerType.int64.wrap p.c }

/-- The indices of the padding, in the order of its positions. -/
def paddingIndices (l : Layout) : Except Failure (List Int) := do
  let cells ← l.paddingCells
  demandWords l.factors
  return cells.map fun p => IntegerType.int64.wrap (l.offset p)

end Layout

end BatchNorm
