import BatchNorm.Shape

/-!
# Memory layouts

A layout puts the elements of a tensor into a flat buffer. It has one of three
memory orders, and it may leave room for more channels than the tensor has: the
padding.

* `Layout.offset` is the place of a position in the buffer.
* `Layout.make` refuses what is no layout: blocks without elements, fewer
  channels in memory than in the tensor, blocks that are not filled.
-/

set_option autoImplicit false

namespace BatchNorm

/-- The order in which a layout runs through the axes. -/
inductive MemoryOrder where
  /-- Batch, channel, depth, height, width. -/
  | plain
  /-- Batch, depth, height, width, channel. -/
  | channelsLast
  /-- Batch, channel block, depth, height, width, channel within the block. -/
  | blocked
deriving DecidableEq, Repr

namespace MemoryOrder

def name : MemoryOrder → String
  | plain => "plain"
  | channelsLast => "channels_last"
  | blocked => "blocked"

def ofName? (name : String) : Option MemoryOrder :=
  [plain, channelsLast, blocked].find? (·.name = name)

end MemoryOrder

/-- The arrangement of a tensor in memory. -/
structure Layout where
  order : MemoryOrder
  shape : Shape
  /-- How many channels the memory has room for. -/
  paddedChannels : Nat
  /-- How many channels a block has; only the blocked order looks at it. -/
  block : Nat := 1
  block_pos : 0 < block := by decide
  channels_le : shape.channels ≤ paddedChannels
  block_dvd : order = .blocked → block ∣ paddedChannels

namespace Layout

/-! ## Making layouts -/

/-- The layout with a memory order, a number of channels in memory and a block
size, all of them checked. -/
def make (order : MemoryOrder) (shape : Shape) (padded block : Int) : Except Failure Layout :=
  if block_pos : 0 < block then
    if channels_le : (shape.channels : Int) ≤ padded then
      if block_dvd : order = .blocked → block.toNat ∣ padded.toNat then
        .ok
          { order, shape
            paddedChannels := padded.toNat
            block := block.toNat
            block_pos := by omega
            channels_le := by omega
            block_dvd }
      else refuse (.partialBlock padded block)
    else refuse (.paddedChannels padded shape.channels)
  else refuse .blockSize

/-- The layout whose memory order is given by name. -/
def ofOrderName (name : String) (shape : Shape) (padded block : Int) : Except Failure Layout :=
  match MemoryOrder.ofName? name with
  | some order => make order shape padded block
  | none => refuse (.memoryOrder name)

/-- The layout without blocks; it has room for the channels of the shape unless
told otherwise. -/
def unblocked (order : MemoryOrder) (shape : Shape) (padded : Option Int) : Except Failure Layout :=
  make order shape (padded.getD shape.channels) 1

/-- The layout in blocks, the last one filled up with padding. -/
def blocked (shape : Shape) (block : Int) : Except Failure Layout :=
  if 0 < block then
    make .blocked shape ((shape.channels + block - 1) / block * block) block
  else refuse .blockSize

/-! ## Offsets -/

/-- The place of a position in the buffer. Positions outside of the tensor have
one as well: the formula holds for all integers. -/
def offset (l : Layout) (p : Position) : Int :=
  let depth : Int := l.shape.depth
  let height : Int := l.shape.height
  let width : Int := l.shape.width
  let padded : Int := l.paddedChannels
  let block : Int := l.block
  match l.order with
  | .plain => (((p.n * padded + p.c) * depth + p.d) * height + p.h) * width + p.w
  | .channelsLast => (((p.n * depth + p.d) * height + p.h) * width + p.w) * padded + p.c
  | .blocked =>
    ((((p.n * (padded / block) + p.c / block) * depth + p.d) * height + p.h) * width + p.w) * block
      + p.c % block

/-- How many elements the buffer has, padding included. -/
def size (l : Layout) : Nat := l.shape.batch * l.paddedChannels * l.shape.spatialSize

def hasPadding (l : Layout) : Bool := l.shape.channels < l.paddedChannels

/-- The places of the elements of a channel, in the order of its sites. -/
def channelOffsets (l : Layout) (c : Int) : List Int :=
  l.shape.sites.map fun site => l.offset (site.inChannel c)

/-- The places of all elements of the tensor, in the order of their positions. -/
def logicalOffsets (l : Layout) : List Int := l.shape.positions.map l.offset

def paddingPositions (l : Layout) : List Position :=
  l.shape.cells l.shape.channels (l.paddedChannels - l.shape.channels)

def paddingOffsets (l : Layout) : List Int := l.paddingPositions.map l.offset

/-- The text of a layout: its order, with the channels in memory where they
matter. -/
def describe (l : Layout) : String :=
  match l.order with
  | .blocked => s!"{l.order.name}{l.block}(cp={l.paddedChannels})"
  | _ => if l.hasPadding then s!"{l.order.name}(cp={l.paddedChannels})" else l.order.name

end Layout

end BatchNorm
