import BatchNorm.Buffer.Tensor
import BatchNorm.Layout.Index

/-!
# Between tensors and buffers

A tensor lists its elements in the order of their positions; a layout moves
them into a buffer and back.

* `Layout.pack` scatters a tensor into a buffer with zeros in the padding.
* `Layout.unpack` gathers the tensor again.
* `Layout.channelValues` reads one channel without the others.
-/

set_option autoImplicit false

namespace BatchNorm

namespace Layout

def accept (l : Layout) (t : Tensor) : Except Failure Unit := do
  let shape ← t.shape
  require (shape = l.shape) (.arrayShape t.dims l.shape.dims)

/-- The buffer of a tensor, with zeros in the padding. The elements keep their
type unless another one is asked for. -/
def pack (l : Layout) (t : Tensor) (type : Option ElementType) : Except Failure Buffer := do
  l.accept t
  let elements := match type with
    | none => t.elements
    | some type => t.elements.convert type
  (l.logicalOffsets.zip elements.values.toList).foldlM
    (fun values (i, x) => do
      let place ← Buffer.place values.size i
      return values.set place x)
    (Array.replicate l.size elements.type.zero) <&> (⟨elements.type, ·⟩)

def demandSize (l : Layout) (b : Buffer) : Except Failure Unit :=
  require (l.size ≤ b.size) (.bufferSize b.size l.size)

/-- The tensor in a buffer, which may be longer than the layout needs. -/
def unpack (l : Layout) (b : Buffer) : Except Failure Tensor := do
  l.demandSize b
  return ⟨l.shape.dims, Buffer.ofList b.type (← b.gather l.logicalOffsets)⟩

/-- The values of a channel as binary32 numbers, in the order of its sites. -/
def channelValues (l : Layout) (b : Buffer) (c : Int) : Except Failure (List Float32) := do
  b.gatherSingles (← l.channelIndices c)

end Layout

end BatchNorm
