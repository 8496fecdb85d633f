import BatchNorm.Comparison.Channel
import BatchNorm.Layout.Index

/-!
# Working on a held array

An array is held while layouts move data in and out of it. The operations are those
of a buffer, within the limits of indices, and they take an array of any dimensions:
reading looks at its elements in a row, writing goes along its first axis.
-/

set_option autoImplicit false

namespace BatchNorm

/-- An array that is held, if there is one. -/
abbrev Held := Option Tensor

namespace Held

/-- The elements that reading looks at. Where no array is held there is one, which is
not a number. -/
def elements (held : Held) : Buffer :=
  match held with
  | some t => t.elements
  | none => Buffer.ofFloats .float32 [0.0 / 0.0]

def demand (held : Held) : Except Failure Tensor :=
  match held with
  | some t => .ok t
  | none => misuse .absentBuffer

/-- The array that holds the buffer of a tensor. -/
def pack (l : Layout) (t : Tensor) (type : Option ElementType) : Except Failure Tensor := do
  l.accept t
  Buffer.demandDims (type.getD t.elements.type).bytes [l.size]
  l.demandPositions
  return .ofBuffer (← l.pack t type)

/-- The array with a literal stored at an index. -/
def assign (held : Held) (i : Int) (value : Literal) : Except Failure Tensor := do
  (← held.demand).assign i value

def clearPadding (held : Held) (l : Layout) : Except Failure Held := do
  if l.hasPadding then
    let indices ← l.paddingIndices
    return some (← (← held.demand).clear indices)
  else return held

def unpack (held : Held) (l : Layout) : Except Failure Tensor := do
  l.demandSize held.elements
  l.demandPositions
  l.unpack held.elements

def channelValues (held : Held) (l : Layout) (c : Int) : Except Failure (List Float32) :=
  l.channelValues held.elements c

/-- The elements of the padding that are not zero. Where no array is held, what is
found there is no number that could be described. -/
def paddingMismatches (held : Held) (quantity : String) (l : Layout) (limit : Option Int) :
    Except Failure (List Mismatch) := do
  let found ← BatchNorm.paddingMismatches quantity held.elements l limit
  if held.isNone && !found.isEmpty then misuse .absentBuffer else return found

end Held

end BatchNorm
