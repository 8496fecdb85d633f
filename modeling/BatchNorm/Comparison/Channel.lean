import BatchNorm.Buffer.Transfer
import BatchNorm.Comparison.Broadcast
import BatchNorm.Comparison.Deviation

/-!
# Comparing the values of a channel

* `compareChannel` lists the mismatches between the values of a channel and
  those of the reference, in the order of the values.
* `paddingMismatches` lists the elements of the padding that are not zero.
-/

set_option autoImplicit false

namespace BatchNorm

def elementAt {α : Type} (xs : List α) (i : Nat) : Except Failure α :=
  match xs[i]? with
  | some x => .ok x
  | none => misuse .indexOutside

/-- Row `i` of four columns of coordinates as a position in a channel. A fifth
column is looked at before it is refused. -/
def positionAt (columns : List (List Int)) (channel : Int) (i : Nat) : Except Failure Position := do
  match ← (columns.take 5).mapM (elementAt · i) with
  | [n, d, h, w] => return ⟨n, channel, d, h, w⟩
  | _ => misuse .coordinateLists

/-- The indices at which a deviation is not at most `epsilon`. -/
def failedIndices (epsilon : Float) (deviations : List Float) : List Nat :=
  (deviations.zipIdx.filter fun (deviation, _) => !(deviation ≤ epsilon : Bool)).map (·.2)

/-- The values of a channel that do not match the reference, in their order, at
most as many as the limit lets through. A value is described with its position
if the columns of coordinates are given. -/
def compareChannel (quantity : String) (channel : Int) (actual expected : List Float)
    (epsilon floor : Float) (columns : Option (List (List Int))) (limit : Option Int) :
    Except Failure (List Mismatch) := do
  let deviations ← broadcast (relativeDeviation · · floor) actual expected
  (upTo limit (failedIndices epsilon deviations)).mapM fun i => do
    let position ← columns.mapM (positionAt · channel i)
    let expected ← elementAt expected i
    let actual ← elementAt actual i
    let deviation ← elementAt deviations i
    return { quantity, channel, position, expected, actual, deviation, epsilon }

/-- The mismatch of a value that belongs to a channel as a whole. -/
def compareScalar (quantity : String) (channel : Int) (actual expected epsilon floor : Float) :
    Except Failure (List Mismatch) :=
  compareChannel quantity channel [actual] [expected] epsilon floor none none

/-- The mismatch of an element of the padding, which ought to be zero. -/
def Mismatch.ofPadding (quantity : String) (position : Position) (actual : Float) : Mismatch where
  quantity := s!"{quantity} padding"
  channel := position.c
  position := some position
  expected := 0
  actual := actual
  deviation := 1.0 / 0.0
  epsilon := 0

/-- The elements that are not zero among those which a buffer has at the indices of
some positions in the padding, in their order, at most as many as the limit lets
through. A NaN is not zero; a negative zero is. -/
def nonzeroPadding (quantity : String) (b : Buffer) (positions : List Position)
    (indices : List Int) (limit : Option Int) : Except Failure (List Mismatch) := do
  let values ← b.gatherFloats indices
  let nonzero := (positions.zip values).filter fun (_, value) => value != 0
  return (upTo limit nonzero).map fun (position, value) => .ofPadding quantity position value

/-- The elements of the padding that are not zero, in the order of their
positions, at most as many as the limit lets through. -/
def paddingMismatches (quantity : String) (b : Buffer) (l : Layout) (limit : Option Int) :
    Except Failure (List Mismatch) := do
  if l.hasPadding then
    let cells ← l.paddingCells
    let indices ← l.paddingIndices
    nonzeroPadding quantity b cells indices limit
  else return []

end BatchNorm
