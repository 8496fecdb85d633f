import BatchNorm.Buffer.Basic
import BatchNorm.Literal.Number
import BatchNorm.Shape

/-!
# Tensors

A tensor is an array with dimensions. It is indexed along its first axis: an index
selects a row, which is all that lies below it, and a value that is stored there
fills the row.

* `Tensor.assign` fills one row, and `Tensor.clear` a list of them with zeros.
-/

set_option autoImplicit false

namespace BatchNorm

/-- An array with dimensions, its elements in row-major order. -/
structure Tensor where
  dims : List Nat
  elements : Buffer

namespace Tensor

/-- The tensor of some elements; they have to fill its dimensions, and its bytes have
to be countable. -/
def make (dims : List Nat) (elements : Buffer) : Except Failure Tensor := do
  Buffer.demandDims elements.type.bytes dims
  if elements.size = dims.foldl (· * ·) 1 then return ⟨dims, elements⟩
  else misuse .sizeMismatch

def ofBuffer (b : Buffer) : Tensor := ⟨[b.size], b⟩

/-- The shape of a tensor with two, four or five dimensions. -/
def shape (t : Tensor) : Except Failure Shape :=
  if t.dims.length ∈ [2, 4, 5] then Shape.ofIntegers (t.dims.map Int.ofNat)
  else refuse (.arrayRank t.dims.length)

/-! ## Rows -/

def rowSize (t : Tensor) : Nat := t.dims.tail.foldl (· * ·) 1

/-- The number of the row at an index. A tensor without axes has no rows. -/
def row (t : Tensor) (i : Int) : Except Failure Nat :=
  match t.dims with
  | [] => misuse .indexOutside
  | rows :: _ => do return (← Buffer.place rows i).val

/-- The tensor with one element throughout a row. -/
def fillRow (t : Tensor) (row : Nat) (x : t.elements.type.Carrier) : Tensor :=
  let first := row * t.rowSize
  let values := (List.range t.rowSize).foldl (fun values j => values.setIfInBounds (first + j) x)
    t.elements.values
  { t with elements := { t.elements with values } }

/-- Stores a literal in the row at an index. A floating point number is read before
the row is looked for, an element of another type after that. -/
def assign (t : Tensor) (i : Int) (value : Literal) : Except Failure Tensor :=
  let type := t.elements.type
  if type.isFloating then do
    let x ← type.ofLiteral value
    return t.fillRow (← t.row i) x
  else do
    let row ← t.row i
    return t.fillRow row (← type.ofLiteral value)

/-- Stores zeros in the rows at some indices: in all of them, or in none if one is
outside. -/
def clear (t : Tensor) (indices : List Int) : Except Failure Tensor :=
  if t.dims.isEmpty then misuse .indexOutside
  else indices.foldlM (fun t i => do return t.fillRow (← t.row i) t.elements.type.zero) t

end Tensor

end BatchNorm
