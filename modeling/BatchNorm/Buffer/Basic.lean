import BatchNorm.Failure

/-!
# Buffers

A buffer is a flat array of elements of one type. An index counts from the
front, or from the back if it is negative; any other index is a misuse.

* `Buffer.read`, `Buffer.gather` read one element or a list of them.
* `Buffer.write` stores one element, and `Buffer.clear` stores zeros at a list
  of indices: all of them, or none if one is outside.
-/

set_option autoImplicit false

namespace BatchNorm

/-- A flat array of elements of one type. -/
structure Buffer where
  type : ElementType
  values : Array type.Carrier

namespace Buffer

def size (b : Buffer) : Nat := b.values.size

def ofList (type : ElementType) (xs : List type.Carrier) : Buffer := ⟨type, xs.toArray⟩

def zeros (type : ElementType) (count : Nat) : Buffer := ⟨type, Array.replicate count type.zero⟩

/-- Checks that a number of bytes can be counted in a word. -/
def demandBytes (count : Nat) : Except Failure Unit :=
  if IntegerType.int64.holds count then .ok () else misuse .arrayTooLarge

/-- Checks the bytes of an array with some dimensions. A dimension of zero leaves the
array empty, but it does not count when the bytes are. -/
def demandDims (elementBytes : Nat) (dims : List Nat) : Except Failure Unit :=
  demandBytes ((dims.filter (· ≠ 0)).foldl (· * ·) elementBytes)

/-- Checks that the elements of some arrays can be counted in a word, as those of every
array in memory can. -/
def demandCounts (buffers : List Buffer) : Except Failure Unit :=
  buffers.forM fun b => demandBytes b.size

/-- The buffer of `count` zeros, if its bytes can be counted. -/
def allocate (type : ElementType) (count : Nat) : Except Failure Buffer := do
  demandDims type.bytes [count]
  return zeros type count

def ofFloats (type : ElementType) (xs : List Float) : Buffer := ofList type (xs.map type.ofFloat)

/-- The place of an index among `size` elements: from the front, or from the
back for a negative one. -/
def place (size : Nat) (i : Int) : Except Failure (Fin size) :=
  if h : 0 ≤ i ∧ i < size then .ok ⟨i.toNat, by omega⟩
  else if h : i < 0 ∧ -(size : Int) ≤ i then .ok ⟨(i + size).toNat, by omega⟩
  else misuse .indexOutside

/-- The element at an index. -/
def read (b : Buffer) (i : Int) : Except Failure b.type.Carrier := do
  let place ← place b.values.size i
  return b.values[place]

/-- The elements at some indices, in their order. -/
def gather (b : Buffer) (indices : List Int) : Except Failure (List b.type.Carrier) :=
  indices.mapM b.read

def readFloat (b : Buffer) (i : Int) : Except Failure Float := do
  return b.type.toFloat (← b.read i)

def gatherSingles (b : Buffer) (indices : List Int) : Except Failure (List Float32) := do
  return (← b.gather indices).map b.type.toSingle

def gatherFloats (b : Buffer) (indices : List Int) : Except Failure (List Float) :=
  indices.mapM b.readFloat

def write (b : Buffer) (i : Int) (x : b.type.Carrier) : Except Failure Buffer := do
  let place ← place b.values.size i
  return { b with values := b.values.set place x }

def writeFloat (b : Buffer) (i : Int) (x : Float) : Except Failure Buffer :=
  b.write i (b.type.ofFloat x)

/-- Stores binary64 numbers at indices, one after the other. -/
def scatterFloats (b : Buffer) (entries : List (Int × Float)) : Except Failure Buffer :=
  entries.foldlM (fun b (i, x) => b.writeFloat i x) b

def clear (b : Buffer) (indices : List Int) : Except Failure Buffer :=
  indices.foldlM (fun b i => b.write i b.type.zero) b

def toFloats (b : Buffer) : List Float := b.values.toList.map b.type.toFloat

/-- The elements as elements of another type. -/
def convert (b : Buffer) (target : ElementType) : Buffer :=
  ⟨target, b.values.map (b.type.convert target)⟩

/-- The bound of a slice among `size` elements: a negative one counts from the
back, and bounds beyond an end stop there. -/
def bound (size : Nat) (i : Int) : Nat :=
  if i < 0 then (size + i).toNat else min i.toNat size

/-- The elements from one bound up to another. -/
def slice (b : Buffer) (first last : Int) : Buffer :=
  ⟨b.type, b.values.extract (bound b.size first) (bound b.size last)⟩

end Buffer

end BatchNorm
