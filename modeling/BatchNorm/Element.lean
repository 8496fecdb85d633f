import BatchNorm.Numeric.Exact

/-!
# Element types

The buffers of a run hold numbers of one element type each: binary32, binary64,
an integer of a fixed width, or truth values. `ElementType.Carrier` is the type
of one element.

* `ElementType.exact` is the exact value of an element.
* `ElementType.ofExact` stores an exact value: floating point types round it to
  nearest, integer types drop the fraction and keep the low bits, and a truth
  value tells whether it is other than zero.
* `ElementType.convert` goes from one type to another through the exact value.
-/

set_option autoImplicit false

namespace BatchNorm

structure IntegerType where
  /-- Whether the top bit is a sign. -/
  signed : Bool
  bits : Nat
deriving DecidableEq, Repr

namespace IntegerType

def int8 : IntegerType := ⟨true, 8⟩

def int64 : IntegerType := ⟨true, 64⟩

def least (t : IntegerType) : Int := if t.signed then -(Nat.pow 2 (t.bits - 1)) else 0

def greatest (t : IntegerType) : Int :=
  if t.signed then Nat.pow 2 (t.bits - 1) - 1 else Nat.pow 2 t.bits - 1

def name (t : IntegerType) : String := (if t.signed then "int" else "uint") ++ toString t.bits

def all : List IntegerType :=
  [⟨true, 8⟩, ⟨true, 16⟩, ⟨true, 32⟩, ⟨true, 64⟩, ⟨false, 8⟩, ⟨false, 16⟩, ⟨false, 32⟩, ⟨false, 64⟩]

def toInt (t : IntegerType) (word : BitVec t.bits) : Int :=
  if t.signed then word.toInt else word.toNat

/-- The word of a number, which is the number itself within the type's range
and its low bits beyond. -/
def ofInt (t : IntegerType) (n : Int) : BitVec t.bits := BitVec.ofInt t.bits n

def holds (t : IntegerType) (n : Int) : Bool := t.least ≤ n && n ≤ t.greatest

/-- The number that is left of a number in a word of the type. -/
def wrap (t : IntegerType) (n : Int) : Int := t.toInt (t.ofInt n)

/-- A number in the range of the 64-bit words is left as it is. -/
theorem wrap_int64_of_holds {n : Int} (h : int64.holds n = true) : int64.wrap n = n := by
  have hn : -9223372036854775808 ≤ n ∧ n ≤ 9223372036854775807 := by
    simpa [holds, least, greatest, int64] using h
  have hb : (BitVec.ofInt 64 n).toInt = n := by
    rw [BitVec.toInt_ofInt]
    exact Int.bmod_eq_of_le (by omega) (by omega)
  simpa [wrap, toInt, ofInt, int64] using hb

end IntegerType

/-- The type of the elements of a buffer. -/
inductive ElementType where
  | float32
  | float64
  | integer (type : IntegerType)
  | bool
deriving DecidableEq, Repr

namespace ElementType

abbrev int8 : ElementType := .integer .int8

def name : ElementType → String
  | float32 => "float32"
  | float64 => "float64"
  | integer type => type.name
  | bool => "bool"

def ofName? (name : String) : Option ElementType :=
  (float32 :: float64 :: bool :: IntegerType.all.map integer).find? (·.name = name)

def isFloating : ElementType → Bool
  | float32 | float64 => true
  | _ => false

def bytes : ElementType → Nat
  | float32 => 4
  | float64 => 8
  | integer type => type.bits / 8
  | bool => 1

abbrev Carrier : ElementType → Type
  | float32 => Float32
  | float64 => Float
  | integer type => BitVec type.bits
  | bool => Bool

def exact : (t : ElementType) → t.Carrier → Exact
  | float32, x => Exact.ofSingle x
  | float64, x => Exact.ofFloat x
  | integer type, x => Exact.ofInt (type.toInt x)
  | bool, x => Exact.ofInt (if x then 1 else 0)

def ofExact : (t : ElementType) → Exact → t.Carrier
  | float32, x => x.toSingle
  | float64, x => x.toFloat
  | integer type, x => type.ofInt x.truncate
  | bool, x => !x.isZero

def zero (t : ElementType) : t.Carrier := t.ofExact (.zero .positive)

instance (t : ElementType) : Inhabited t.Carrier := ⟨t.zero⟩

def convert (source target : ElementType) (x : source.Carrier) : target.Carrier :=
  if h : source = target then h ▸ x else target.ofExact (source.exact x)

def toFloat : (t : ElementType) → t.Carrier → Float
  | float64, x => x
  | float32, x => widen x
  | integer type, x => (Exact.ofInt (type.toInt x)).toFloat
  | bool, x => if x then 1 else 0

def toSingle : (t : ElementType) → t.Carrier → Float32
  | float32, x => x
  | float64, x => narrow x
  | integer type, x => (Exact.ofInt (type.toInt x)).toSingle
  | bool, x => if x then 1 else 0

def ofFloat : (t : ElementType) → Float → t.Carrier
  | float64, x => x
  | t, x => t.ofExact (Exact.ofFloat x)

end ElementType

/-- The form in which a primitive stores its activations. -/
inductive Precision where
  | f32
  /-- Signed bytes, which are the quantized form. -/
  | s8
deriving DecidableEq, Repr

namespace Precision

def name : Precision → String
  | f32 => "f32"
  | s8 => "s8"

def all : List Precision := [f32, s8]

def ofName? (name : String) : Option Precision := all.find? (·.name = name)

abbrev elementType : Precision → ElementType
  | f32 => .float32
  | s8 => .int8

def isQuantized : Precision → Bool
  | f32 => false
  | s8 => true

end Precision

end BatchNorm
