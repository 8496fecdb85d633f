import BatchNorm.Buffer.Basic

/-!
# Test data

The buffers of a trial are filled from a source of random numbers, so a seed
determines them. `RandomSource` is what is asked of a source, and `Splitmix` is
the source that trials use.

* `demandDraws` checks that an array of drawn numbers can be made.
* `fillData` draws data around zero: floats of unit spread, and integers well
  inside of a byte.
* `fillVariance` draws variances, which are positive.
-/

set_option autoImplicit false

namespace BatchNorm

/-- A source of random numbers with states of type `γ`. -/
class RandomSource (γ : Type) where
  /-- Draws a number of unit spread around zero. -/
  normal : γ → Float × γ
  /-- Draws an integer from the first bound up to below the second. -/
  integer : Int → Int → γ → Int × γ
  /-- Draws a number between two bounds. -/
  uniform : Float → Float → γ → Float × γ

/-- The state of a splitmix generator. -/
structure Splitmix where
  /-- The counter that the drawn words are mixed from. -/
  state : UInt64
deriving DecidableEq

namespace Splitmix

/-- The generator of a seed, of which the low 64 bits count. -/
def ofSeed (seed : Int) : Splitmix := ⟨UInt64.ofInt seed⟩

def mix (z : UInt64) : UInt64 :=
  let z := (z ^^^ (z >>> 30)) * 0xBF58476D1CE4E5B9
  let z := (z ^^^ (z >>> 27)) * 0x94D049BB133111EB
  z ^^^ (z >>> 31)

def next (g : Splitmix) : UInt64 × Splitmix :=
  let state := g.state + 0x9E3779B97F4A7C15
  (mix state, ⟨state⟩)

/-- Draws the top 24 bits of a word. -/
def nextBits (g : Splitmix) : Float × Splitmix :=
  let (word, g) := g.next
  ((word >>> 40).toFloat, g)

instance : RandomSource Splitmix where
  normal g :=
    let (bits, g) := g.nextBits
    (bits / 4194304.0 - 2.0, g)
  integer low high g :=
    let (word, g) := g.next
    (low + (word.toNat : Int) % (high - low), g)
  uniform low high g :=
    let (bits, g) := g.nextBits
    (low + (high - low) * (bits / 16777216.0), g)

end Splitmix

def drawMany {γ α : Type} (draw : γ → α × γ) : Nat → γ → List α × γ
  | 0, g => ([], g)
  | count + 1, g =>
    let (x, g) := draw g
    let (xs, g) := drawMany draw count g
    (x :: xs, g)

/-- Checks the array that so many numbers are drawn into before they get the element type
of a buffer. Every draw is a number of eight bytes. -/
def demandDraws (count : Nat) : Except Failure Unit :=
  Buffer.demandDims ElementType.float64.bytes [count]

section

variable {γ : Type} [RandomSource γ]

/-- Draws data of a size that `demandDraws` lets pass. -/
def fillData (size : Nat) (type : ElementType) (g : γ) : Buffer × γ :=
  match type with
  | .integer t =>
    let (xs, g) := drawMany (RandomSource.integer (-16) 17) size g
    (Buffer.ofList (.integer t) (xs.map t.ofInt), g)
  | type =>
    let (xs, g) := drawMany RandomSource.normal size g
    (Buffer.ofFloats type xs, g)

/-- Draws variances for a size that `demandDraws` lets pass. -/
def fillVariance (size : Nat) (g : γ) : Buffer × γ :=
  let (xs, g) := drawMany (RandomSource.uniform 0.25 2.0) size g
  (Buffer.ofFloats .float32 xs, g)

end

end BatchNorm
