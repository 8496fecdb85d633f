import BatchNorm.Literal.Integer

/-!
# Shapes

A shape is the five extents of a tensor: batch, channels, depth, height and
width. Batch normalization reduces over all of them but the channels.

* `Shape.ofExtents` and `Shape.ofDims` make a shape from literal extents.
* `Shape.demandTexts` checks that a shape can be described.
* `Shape.sites` are the positions within one channel and `Shape.cells` those of
  a range of channels, both in lexicographic order.
-/

set_option autoImplicit false

namespace BatchNorm

/-- The extents of a tensor. -/
structure Shape where
  batch : Nat
  channels : Nat
  depth : Nat := 1
  height : Nat := 1
  width : Nat := 1
deriving DecidableEq, Repr

/-- A position within one channel. -/
structure Site where
  n : Nat
  d : Nat
  h : Nat
  w : Nat
deriving DecidableEq, Repr

def Site.inChannel (s : Site) (c : Int) : Position := ⟨s.n, c, s.d, s.h, s.w⟩

namespace Shape

def dims (s : Shape) : List Nat := [s.batch, s.channels, s.depth, s.height, s.width]

def spatialSize (s : Shape) : Nat := s.depth * s.height * s.width

/-- How many elements are reduced into the statistics of one channel. -/
def reductionSize (s : Shape) : Nat := s.batch * s.spatialSize

def elementCount (s : Shape) : Nat := s.reductionSize * s.channels

def isEmpty (s : Shape) : Bool := s.elementCount = 0

/-- Checks that each extent can be written. -/
def demandTexts (s : Shape) : Except Failure Unit :=
  if s.dims.all (fun n => Integer.isWritable n) then .ok () else misuse .integerTooLong

/-! ## Making shapes -/

/-- One extent: a natural number. -/
def extent (axis : Axis) (value : Literal) : Except Failure Nat :=
  match value.integer? with
  | some (.ofNat n) => .ok n
  | _ => refuse (.extent axis value)

/-- The shape with five extents; the first one that is no natural number is
refused. -/
def ofFive (n c d h w : Literal) : Except Failure Shape := do
  let batch ← extent .batch n
  let channels ← extent .channels c
  let depth ← extent .depth d
  let height ← extent .height h
  let width ← extent .width w
  return ⟨batch, channels, depth, height, width⟩

/-- The shape with two to five extents; those left out are one. -/
def ofExtents : List Literal → Except Failure Shape
  | [n, c] => ofFive n c (.int 1) (.int 1) (.int 1)
  | [n, c, d] => ofFive n c d (.int 1) (.int 1)
  | [n, c, d, h] => ofFive n c d h (.int 1)
  | [n, c, d, h, w] => ofFive n c d h w
  | _ => misuse .extentArguments

/-- The shape of a tensor with the given dimensions: batch and channels, the
same with height and width, or all five. -/
def ofIntegers : List Int → Except Failure Shape
  | [n, c] => ofFive (.int n) (.int c) (.int 1) (.int 1) (.int 1)
  | [n, c, h, w] => ofFive (.int n) (.int c) (.int 1) (.int h) (.int w)
  | [n, c, d, h, w] => ofFive (.int n) (.int c) (.int d) (.int h) (.int w)
  | dims => refuse (.extentCount dims.length)

/-- The shape of a tensor whose dimensions are literals; each is made an
integer first. -/
def ofDims (dims : List Literal) : Except Failure Shape := do
  ofIntegers (← dims.mapM Literal.toInteger)

/-! ## Positions -/

/-- The sites of one channel, the width index running fastest. -/
def sites (s : Shape) : List Site :=
  (List.range s.batch).flatMap fun n =>
    (List.range s.depth).flatMap fun d =>
      (List.range s.height).flatMap fun h =>
        (List.range s.width).map fun w => ⟨n, d, h, w⟩

/-- The coordinates of the sites as four columns: batch, depth, height and width
indices. -/
def columns (s : Shape) : List (List Int) :=
  [s.sites.map (fun x => (x.n : Int)), s.sites.map (fun x => (x.d : Int)),
    s.sites.map (fun x => (x.h : Int)), s.sites.map (fun x => (x.w : Int))]

/-- The positions of `count` channels from `first` on, the width index running
fastest and the batch index slowest. -/
def cells (s : Shape) (first count : Nat) : List Position :=
  (List.range s.batch).flatMap fun (n : Nat) =>
    (List.range count).flatMap fun (c : Nat) =>
      (List.range s.depth).flatMap fun (d : Nat) =>
        (List.range s.height).flatMap fun (h : Nat) =>
          (List.range s.width).map fun (w : Nat) => ⟨n, (first + c : Nat), d, h, w⟩

def positions (s : Shape) : List Position := s.cells 0 s.channels

end Shape

end BatchNorm
