import BatchNorm.Layout.Basic

/-!
# Memory formats

A memory format is a layout by name, such as `nhwc` or `nChw8c`: the axes in
the order in which they run through memory, with the block of channels at the
end where there is one.
-/

set_option autoImplicit false

namespace BatchNorm

structure MemoryFormat where
  name : String
  order : MemoryOrder
  block : Nat
  rank : Nat

namespace MemoryFormat

def all : List MemoryFormat := [
  ⟨"nc", .plain, 1, 2⟩,
  ⟨"nchw", .plain, 1, 4⟩,
  ⟨"ncdhw", .plain, 1, 5⟩,
  ⟨"nhwc", .channelsLast, 1, 4⟩,
  ⟨"ndhwc", .channelsLast, 1, 5⟩,
  ⟨"nChw8c", .blocked, 8, 4⟩,
  ⟨"nChw16c", .blocked, 16, 4⟩,
  ⟨"nCdhw8c", .blocked, 8, 5⟩,
  ⟨"nCdhw16c", .blocked, 16, 5⟩]

def ofName? (name : String) : Option MemoryFormat := all.find? (·.name = name)

end MemoryFormat

/-- The layout of a shape in the format with a name. A format without a depth
takes only shapes of depth one, and one without spatial axes only shapes without
a spatial extent. -/
def Layout.ofFormat (name : String) (shape : Shape) : Except Failure Layout := do
  match MemoryFormat.ofName? name with
  | none => refuse (.memoryFormat name)
  | some format =>
    require (5 ≤ format.rank ∨ shape.depth = 1) (.formatDepth name shape.depth)
    require (format.rank ≠ 2 ∨ (shape.height = 1 ∧ shape.width = 1)) (.formatSpatial name)
    match format.order with
    | .blocked => Layout.blocked shape format.block
    | order => Layout.unblocked order shape none

end BatchNorm
