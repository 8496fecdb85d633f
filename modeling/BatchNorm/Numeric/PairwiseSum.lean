import BatchNorm.Numeric.Exact

/-!
# Pairwise summation

The sums of the reference are pairwise: a long list is cut into two halves that
are summed apart, so the rounding error grows with the depth of the cuts and
not with the length. The order of additions is part of the result, and the
definitions hold over any type with an addition; over exact numbers the order
does not matter and the sum is the plain one.

* fewer than eight numbers are added from left to right;
* up to 128 numbers are added in eight lanes, number `i` to lane `i % 8`, and
  the numbers after the last full group of eight are added at the end;
* more numbers are cut in two, the first part a multiple of eight long.
-/

set_option autoImplicit false

namespace BatchNorm

namespace PairwiseSum

section

variable {α : Type} [Add α]

/-- Adds each full group of eight numbers to the eight lanes, and gives the
numbers after the last full group. -/
def addGroups (lanes : Vector α 8) : List α → Vector α 8 × List α
  | a₀ :: a₁ :: a₂ :: a₃ :: a₄ :: a₅ :: a₆ :: a₇ :: rest =>
    addGroups (lanes.zipWith (· + ·) #v[a₀, a₁, a₂, a₃, a₄, a₅, a₆, a₇]) rest
  | rest => (lanes, rest)

/-- The sum of the eight lanes, neighbours first. -/
def joinLanes (lanes : Vector α 8) : α :=
  ((lanes[0] + lanes[1]) + (lanes[2] + lanes[3])) + ((lanes[4] + lanes[5]) + (lanes[6] + lanes[7]))

end

section

variable {α : Type} [Add α] [Neg α] [Zero α]

/-- The sum of a short list: from left to right below eight numbers, in eight
lanes from there on. It starts at the negative zero, which no addition shows. -/
def short : List α → α
  | a₀ :: a₁ :: a₂ :: a₃ :: a₄ :: a₅ :: a₆ :: a₇ :: rest =>
    let (lanes, last) := addGroups #v[a₀, a₁, a₂, a₃, a₄, a₅, a₆, a₇] rest
    last.foldl (· + ·) (joinLanes lanes)
  | few => few.foldl (· + ·) (-0)

/-- Where a list of `n` numbers is cut: in the middle, moved down to a multiple
of eight. -/
def cut (n : Nat) : Nat := n / 2 - n / 2 % 8

theorem cut_pos {n : Nat} (h : 128 < n) : 0 < cut n := by
  unfold cut; omega

theorem cut_lt {n : Nat} (h : 128 < n) : cut n < n := by
  unfold cut; omega

/-- The pairwise sum of the numbers of a list. -/
def sum (xs : List α) : α :=
  if 128 < xs.length then
    sum (xs.take (cut xs.length)) + sum (xs.drop (cut xs.length))
  else short xs
termination_by xs.length
decreasing_by
  · have := cut_lt ‹128 < xs.length›
    rw [List.length_take]; omega
  · have := cut_pos ‹128 < xs.length›
    rw [List.length_drop]; omega

/-- The total of a list: its pairwise sum added to zero, so that the sum of no
numbers is the positive zero. -/
def total (xs : List α) : α := 0 + sum xs

end

end PairwiseSum

end BatchNorm
