/-
# Sets of code points

A set of code points is given by its edges in increasing order: the code
points where it begins and where it ends, in turn. A code point belongs to the
set if an odd number of edges lies at or before it, and a binary search counts
those.
-/

namespace Rulebook.Text

/-- A set of code points, given by the edges of its ranges: the first code
point of a range, the first one after it, and so on. -/
structure CodeRanges where
  edges : Array Nat

namespace CodeRanges

/-- The number of edges at or before `code`, if it lies between `low` and
`high`. -/
def rank (edges : Array Nat) (code low high : Nat) : Nat :=
  if low < high then
    let middle := (low + high) / 2
    if edges.getD middle 0 ≤ code then rank edges code (middle + 1) high
    else rank edges code low middle
  else low
termination_by high - low

/-- Whether a code point belongs to the set. -/
def contains (ranges : CodeRanges) (code : Nat) : Bool :=
  rank ranges.edges code 0 ranges.edges.size % 2 == 1

end CodeRanges

end Rulebook.Text
