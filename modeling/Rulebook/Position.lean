/-
# Positions

A position counts the elements in front of it. Positions are 64-bit words, so
there is a last one: going on past it is an error, never a silent return to
the start. A span of a source exists only between two positions of the source
in their order.
-/

import Rulebook.Halt

namespace Rulebook

/-- The greatest position. Positions are 64-bit words. -/
def lastPosition : Nat := UInt64.size - 1

/-- The position `count` further on; there is none past the last position. -/
def advance (position count : Nat) : Except Halt Nat :=
  if position + count ≤ lastPosition then .ok (position + count)
  else .error .overflow

/-- The next position; the last one is followed by itself. -/
def following (position : Nat) : Nat :=
  min (position + 1) lastPosition

theorem following_le (position : Nat) : following position ≤ lastPosition :=
  Nat.min_le_right _ _

theorem advance_eq_ok {position count : Nat}
    (bounded : position + count ≤ lastPosition) :
    advance position count = .ok (position + count) :=
  if_pos bounded

/-- The elements of `source` from `start` up to `stop`, if both are positions
of the source in this order. -/
def span? {ε : Type} (source : Array ε) (start stop : Nat) :
    Option (Array ε) :=
  if start ≤ stop ∧ stop ≤ source.size then some (source.extract start stop)
  else none

theorem span?_eq_some {ε : Type} {source : Array ε} {start stop : Nat}
    (ordered : start ≤ stop ∧ stop ≤ source.size) :
    span? source start stop = some (source.extract start stop) :=
  if_pos ordered

theorem span?_eq_none {ε : Type} {source : Array ε} {start stop : Nat}
    (disordered : ¬(start ≤ stop ∧ stop ≤ source.size)) :
    span? source start stop = none :=
  if_neg disordered

theorem span?_eq_some_iff {ε : Type} {source found : Array ε}
    {start stop : Nat} :
    span? source start stop = some found ↔
      (start ≤ stop ∧ stop ≤ source.size) ∧
        source.extract start stop = found := by
  unfold span?
  split
  · simp_all
  · simp only [reduceCtorEq, false_iff]
    exact fun both => absurd both.1 ‹_›

end Rulebook
