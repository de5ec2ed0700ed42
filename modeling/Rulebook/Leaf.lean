/-
# Rules without parts

A leaf reads the source at the cursor and decides at once. Leaves see the
source, the active labels and the cursor, and change nothing.
-/

import Rulebook.Context
import Rulebook.Outcome
import Rulebook.Position

namespace Rulebook

/-- A rule that contains no other rule. -/
inductive Leaf (ε α : Type)
  /-- Accept without consuming anything. -/
  | accept (value : α)
  /-- Reject with a fixed message. -/
  | reject (message : String)
  /-- Consume one element and turn it into a value or a message. -/
  | next (read : ε → Except String α)
  /-- Accept at the end of the source only. `describe` names an element that
  is found instead. -/
  | finish (describe : ε → String) (value : α)
  /-- Consume `size` elements if they agree. `mismatch` words the rejection
  for the elements found, fewer than `size` if the source ends before. -/
  | window (size : Nat) (agrees : Array ε → Bool)
      (mismatch : Array ε → String) (value : α)
  /-- Consume elements as long as they are to be skipped. -/
  | skipWhile (skips : ε → Bool) (value : α)
  /-- Judge in any way from source, active labels and cursor. -/
  | custom (judge : Array ε → Context → Nat → Outcome α)

namespace Leaf

variable {ε α : Type}

/-- The first position from `position` on whose element is not to be
skipped. -/
def scan (source : Array ε) (skips : ε → Bool) (position : Nat) :
    Except Halt Nat :=
  if h : position < source.size then
    if skips source[position] then
      if position < lastPosition then scan source skips (position + 1)
      else .error .overflow
    else .ok position
  else .ok position
termination_by source.size - position

/-- Compare the `size` elements at `position`. The comparison fails outright
if so many elements would reach past the last position. -/
def compare (source : Array ε) (size : Nat) (agrees : Array ε → Bool)
    (mismatch : Array ε → String) (value : α) (position : Nat) : Outcome α :=
  if position + size ≤ lastPosition then
    match span? source position (position + size) with
    | some found =>
      if agrees found then .accepted value (position + size)
      else .reject (mismatch found) position
    | none =>
      .reject (mismatch (source.extract position source.size)) position
  else .reject (outOfRange source.size position) position

/-- What a leaf comes to at a position. -/
def apply (leaf : Leaf ε α) (source : Array ε) (context : Context)
    (position : Nat) : Except Halt (Outcome α) :=
  match leaf with
  | .accept value => .ok (.accepted value position)
  | .reject message => .ok (.reject message position)
  | .next read =>
    match source[position]? with
    | none => .ok (.reject (outOfRange source.size position) position)
    | some element =>
      match read element with
      | .error message => .ok (.reject message position)
      | .ok value => (advance position 1).map (.accepted value)
  | .finish describe value =>
    match source[position]? with
    | none =>
      if position = source.size then .ok (.accepted value position)
      else .ok (.reject (outOfRange source.size position) position)
    | some element =>
      .ok (.reject ("expected end of input, got " ++ describe element)
        position)
  | .window size agrees mismatch value =>
    .ok (compare source size agrees mismatch value position)
  | .skipWhile skips value =>
    (scan source skips position).map (.accepted value)
  | .custom judge => .ok (judge source context position)

end Leaf

end Rulebook
