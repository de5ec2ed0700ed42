/-
# Outcomes

Applying a rule at a position has one of two outcomes: it accepts with a value
and the position right after what it consumed, or it rejects with the failures
that explain why. An acceptance may stop where it started; it then consumed
nothing.
-/

import Rulebook.Failures

namespace Rulebook

/-- What applying a rule at a position comes to. -/
inductive Outcome (α : Type)
  | accepted (value : α) (stop : Nat)
  | rejected (failures : Failures)
  deriving Repr

namespace Outcome

variable {α β : Type}

/-- A rejection with a single unlabelled failure. -/
def reject (message : String) (position : Nat) : Outcome α :=
  .rejected (.single (.bare message position))

/-- Change the accepted value. Position and failures stay. -/
def map (f : α → β) : Outcome α → Outcome β
  | .accepted value stop => .accepted (f value) stop
  | .rejected failures => .rejected failures

/-- Put `label` in front of the path of every failure. An acceptance stays as
it is. -/
def withPath (label : String) : Outcome α → Outcome α
  | .accepted value stop => .accepted value stop
  | .rejected failures => .rejected (failures.withPath label)

def isAccepted : Outcome α → Bool
  | .accepted _ _ => true
  | .rejected _ => false

def isRejected (outcome : Outcome α) : Bool :=
  !outcome.isAccepted

/-- The position after the match, if there is one. -/
def stop? : Outcome α → Option Nat
  | .accepted _ stop => some stop
  | .rejected _ => none

def value? : Outcome α → Option α
  | .accepted value _ => some value
  | .rejected _ => none

def failures? : Outcome α → Option Failures
  | .accepted _ _ => none
  | .rejected failures => some failures

/-- Value and position of an acceptance, or the failures. -/
def toExcept : Outcome α → Except Failures (α × Nat)
  | .accepted value stop => .ok (value, stop)
  | .rejected failures => .error failures

/-- The accepted value without its position, or the failures. -/
def toValue (outcome : Outcome α) : Except Failures α :=
  outcome.toExcept.map Prod.fst

/-- The outcome that reaches further; the left one if both stop at the same
position. Of an acceptance and a rejection the acceptance is better, and two
rejections join their failures. -/
def best : Outcome α → Outcome α → Outcome α
  | .accepted kept stop, .accepted found reach =>
    if reach ≤ stop then .accepted kept stop else .accepted found reach
  | .accepted kept stop, .rejected _ => .accepted kept stop
  | .rejected _, .accepted found reach => .accepted found reach
  | .rejected failures, .rejected more => .rejected (failures ++ more)

@[simp]
theorem map_accepted (f : α → β) (value : α) (stop : Nat) :
    (accepted value stop).map f = accepted (f value) stop := rfl

@[simp]
theorem map_rejected (f : α → β) (failures : Failures) :
    (rejected failures).map f = rejected failures := rfl

@[simp]
theorem isAccepted_accepted (value : α) (stop : Nat) :
    (accepted value stop).isAccepted = true := rfl

@[simp]
theorem isAccepted_rejected (failures : Failures) :
    (rejected failures : Outcome α).isAccepted = false := rfl

@[simp]
theorem isRejected_eq_not_isAccepted (outcome : Outcome α) :
    outcome.isRejected = !outcome.isAccepted := rfl

end Outcome

end Rulebook
