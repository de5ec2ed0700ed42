/-
# Failures of a rule

A failure is one reason why a rule did not match: a message, the position in
the input it speaks of, and the labels of the named rules it happened in,
outermost first.

Message and position are fixed when the failure arises. The path grows from
the inside out, one label for every named rule that is left with the failure.
-/

namespace Rulebook

/-- One reason for a rejection. The path lists the labels of the enclosing
named rules, outermost first. -/
structure Failure where
  path : List String
  message : String
  position : Nat
  deriving DecidableEq, Inhabited, Repr

namespace Failure

/-- A failure that no named rule has labelled yet. -/
def bare (message : String) (position : Nat) : Failure :=
  ⟨[], message, position⟩

/-- Put `label` in front of the path, as its new outermost label. -/
def withPath (label : String) (failure : Failure) : Failure :=
  { failure with path := label :: failure.path }

/-- The labels of the path from the outermost to the innermost, with ` > `
between two neighbours. -/
def pathText (path : List String) : String :=
  " > ".intercalate path

/-- The message with its path in front, without the position. -/
def labelledMessage (failure : Failure) : String :=
  match failure.path with
  | [] => failure.message
  | path => pathText path ++ ": " ++ failure.message

/-- One line of text: path, position and message. A failure without labels
starts with its position. -/
def toText (failure : Failure) : String :=
  let place := "at " ++ toString failure.position ++ ": " ++ failure.message
  match failure.path with
  | [] => place
  | path => pathText path ++ " " ++ place

@[simp]
theorem path_withPath (label : String) (failure : Failure) :
    (failure.withPath label).path = label :: failure.path := rfl

@[simp]
theorem message_withPath (label : String) (failure : Failure) :
    (failure.withPath label).message = failure.message := rfl

@[simp]
theorem position_withPath (label : String) (failure : Failure) :
    (failure.withPath label).position = failure.position := rfl

/-- Two failures that agree after taking the same label agreed before. -/
theorem withPath_injective {label : String} {left right : Failure}
    (same : left.withPath label = right.withPath label) : left = right := by
  cases left
  cases right
  simp_all [withPath]

end Failure

/-- The message for a cursor that points at no element of the input. -/
def outOfRange (size position : Nat) : String :=
  "cursor out of range (input size: " ++ toString size ++
    ", position: " ++ toString position ++ ")"

end Rulebook
