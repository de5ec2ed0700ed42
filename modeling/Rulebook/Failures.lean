/-
# Rejections

A rejection carries at least one failure, in the order in which the
alternatives that produced them were listed. That a collection is never empty
is part of its type: a first failure and a list of further ones.

The deepest failures, those at the greatest position, are the most specific
ones. `filtered` keeps them once each, in the order of first occurrence.
-/

import Rulebook.Failure

namespace Rulebook

/-- A non-empty, ordered collection of failures. -/
structure Failures where
  first : Failure
  others : List Failure
  deriving DecidableEq, Inhabited, Repr

namespace Failures

/-- The failures in order. -/
def toList (failures : Failures) : List Failure :=
  failures.first :: failures.others

/-- A collection of one failure. -/
def single (failure : Failure) : Failures :=
  ⟨failure, []⟩

/-- The collection with the given failures; there is none for an empty list. -/
def ofList? : List Failure → Option Failures
  | [] => none
  | first :: others => some ⟨first, others⟩

/-- Both collections one after the other, each in its own order. -/
def append (left right : Failures) : Failures :=
  ⟨left.first, left.others ++ right.toList⟩

instance : Append Failures := ⟨append⟩

/-- Put `label` in front of the path of every failure. -/
def withPath (label : String) (failures : Failures) : Failures :=
  ⟨failures.first.withPath label, failures.others.map (·.withPath label)⟩

/-- The number of failures. -/
def length (failures : Failures) : Nat :=
  failures.toList.length

/-- The greatest position among the failures. -/
def furthest (failures : Failures) : Nat :=
  failures.others.foldl (fun found failure => max found failure.position)
    failures.first.position

/-- The failures at the greatest position. -/
def deepest (failures : Failures) : List Failure :=
  failures.toList.filter (·.position = failures.furthest)

/-- The members of a list once each, in the order of first occurrence. -/
def distinct : List Failure → List Failure
  | [] => []
  | failure :: rest => failure :: (distinct rest).filter (· ≠ failure)

/-- The deepest failures, once each. -/
def filtered (failures : Failures) : List Failure :=
  distinct failures.deepest

/-- One line for each failure of a list. -/
def linesOf (failures : List Failure) : String :=
  "\n".intercalate (failures.map Failure.toText)

/-- One line for each failure. -/
def toText (failures : Failures) : String :=
  linesOf failures.toList

@[simp]
theorem toList_single (failure : Failure) :
    (single failure).toList = [failure] := rfl

@[simp]
theorem toList_append (left right : Failures) :
    (left ++ right).toList = left.toList ++ right.toList := rfl

@[simp]
theorem toList_withPath (label : String) (failures : Failures) :
    (failures.withPath label).toList =
      failures.toList.map (·.withPath label) := rfl

/-- A collection is determined by its list. -/
theorem toList_injective {left right : Failures}
    (same : left.toList = right.toList) : left = right := by
  cases left
  cases right
  simp_all [toList]

theorem withPath_append (label : String) (left right : Failures) :
    (left ++ right).withPath label = left.withPath label ++ right.withPath label := by
  apply toList_injective
  simp

theorem append_assoc (left middle right : Failures) :
    left ++ middle ++ right = left ++ (middle ++ right) := by
  apply toList_injective
  simp

@[simp]
theorem ofList?_toList (failures : Failures) :
    ofList? failures.toList = some failures := rfl

theorem toList_of_ofList? {found : List Failure} {failures : Failures}
    (listed : ofList? found = some failures) : failures.toList = found := by
  cases found with
  | nil => cases listed
  | cons first others =>
      cases listed
      rfl

theorem ofList?_eq_none_iff {failures : List Failure} :
    ofList? failures = none ↔ failures = [] := by
  cases failures <;> simp [ofList?]

end Failures

end Rulebook
