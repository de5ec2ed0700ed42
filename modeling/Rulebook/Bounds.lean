/-
# How often a rule is repeated

Bounds are a floor and perhaps a ceiling, which never lies below the floor.
The constructors are the only ways to state them, and the one that can be
asked for too low a ceiling refuses.
-/

import Rulebook.Halt

namespace Rulebook

/-- A floor and perhaps a ceiling for the number of matches. -/
structure Bounds where
  floor : Nat
  ceiling : Option Nat
  floor_le_ceiling : ∀ limit ∈ ceiling, floor ≤ limit
  deriving DecidableEq, Repr

namespace Bounds

/-- Any number of matches, none included. -/
def any : Bounds := ⟨0, none, by simp⟩

instance : Inhabited Bounds := ⟨any⟩

def atLeast (floor : Nat) : Bounds := ⟨floor, none, by simp⟩

def atMost (ceiling : Nat) : Bounds := ⟨0, some ceiling, by simp⟩

def exactly (count : Nat) : Bounds := ⟨count, some count, by simp⟩

/-- Between `floor` and `ceiling` matches, both included. -/
def between (floor ceiling : Nat) : Except DefinitionError Bounds :=
  if h : floor ≤ ceiling then .ok ⟨floor, some ceiling, by simpa using h⟩
  else .error (.invalidRepetition floor ceiling)

end Bounds

end Rulebook
