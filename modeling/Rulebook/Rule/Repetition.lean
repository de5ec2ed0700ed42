/-
# Repetition

A repetition says how often a rule is matched and what has to stand between
two matches. The values are folded, collected or dropped. An item that can
match without consuming anything has to be made non-empty, or the repetition
given a ceiling, for the repetition to end.
-/

import Rulebook.Rule.Combinators

namespace Rulebook

/-- Bounds for the number of matches, and perhaps a separator between two. -/
structure Repetition (N : Nonterminals) (ε : Type) (Γ : List Type) :
    Type 1 where
  bounds : Bounds
  separator : Option (Rule N ε Γ Unit)

namespace Repetition

variable {N : Nonterminals} {ε : Type} {Γ : List Type} {α : Type}

/-- Matches within `bounds`, with nothing between them. -/
def within (bounds : Bounds) : Repetition N ε Γ := ⟨bounds, none⟩

/-- Any number of matches, none included. -/
def any : Repetition N ε Γ := within .any

instance : Inhabited (Repetition N ε Γ) := ⟨any⟩

def atLeast (floor : Nat) : Repetition N ε Γ := within (.atLeast floor)

def atMost (ceiling : Nat) : Repetition N ε Γ := within (.atMost ceiling)

def exactly (count : Nat) : Repetition N ε Γ := within (.exactly count)

/-- Between `floor` and `ceiling` matches, both included. -/
def between (floor ceiling : Nat) :
    Except DefinitionError (Repetition N ε Γ) :=
  (Bounds.between floor ceiling).map within

/-- Require `separator` between two matches. Its value is dropped. -/
def separatedBy (separator : Rule N ε Γ α) (repetition : Repetition N ε Γ) :
    Repetition N ε Γ :=
  { repetition with separator := some separator.ignored }

end Repetition

namespace Rule

variable {N : Nonterminals} {ε : Type} {Γ : List Type} {α β : Type}

/-- Match the rule again and again and fold the values from the left. -/
def foldMany (repetition : Repetition N ε Γ) (init : β) (fold : β → α → β)
    (rule : Rule N ε Γ α) : Rule N ε Γ β :=
  .repeated repetition.bounds (repetition.separator.getD (accept ())) rule
    init fold

/-- Match the rule again and again and drop the values. -/
def skipMany (repetition : Repetition N ε Γ) (rule : Rule N ε Γ α) :
    Rule N ε Γ Unit :=
  rule.foldMany repetition () fun _ _ => ()

/-- Match the rule again and again and gather the values in order. -/
def collect (repetition : Repetition N ε Γ) (rule : Rule N ε Γ α) :
    Rule N ε Γ (Array α) :=
  rule.foldMany repetition #[] Array.push

end Rule

end Rulebook
