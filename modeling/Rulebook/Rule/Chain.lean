/-
# Sequences of rules

A chain applies rules one after the other and keeps the values of some of them
in a tuple. Each step is applied only if the one before it accepted; the first
rejection is the rejection of the chain.
-/

import Rulebook.Rule.Combinators
import Rulebook.Tuple

namespace Rulebook

/-- A sequence of rules whose kept values have the given types. -/
structure Chain (N : Nonterminals) (ε : Type) (Γ types : List Type) :
    Type 1 where
  rule : Rule N ε Γ (Tuple types)

namespace Chain

variable {N : Nonterminals} {ε : Type} {Γ types : List Type} {α : Type}

/-- The sequence without steps. -/
def empty : Chain N ε Γ [] :=
  ⟨.accept .empty⟩

/-- Go on from a rule whose value is the tuple so far. -/
def ofRule (rule : Rule N ε Γ (Tuple types)) : Chain N ε Γ types :=
  ⟨rule⟩

/-- Apply `rule` next and append its value. -/
def push (chain : Chain N ε Γ types) (rule : Rule N ε Γ α) :
    Chain N ε Γ (types ++ [α]) :=
  ⟨chain.rule.thenWith Tuple.append rule⟩

/-- Apply `rule` next and drop its value. -/
def skip (chain : Chain N ε Γ types) (rule : Rule N ε Γ α) :
    Chain N ε Γ types :=
  ⟨chain.rule.thenWith (fun values _ => values) rule⟩

/-- The rule for the whole sequence. -/
def done (chain : Chain N ε Γ types) : Rule N ε Γ (Tuple types) :=
  chain.rule

end Chain

namespace Rule

variable {N : Nonterminals} {ε : Type} {Γ types : List Type} {α β γ : Type}

/-- Keep only the first value of a tuple. -/
def first (rule : Rule N ε Γ (Tuple (α :: types))) : Rule N ε Γ α :=
  rule.map Tuple.first

/-- A rule between two others, with its value alone. -/
def enclose (opening : Rule N ε Γ α) (closing : Rule N ε Γ β)
    (rule : Rule N ε Γ γ) : Rule N ε Γ γ :=
  (((Chain.empty.skip opening).push rule).skip closing).done.first

end Rule

end Rulebook
