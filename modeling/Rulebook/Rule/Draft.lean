/-
# Writing definitions

The deferred and delayed rules in a definition have numbers, one for every
place where such a rule is made; a rule that is used at several places keeps
its number, and thereby its cell. A draft hands out these numbers in order, and
stops at a definition that is no valid rule. What may turn out to be no rule
once it is needed has a name; what is delayed where it stands is a rule.
-/

import Rulebook.Rule.Combinators

namespace Rulebook

/-- A definition in the making, with the next number that is free. -/
abbrev Draft : Type 1 → Type 1 :=
  StateT (ULift.{1} Nat) (Except DefinitionError)

namespace Draft

variable {N : Nonterminals} {ε : Type} {Γ : List Type} {α : Type}

/-- A new deferred rule for `name`. -/
def defer (name : N.Name) : Draft (Rule N ε Γ (N.Value name)) :=
  fun ⟨number⟩ => .ok (.deferred number name, ⟨number + 1⟩)

/-- A new delayed rule. The deferred rules that it makes have the numbers after
its own, those that it is given keep theirs. -/
def delay (draft : Draft (Rule N ε Γ α)) : Draft (Rule N ε Γ α) := do
  let ⟨number⟩ ← getModify fun next => ⟨next.down + 1⟩
  return (← draft).delayed number

/-- The finished definition. -/
def finish {α : Type 1} (draft : Draft α) : Except DefinitionError α :=
  (draft.run ⟨0⟩).map Prod.fst

end Draft

end Rulebook
