/-
# The life of a recursive rule

A recursive rule comes to life when its definition is finished, and ends when
the last of its holders lets go of it. References do not hold it: they see the
rule while it lives and reject before and after.
-/

import Rulebook.Rule.Apply

namespace Rulebook

/-- The state of a recursive rule. -/
inductive Lifetime
  /-- The definition is not finished. -/
  | defining
  /-- The definition is finished, and so many hold the rule. -/
  | held (holders : Nat)
  deriving DecidableEq, Inhabited, Repr

namespace Lifetime

/-- Finish the definition; whoever defined the rule holds it. -/
def finish : Lifetime → Lifetime
  | defining => held 1
  | held holders => held holders

/-- One more holder, if there is one to take the rule from. -/
def share : Lifetime → Lifetime
  | defining => defining
  | held 0 => held 0
  | held (holders + 1) => held (holders + 2)

/-- One holder less. -/
def release : Lifetime → Lifetime
  | defining => defining
  | held holders => held (holders - 1)

variable {N : Nonterminals} {ε : Type} {Γ : List Type} {α β : Type}

/-- What references see of a rule with the given body. -/
def slot (body : Rule N ε (α :: Γ) α) : Lifetime → Slot N ε Γ α
  | defining => .undefined
  | held 0 => .dropped
  | held (_ + 1) => .defined body

/-- Apply a rule that refers to a recursive rule with the given body, at some
point of the life of the latter. -/
def applyWithin (input : Input N ε) (steps : Nat) (lifetime : Lifetime)
    (body : Rule N ε [α] α) (rule : Rule N ε [α] β) : Matcher β :=
  Rule.apply input steps rule (.cons (lifetime.slot body) 0 .nil) 0

/-- Apply the reference itself. -/
def applyReference (input : Input N ε) (steps : Nat) (lifetime : Lifetime)
    (body : Rule N ε [α] α) : Matcher α :=
  lifetime.applyWithin input steps body (.reference .here)

end Lifetime

end Rulebook
