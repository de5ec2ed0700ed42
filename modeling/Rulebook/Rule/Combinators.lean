/-
# The common combinators

Rules that read one element, rules that decide without reading, changes of the
value, and alternation. All of them are built from the constructors of rules.
-/

import Rulebook.Rule.Apply

namespace Rulebook

/-- The wording of an element in messages. -/
class Describe (ε : Type) where
  describe : ε → String

instance : Describe Int := ⟨fun n => toString n⟩

namespace Rule

variable {N : Nonterminals} {ε : Type} {Γ : List Type} {α β : Type}

/-- Accept with `value` and consume nothing. -/
def accept (value : α) : Rule N ε Γ α :=
  .leaf (.accept value)

/-- Reject with `message`. -/
def reject (message : String) : Rule N ε Γ α :=
  .leaf (.reject message)

/-- A rule that judges source, active labels and cursor by hand. -/
def custom (judge : Array ε → Context → Nat → Outcome α) : Rule N ε Γ α :=
  .leaf (.custom judge)

/-- Accept at the end of the input only, without consuming anything. -/
def finish [Describe ε] : Rule N ε Γ Unit :=
  .leaf (.finish Describe.describe ())

/-- Consume one element and turn it into a value or a message. -/
def nextAs (read : ε → Except String α) : Rule N ε Γ α :=
  .leaf (.next read)

/-- Consume one element for which the predicate holds. -/
def nextIf (holds : ε → Bool) : Rule N ε Γ ε :=
  nextAs fun element =>
    if holds element then .ok element else .error "condition unmet"

/-- Consume elements as long as they are to be skipped. -/
def skipWhile (skips : ε → Bool) : Rule N ε Γ Unit :=
  .leaf (.skipWhile skips ())

/-- Put `value` in place of the value. -/
def yielding (value : β) (rule : Rule N ε Γ α) : Rule N ε Γ β :=
  rule.map fun _ => value

/-- Drop the value. -/
def ignored (rule : Rule N ε Γ α) : Rule N ε Γ Unit :=
  rule.map fun _ => ()

/-- The alternative that reaches furthest, the earliest of several. If none
accepts, the failures of all are reported in their order. Every alternative is
applied. -/
def fork (first : Rule N ε Γ α) (others : List (Rule N ε Γ α)) :
    Rule N ε Γ α :=
  others.foldl .orElse first

/-- The alternation of a list of rules, which has to have a member. -/
def fork? : List (Rule N ε Γ α) → Except DefinitionError (Rule N ε Γ α)
  | [] => .error .emptyAlternation
  | first :: others => .ok (fork first others)

instance : OrElse (Rule N ε Γ α) := ⟨fun rule other => rule.orElse (other ())⟩

/-- The rule, or nothing where it rejects. -/
def optional (rule : Rule N ε Γ α) : Rule N ε Γ (Option α) :=
  fork (rule.map some) [accept none]

end Rule

end Rulebook
