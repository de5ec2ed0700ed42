/-
# Rules over tokens

A grammar over tokens reads them one at a time. These rules say in a rejection
which token was expected and which one was found.
-/

import Rulebook.Rule.Combinators

namespace Rulebook.Rule

variable {N : Nonterminals} {ε : Type} {Γ : List Type} [Describe ε]

/-- One token equal to `expected`. -/
def token [DecidableEq ε] (expected : ε) : Rule N ε Γ ε :=
  nextAs fun found =>
    if found = expected then .ok found
    else .error ("expected " ++ Describe.describe expected ++ ", got " ++
      Describe.describe found)

/-- One token for which the predicate holds. `description` names it in
messages. -/
def tokenWhere (description : String) (holds : ε → Bool) : Rule N ε Γ ε :=
  nextAs fun found =>
    if holds found then .ok found
    else .error ("expected " ++ description ++ ", got " ++
      Describe.describe found)

end Rulebook.Rule
