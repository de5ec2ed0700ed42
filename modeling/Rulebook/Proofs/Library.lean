/-
# The rules of the library stay in a fragment

A fragment that allows the leaves of the library contains the repetitions and
the enclosed rules that the library builds from rules of the fragment. What the
library adds on its own is never a leaf written by hand, a report or a span.
-/

import Rulebook.Proofs.Fragment
import Rulebook.Rule.Chain
import Rulebook.Rule.Repetition

namespace Rulebook

/-- All leaves of the library are allowed. -/
def Fragment.Lenient {ε : Type} (fragment : Fragment ε) : Prop :=
  ∀ {α : Type} (part : Leaf ε α), part.Standard → fragment.leaf part

theorem Fragment.lenient_standard {ε : Type} : (standard : Fragment ε).Lenient :=
  fun _ standard => standard

theorem Fragment.lenient_untraced {ε : Type} : (untraced : Fragment ε).Lenient :=
  fun _ standard => standard

/-- The grammar without deferred rules is in every fragment. -/
theorem Grammar.within_empty {ε : Type} (fragment : Fragment ε) :
    (Grammar.empty : Grammar .none ε).Within fragment :=
  fun name => nomatch name

variable {N : Nonterminals} {ε : Type} {Γ : List Type} {α β γ : Type}
  {fragment : Fragment ε}

namespace Rule

/-- A repetition is in the fragment if its item and its separator are. -/
theorem within_foldMany (lenient : fragment.Lenient)
    {repetition : Repetition N ε Γ} {rule : Rule N ε Γ α} (init : β)
    (fold : β → α → β)
    (separatorWithin : ∀ separator ∈ repetition.separator, separator.Within fragment)
    (within : rule.Within fragment) :
    (rule.foldMany repetition init fold).Within fragment := by
  refine ⟨?_, within⟩
  cases separated : repetition.separator with
  | none => exact lenient _ trivial
  | some separator => exact separatorWithin separator separated

/-- Enclosing a rule adds only its two neighbours. -/
theorem within_enclose (lenient : fragment.Lenient) {opening : Rule N ε Γ α}
    {closing : Rule N ε Γ β} {rule : Rule N ε Γ γ}
    (openingWithin : opening.Within fragment) (closingWithin : closing.Within fragment)
    (within : rule.Within fragment) :
    (enclose opening closing rule).Within fragment :=
  ⟨⟨⟨lenient _ trivial, openingWithin⟩, within⟩, closingWithin⟩

end Rule

end Rulebook
