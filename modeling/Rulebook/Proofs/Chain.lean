/-
# What chains come to

Every step of a chain goes on where the step before it stopped. The first step
to reject decides the whole, and no later one is applied.
-/

import Rulebook.Proofs.Yields
import Rulebook.Rule.Chain

namespace Rulebook

variable {N : Nonterminals} {ε : Type} {Γ types : List Type} {α β γ : Type}
  {setting : Setting N ε Γ} {position : Nat}

namespace Chain

variable {chain : Chain N ε Γ types} {rule : Rule N ε Γ α}

theorem yields_empty_iff {outcome : Outcome (Tuple [])} :
    (empty : Chain N ε Γ []).rule.Yields setting position outcome ↔
      outcome = .accepted .empty position :=
  Rule.yields_accept_iff

/-- A step that is skipped leaves the values as they were. -/
theorem yields_skip_accepted_iff {values : Tuple types} {stop : Nat} :
    (chain.skip rule).rule.Yields setting position (.accepted values stop) ↔
      ∃ middle value, chain.rule.Yields setting position (.accepted values middle) ∧
        rule.Yields setting middle (.accepted value stop) := by
  rw [skip, Rule.yields_thenWith_accepted_iff]
  refine ⟨?_, fun ⟨middle, value, before, last⟩ => ⟨values, middle, value, before, last, rfl⟩⟩
  intro holds
  rcases holds with ⟨kept, middle, value, before, last, rfl⟩
  exact ⟨middle, value, before, last⟩

theorem yields_skip_rejected_iff {failures : Failures} :
    (chain.skip rule).rule.Yields setting position (.rejected failures) ↔
      chain.rule.Yields setting position (.rejected failures) ∨
      ∃ values middle, chain.rule.Yields setting position (.accepted values middle) ∧
        rule.Yields setting middle (.rejected failures) :=
  Rule.yields_thenWith_rejected_iff

/-- A step that is pushed adds its value after those kept before. -/
theorem yields_push_accepted_iff {values : Tuple (types ++ [α])} {stop : Nat} :
    (chain.push rule).rule.Yields setting position (.accepted values stop) ↔
      ∃ kept middle value, chain.rule.Yields setting position (.accepted kept middle) ∧
        rule.Yields setting middle (.accepted value stop) ∧ values = kept.append value :=
  Rule.yields_thenWith_accepted_iff

theorem yields_push_rejected_iff {failures : Failures} :
    (chain.push rule).rule.Yields setting position (.rejected failures) ↔
      chain.rule.Yields setting position (.rejected failures) ∨
      ∃ values middle, chain.rule.Yields setting position (.accepted values middle) ∧
        rule.Yields setting middle (.rejected failures) :=
  Rule.yields_thenWith_rejected_iff

end Chain

namespace Rule

variable {opening : Rule N ε Γ α} {closing : Rule N ε Γ β} {rule : Rule N ε Γ γ}

/-- The values kept up to the enclosed rule are its own value alone. -/
theorem yields_opened_accepted_iff {values : Tuple [γ]} {reach : Nat} :
    ((Chain.empty.skip opening).push rule).rule.Yields setting position
        (.accepted values reach) ↔
      ∃ opened start, opening.Yields setting position (.accepted opened start) ∧
        rule.Yields setting start (.accepted values.first reach) := by
  rw [Chain.yields_push_accepted_iff]
  refine ⟨fun holds => ?_, fun holds => ?_⟩
  · rcases holds with ⟨kept, start, value, opens, accepts, rfl⟩
    obtain ⟨_, opened, fresh, opens⟩ := Chain.yields_skip_accepted_iff.mp opens
    cases Chain.yields_empty_iff.mp fresh
    exact ⟨opened, start, opens, accepts⟩
  · rcases holds with ⟨opened, start, opens, accepts⟩
    have opens' := Chain.yields_skip_accepted_iff.mpr
      ⟨position, opened, Chain.yields_empty_iff.mpr rfl, opens⟩
    exact ⟨.empty, start, values.first, opens', accepts, rfl⟩

theorem yields_opened_rejected_iff {failures : Failures} :
    ((Chain.empty.skip opening).push rule).rule.Yields setting position
        (.rejected failures) ↔
      opening.Yields setting position (.rejected failures) ∨
      ∃ opened start, opening.Yields setting position (.accepted opened start) ∧
        rule.Yields setting start (.rejected failures) := by
  rw [Chain.yields_push_rejected_iff, Chain.yields_skip_rejected_iff]
  refine ⟨fun holds => ?_, fun holds => ?_⟩
  · rcases holds with (fresh | ⟨_, start, fresh, rejects⟩) | ⟨values, start, opens, rejects⟩
    · cases Chain.yields_empty_iff.mp fresh
    · cases Chain.yields_empty_iff.mp fresh
      exact .inl rejects
    · obtain ⟨_, opened, fresh, opens⟩ := Chain.yields_skip_accepted_iff.mp opens
      cases Chain.yields_empty_iff.mp fresh
      exact .inr ⟨opened, start, opens, rejects⟩
  · rcases holds with rejects | ⟨opened, start, opens, rejects⟩
    · exact .inl (.inr ⟨.empty, position, Chain.yields_empty_iff.mpr rfl, rejects⟩)
    · have opens' := Chain.yields_skip_accepted_iff.mpr
        ⟨position, opened, Chain.yields_empty_iff.mpr rfl, opens⟩
      exact .inr ⟨.empty, start, opens', rejects⟩

/-- An enclosed rule accepts between its neighbours. -/
theorem yields_enclose_accepted_iff {value : γ} {stop : Nat} :
    (enclose opening closing rule).Yields setting position (.accepted value stop) ↔
      ∃ opened start reach closed,
        opening.Yields setting position (.accepted opened start) ∧
          rule.Yields setting start (.accepted value reach) ∧
          closing.Yields setting reach (.accepted closed stop) := by
  rw [enclose, first, Chain.done, yields_map_accepted_iff]
  refine ⟨fun holds => ?_, fun holds => ?_⟩
  · rcases holds with ⟨values, accepts, rfl⟩
    obtain ⟨reach, closed, accepts, closes⟩ := Chain.yields_skip_accepted_iff.mp accepts
    obtain ⟨opened, start, opens, accepts⟩ := yields_opened_accepted_iff.mp accepts
    exact ⟨opened, start, reach, closed, opens, accepts, closes⟩
  · rcases holds with ⟨opened, start, reach, closed, opens, accepts, closes⟩
    refine ⟨Tuple.empty.append value, ?_, rfl⟩
    refine Chain.yields_skip_accepted_iff.mpr ⟨reach, closed, ?_, closes⟩
    exact yields_opened_accepted_iff.mpr ⟨opened, start, opens, accepts⟩

/-- The first of the three to reject decides. -/
theorem yields_enclose_rejected_iff {failures : Failures} :
    (enclose opening closing rule).Yields setting position (.rejected failures) ↔
      opening.Yields setting position (.rejected failures) ∨
      ∃ opened start, opening.Yields setting position (.accepted opened start) ∧
        (rule.Yields setting start (.rejected failures) ∨
          ∃ value reach, rule.Yields setting start (.accepted value reach) ∧
            closing.Yields setting reach (.rejected failures)) := by
  rw [enclose, first, Chain.done, yields_map_rejected_iff, Chain.yields_skip_rejected_iff]
  rw [yields_opened_rejected_iff]
  refine ⟨fun holds => ?_, fun holds => ?_⟩
  · rcases holds with (rejects | ⟨opened, start, opens, rejects⟩) |
      ⟨values, reach, accepts, rejects⟩
    · exact .inl rejects
    · exact .inr ⟨opened, start, opens, .inl rejects⟩
    · obtain ⟨opened, start, opens, accepts⟩ := yields_opened_accepted_iff.mp accepts
      exact .inr ⟨opened, start, opens, .inr ⟨values.first, reach, accepts, rejects⟩⟩
  · rcases holds with rejects | ⟨opened, start, opens, rejects | ⟨value, reach, accepts, rejects⟩⟩
    · exact .inl (.inl rejects)
    · exact .inl (.inr ⟨opened, start, opens, rejects⟩)
    · refine .inr ⟨Tuple.empty.append value, reach, ?_, rejects⟩
      exact yields_opened_accepted_iff.mpr ⟨opened, start, opens, accepts⟩

/-- Enclosed rules that come to the same come to the same between the same neighbours. -/
theorem Equivalent.enclose {rule rule' : Rule N ε Γ γ} (same : rule.Equivalent rule')
    (opening : Rule N ε Γ α) (closing : Rule N ε Γ β) :
    (enclose opening closing rule).Equivalent (enclose opening closing rule') := by
  intro setting position outcome
  cases outcome with
  | accepted value stop => simp only [yields_enclose_accepted_iff, same setting _ _]
  | rejected failures => simp only [yields_enclose_rejected_iff, same setting _ _]

end Rule

end Rulebook
