/-
# Rules that read one element

A rule that reads one element terminates at every position. It accepts where there is an
element that can be turned into a value, and a token is read exactly where it stands.
-/

import Rulebook.Proofs.Chain
import Rulebook.Proofs.Guarded
import Rulebook.Rule.Token

namespace Rulebook

variable {N : Nonterminals} {ε : Type} {Γ : List Type} {α : Type}

namespace Rule

variable {setting : Setting N ε Γ} {rule : Rule N ε Γ α} {position : Nat}

/-- The rule comes to a rejection. -/
def Rejects (setting : Setting N ε Γ) (rule : Rule N ε Γ α) (position : Nat) : Prop :=
  ∃ failures, rule.Yields setting position (.rejected failures)

/-- A rule that terminates rejects what it does not accept. -/
theorem Terminates.rejects_iff (terminates : rule.Terminates setting position) :
    rule.Rejects setting position ↔
      ∀ value stop, ¬ rule.Yields setting position (.accepted value stop) := by
  refine ⟨fun rejects value stop accepts => ?_, fun none => ?_⟩
  · obtain ⟨failures, rejects⟩ := rejects
    cases rejects.unique accepts
  · obtain ⟨⟨value, stop⟩ | failures, yields⟩ := terminates
    · exact absurd yields (none value stop)
    · exact ⟨failures, yields⟩

/-- A rule rejects where it terminates without an acceptance. -/
theorem rejects_iff_terminates :
    rule.Rejects setting position ↔
      rule.Terminates setting position ∧
        ∀ value stop, ¬ rule.Yields setting position (.accepted value stop) := by
  refine ⟨fun rejects => ?_, fun holds => holds.1.rejects_iff.mpr holds.2⟩
  obtain ⟨failures, yields⟩ := rejects
  have terminates : rule.Terminates setting position := ⟨_, yields⟩
  exact ⟨terminates, terminates.rejects_iff.mp ⟨failures, yields⟩⟩

/-- An element is read if there is one that can be turned into a value. -/
theorem yields_nextAs_accepted_iff (fits : setting.size ≤ lastPosition)
    {read : ε → Except String α} {value : α} {stop : Nat} :
    (nextAs read).Yields setting position (.accepted value stop) ↔
      ∃ element, setting.input.source[position]? = some element ∧
        read element = .ok value ∧ stop = position + 1 := by
  rw [nextAs, yields_leaf_iff]
  simp only [Leaf.apply]
  cases found : setting.input.source[position]? with
  | none => simp [Outcome.reject]
  | some element =>
      obtain ⟨inside, -⟩ := Array.getElem?_eq_some_iff.mp found
      have next : position + 1 ≤ lastPosition := Nat.le_trans inside fits
      simp only [Option.some.injEq, exists_eq_left']
      cases read element with
      | error message => simp [Outcome.reject]
      | ok result =>
          rw [advance_eq_ok next]
          simp [Except.map, eq_comm]

theorem nextAs_terminates (fits : setting.size ≤ lastPosition)
    (read : ε → Except String α) :
    (nextAs read : Rule N ε Γ α).Terminates setting position := by
  obtain ⟨outcome, applied⟩ := Leaf.exists_apply fits (.next read) setting.context position
  exact ⟨outcome, yields_leaf_iff.mpr applied⟩

section Token

variable [Describe ε] [DecidableEq ε] {expected : ε}

/-- A token is read where it stands. -/
theorem yields_token_accepted_iff (fits : setting.size ≤ lastPosition) {found : ε}
    {stop : Nat} :
    (token expected).Yields setting position (.accepted found stop) ↔
      setting.input.source[position]? = some expected ∧ found = expected ∧
        stop = position + 1 := by
  rw [token, yields_nextAs_accepted_iff fits]
  refine ⟨fun holds => ?_, fun holds => ?_⟩
  · obtain ⟨element, present, judged, reaches⟩ := holds
    split at judged <;> cases judged
    next same => exact ⟨same ▸ present, same, reaches⟩
  · obtain ⟨present, rfl, reaches⟩ := holds
    exact ⟨found, present, if_pos rfl, reaches⟩

/-- Where another token or none stands, it is rejected. -/
theorem token_rejects (fits : setting.size ≤ lastPosition)
    (absent : setting.input.source[position]? ≠ some expected) :
    (token expected : Rule N ε Γ ε).Rejects setting position := by
  refine (nextAs_terminates fits _).rejects_iff.mpr fun found stop accepts => ?_
  exact absent ((yields_token_accepted_iff fits).mp accepts).1

end Token

/-- A sequence rejects where its first rule does. -/
theorem Rejects.enclose {β γ : Type} {opening : Rule N ε Γ β} {closing : Rule N ε Γ γ}
    (rejects : opening.Rejects setting position) :
    (enclose opening closing rule).Rejects setting position := by
  obtain ⟨failures, rejects⟩ := rejects
  exact ⟨failures, yields_enclose_rejected_iff.mpr (.inl rejects)⟩

theorem Rejects.map {β : Type} {f : α → β} (rejects : rule.Rejects setting position) :
    (rule.map f).Rejects setting position := by
  obtain ⟨failures, rejects⟩ := rejects
  exact ⟨failures, yields_map_rejected_iff.mpr rejects⟩

end Rule

end Rulebook
