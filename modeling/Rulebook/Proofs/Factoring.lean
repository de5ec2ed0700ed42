/-
# Common prefixes of alternatives

Alternatives that begin with the same rule can share it: the rule is matched once, and the
alternatives are tried behind it. The same alternative wins, and the same failures are
reported, except that a rejected prefix is reported once and not once for every
alternative. The filtered failures do not show that difference.
-/

import Rulebook.Proofs.Alternation
import Rulebook.Proofs.Deepest

namespace Rulebook

/-- What is better before the values are changed is better after. -/
theorem Outcome.map_best {α β : Type} (f : α → β) (kept candidate : Outcome α) :
    (kept.best candidate).map f = (kept.map f).best (candidate.map f) := by
  cases kept with
  | rejected failures => cases candidate <;> rfl
  | accepted value stop =>
      cases candidate with
      | rejected more => rfl
      | accepted found reach => by_cases shorter : reach ≤ stop <;> simp [best, shorter]

namespace Rule

variable {N : Nonterminals} {ε : Type} {Γ : List Type} {α β γ : Type}
  {setting : Setting N ε Γ} {position middle : Nat} {value : α}
  {rule : Rule N ε Γ α} {combine : α → β → γ} {own : Failures}

/-- Behind a rule that accepts, a sequence comes to what its second rule comes to. -/
theorem yields_thenWith_iff_of_accepts {next : Rule N ε Γ β} {outcome : Outcome γ}
    (accepts : rule.Yields setting position (.accepted value middle)) :
    (rule.thenWith combine next).Yields setting position outcome ↔
      ∃ found, next.Yields setting middle found ∧ outcome = found.map (combine value) := by
  rw [yields_thenWith_iff]
  refine ⟨fun holds => ?_, fun ⟨found, yields, same⟩ =>
    .inl ⟨value, middle, found, accepts, yields, same⟩⟩
  rcases holds with ⟨value', middle', found, accepts', yields, same⟩ | ⟨failures, rejects, _⟩
  · cases accepts.unique accepts'
    exact ⟨found, yields, same⟩
  · cases accepts.unique rejects

/-- A sequence is rejected as its first rule is. -/
theorem yields_thenWith_iff_of_rejects {next : Rule N ε Γ β} {outcome : Outcome γ}
    (rejects : rule.Yields setting position (.rejected own)) :
    (rule.thenWith combine next).Yields setting position outcome ↔
      outcome = .rejected own := by
  rw [yields_thenWith_iff]
  refine ⟨fun holds => ?_, fun same => .inr ⟨own, rejects, same⟩⟩
  rcases holds with ⟨value, middle, found, accepts, _⟩ | ⟨failures, rejects', same⟩
  · cases accepts.unique rejects
  · cases rejects.unique rejects'
    exact same

/-- Behind a prefix that accepts, the alternation of the sequences comes to what the
alternation of their ends comes to. -/
theorem yields_fork_thenWith_iff (accepts : rule.Yields setting position (.accepted value middle))
    {first : Rule N ε Γ β} {others : List (Rule N ε Γ β)} {outcome : Outcome γ} :
    (fork (rule.thenWith combine first) (others.map (.thenWith combine rule))).Yields setting
        position outcome ↔
      ∃ found, (fork first others).Yields setting middle found ∧
        outcome = found.map (combine value) := by
  -- What the alternation so far is does not matter, only what it comes to.
  suffices goesOn : ∀ (sequence : Rule N ε Γ γ) (first : Rule N ε Γ β),
      (∀ outcome, sequence.Yields setting position outcome ↔
        ∃ found, first.Yields setting middle found ∧ outcome = found.map (combine value)) →
      ((fork sequence (others.map (.thenWith combine rule))).Yields setting position outcome ↔
        ∃ found, (fork first others).Yields setting middle found ∧
          outcome = found.map (combine value)) from
    goesOn _ first fun outcome => yields_thenWith_iff_of_accepts accepts
  induction others with
  | nil => exact fun sequence first alike => alike outcome
  | cons next others ih =>
      intro sequence first alike
      refine ih (sequence.orElse (rule.thenWith combine next)) (first.orElse next) fun outcome => ?_
      simp only [yields_orElse_iff, alike, yields_thenWith_iff_of_accepts accepts]
      refine ⟨fun holds => ?_, fun holds => ?_⟩
      · rcases holds with ⟨_, _, ⟨kept, yields, rfl⟩, ⟨candidate, yields', rfl⟩, rfl⟩
        exact ⟨_, ⟨kept, candidate, yields, yields', rfl⟩, (Outcome.map_best ..).symm⟩
      · rcases holds with ⟨_, ⟨kept, candidate, yields, yields', rfl⟩, rfl⟩
        exact ⟨_, _, ⟨kept, yields, rfl⟩, ⟨candidate, yields', rfl⟩, Outcome.map_best ..⟩

/-- Every alternative behind a rejected prefix adds the failures of the prefix. -/
theorem yields_fork_of_rejects (rejects : rule.Yields setting position (.rejected own))
    {sequence : Rule N ε Γ γ} {failures : Failures}
    (rejected : sequence.Yields setting position (.rejected failures))
    (others : List (Rule N ε Γ β)) :
    ∃ all : Failures,
      (fork sequence (others.map (.thenWith combine rule))).Yields setting position
        (.rejected all) ∧
      all.toList = failures.toList ++ (List.replicate others.length own.toList).flatten := by
  induction others generalizing sequence failures with
  | nil => exact ⟨failures, rejected, by simp⟩
  | cons next others ih =>
      have rejectedNext : (rule.thenWith combine next).Yields setting position (.rejected own) :=
        (yields_thenWith_iff_of_rejects rejects).mpr rfl
      have both : (sequence.orElse (rule.thenWith combine next)).Yields setting position
          (.rejected (failures ++ own)) :=
        yields_orElse_iff.mpr ⟨_, _, rejected, rejectedNext, rfl⟩
      obtain ⟨all, yields, listed⟩ := ih both
      refine ⟨all, yields, ?_⟩
      rw [listed, Failures.toList_append, List.length_cons, List.replicate_succ,
        List.flatten_cons, List.append_assoc]

/-- A sequence has no outcome where its first rule has none. -/
theorem terminates_of_thenWith {next : Rule N ε Γ β} {outcome : Outcome γ}
    (yields : (rule.thenWith combine next).Yields setting position outcome) :
    ∃ found, rule.Yields setting position found := by
  rcases yields_thenWith_iff.mp yields with ⟨_, _, _, accepts, _⟩ | ⟨_, rejects, _⟩
  · exact ⟨_, accepts⟩
  · exact ⟨_, rejects⟩

theorem terminates_of_fork_thenWith {first : Rule N ε Γ β} {others : List (Rule N ε Γ γ)}
    {outcome : Outcome γ}
    (yields : (fork (rule.thenWith combine first) others).Yields setting position outcome) :
    ∃ found, rule.Yields setting position found := by
  obtain ⟨_, _, ⟨⟩ | ⟨yieldsFirst, _⟩, _⟩ := yields_fork_iff.mp yields
  exact terminates_of_thenWith yieldsFirst

/-- To match a common prefix once is to match it in every alternative: the same value is
accepted up to the same position, and the filtered failures are the same. If the prefix
accepts, all failures are the same, and otherwise its failures are repeated for every
alternative. -/
theorem fork_shares_prefix (rule : Rule N ε Γ α) (combine : α → β → γ)
    {alternatives : List (Rule N ε Γ β)} (inhabited : alternatives ≠ []) :
    ∃ spelled chosen, fork? (alternatives.map (.thenWith combine rule)) = .ok spelled ∧
      fork? alternatives = .ok chosen ∧
      ∀ (setting : Setting N ε Γ) (position : Nat),
        (∀ value stop, spelled.Yields setting position (.accepted value stop) ↔
          (rule.thenWith combine chosen).Yields setting position (.accepted value stop)) ∧
        ((∃ failures, spelled.Yields setting position (.rejected failures)) ↔
          ∃ failures, (rule.thenWith combine chosen).Yields setting position
            (.rejected failures)) ∧
        ∀ failures failures', spelled.Yields setting position (.rejected failures) →
          (rule.thenWith combine chosen).Yields setting position (.rejected failures') →
          failures.filtered = failures'.filtered ∧
          ((∃ value stop, rule.Yields setting position (.accepted value stop)) →
            failures = failures') ∧
          ((∃ own, rule.Yields setting position (.rejected own)) →
            failures.toList =
              (List.replicate alternatives.length failures'.toList).flatten) := by
  obtain ⟨first, others, rfl⟩ := List.exists_cons_of_ne_nil inhabited
  refine ⟨_, _, rfl, rfl, fun setting position => ?_⟩
  by_cases terminates : ∃ found, rule.Yields setting position found
  · obtain ⟨⟨value, middle⟩ | own, yields⟩ := terminates
    · -- Behind the prefix everything is the same.
      have same (outcome : Outcome γ) :
          (fork (rule.thenWith combine first) (others.map (.thenWith combine rule))).Yields
              setting position outcome ↔
            (rule.thenWith combine (fork first others)).Yields setting position outcome :=
        (yields_fork_thenWith_iff yields).trans (yields_thenWith_iff_of_accepts yields).symm
      refine ⟨fun value stop => same _, exists_congr fun failures => same _,
        fun failures failures' rejects rejects' => ?_⟩
      cases ((same _).mp rejects).unique rejects'
      exact ⟨rfl, fun _ => rfl, fun ⟨own, rejected⟩ => nomatch yields.unique rejected⟩
    · -- The failures of the prefix are all there is.
      have each (next : Rule N ε Γ β) :
          (rule.thenWith combine next).Yields setting position (.rejected own) :=
        (yields_thenWith_iff_of_rejects yields).mpr rfl
      obtain ⟨all, rejectsAll, listed⟩ := yields_fork_of_rejects yields (each first) others
      refine ⟨fun value stop => ⟨fun accepts => (nomatch rejectsAll.unique accepts),
        fun accepts => (nomatch (each _).unique accepts)⟩,
        ⟨fun _ => ⟨own, each _⟩, fun _ => ⟨all, rejectsAll⟩⟩,
        fun failures failures' rejects rejects' => ?_⟩
      cases rejectsAll.unique rejects
      cases (each _).unique rejects'
      refine ⟨?_, fun ⟨value, stop, accepts⟩ => (nomatch yields.unique accepts),
        fun _ => ?_⟩
      · refine Failures.filtered_of_repeated listed fun failure occurs => ?_
        obtain ⟨copy, isCopy, occurs⟩ := List.mem_flatten.mp occurs
        exact List.eq_of_mem_replicate isCopy ▸ occurs
      · rw [listed, List.length_cons, List.replicate_succ, List.flatten_cons]
  · -- Without the prefix neither of the two has an outcome.
    refine ⟨fun value stop => ⟨fun yields => ?_, fun yields => ?_⟩,
      ⟨fun ⟨_, yields⟩ => ?_, fun ⟨_, yields⟩ => ?_⟩, fun _ _ yields _ => ?_⟩
    · exact absurd (terminates_of_fork_thenWith yields) terminates
    · exact absurd (terminates_of_thenWith yields) terminates
    · exact absurd (terminates_of_fork_thenWith yields) terminates
    · exact absurd (terminates_of_thenWith yields) terminates
    · exact absurd (terminates_of_fork_thenWith yields) terminates

/-- One digit and then another of two. At the second position the first digit is missing,
which is reported twice if it is spelled twice. -/
theorem digitPair_shares_prefix :
    let setting : Setting .none Int [] := ⟨⟨#[1, 3], .empty, .off⟩, .nil, ∅⟩
    let ends : List (Rule .none Int [] Int) := [nextIf (· = 2), nextIf (· = 3)]
    let combine := fun ten one : Int => 10 * ten + one
    ends ≠ [] ∧
      ∃ spelled chosen, fork? (ends.map (.thenWith combine (nextIf (· = 1)))) = .ok spelled ∧
        fork? ends = .ok chosen ∧ spelled.Yields setting 0 (.accepted 13 2) ∧
        ∃ failures failures', spelled.Yields setting 1 (.rejected failures) ∧
          (thenWith combine (nextIf (· = 1)) chosen).Yields setting 1 (.rejected failures') ∧
          failures.length = 2 ∧ failures'.length = 1 ∧
          failures.filtered = failures'.filtered := by
  intro setting ends combine
  have inhabited : ends ≠ [] := by simp [ends]
  obtain ⟨spelled, chosen, built, built', same⟩ :=
    fork_shares_prefix (nextIf (· = 1)) combine inhabited
  cases built
  cases built'
  refine ⟨inhabited, _, _, rfl, rfl, ?_, ?_⟩
  · exact ((same setting 0).1 13 2).mpr (yields_iff_apply.mpr ⟨0, _, rfl⟩)
  · obtain ⟨failures, spelledOut, twice⟩ : ∃ failures, (fork
        (thenWith combine (nextIf (· = 1)) (nextIf (· = 2)))
        [thenWith combine (nextIf (· = 1)) (nextIf (· = 3))]).Yields setting 1
          (.rejected failures) ∧ failures.length = 2 :=
      ⟨_, yields_iff_apply.mpr ⟨0, _, rfl⟩, rfl⟩
    obtain ⟨failures', shared, once⟩ : ∃ failures', (thenWith combine (nextIf (· = 1))
        (fork (nextIf (· = 2)) [nextIf (· = 3)])).Yields setting 1 (.rejected failures') ∧
          failures'.length = 1 :=
      ⟨_, yields_iff_apply.mpr ⟨0, _, rfl⟩, rfl⟩
    exact ⟨failures, failures', spelledOut, shared, twice, once,
      ((same setting 1).2.2 failures failures' spelledOut shared).1⟩

end Rule

end Rulebook
