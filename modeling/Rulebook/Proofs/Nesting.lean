/-
# Regrouped and reordered alternatives

Alternations may be nested in each other, with labels between them. Such a nesting comes to
what the flat alternation of its alternatives comes to, each below the labels around it: the
choice between two outcomes is associative, and a label can be put on the chosen outcome or
on both before.

The choice is not commutative, because the earliest of several alternatives wins that reach
as far. In another order the alternatives still have the same furthest position, and unless
two of them reach it also the same value. If all are rejected, they have the same failures
in another order.
-/

import Mathlib.Data.List.Pairwise
import Mathlib.Data.List.Perm.Basic
import Rulebook.Proofs.Alternation
import Rulebook.Proofs.Deepest

namespace Rulebook

namespace Outcome

variable {α : Type} {value : α} {stop : Nat}

/-- It does not matter which two of three outcomes are compared first. -/
theorem best_assoc (first second third : Outcome α) :
    (first.best second).best third = first.best (second.best third) := by
  cases first with
  | rejected failures =>
      cases second with
      | rejected more => cases third <;> simp [best, Failures.append_assoc]
      | accepted value stop =>
          cases third with
          | rejected most => rfl
          | accepted last further => simp only [best]; split <;> rfl
  | accepted value stop =>
      cases second with
      | rejected more => cases third <;> simp only [best]
      | accepted found reach =>
          cases third with
          | rejected most => by_cases shorter : reach ≤ stop <;> simp [best, shorter]
          | accepted last further => grind [best]

/-- A label can be put on the better outcome, or on both before. -/
theorem withPath_best (label : String) (kept candidate : Outcome α) :
    (kept.best candidate).withPath label =
      (kept.withPath label).best (candidate.withPath label) := by
  cases kept with
  | rejected failures =>
      cases candidate with
      | rejected more => simp [best, withPath, Failures.withPath_append]
      | accepted found reach => rfl
  | accepted value stop =>
      cases candidate with
      | rejected more => rfl
      | accepted found reach =>
          by_cases shorter : reach ≤ stop <;> simp [best, withPath, shorter]

end Outcome

variable {N : Nonterminals} {ε : Type} {Γ : List Type} {α : Type}

namespace Rule

variable {rule other first : Rule N ε Γ α} {rules others : List (Rule N ε Γ α)}

theorem orElse_assoc (first second third : Rule N ε Γ α) :
    ((first.orElse second).orElse third).Equivalent
      (first.orElse (second.orElse third)) := by
  intro setting position outcome
  simp only [yields_orElse_iff]
  refine ⟨fun holds => ?_, fun holds => ?_⟩
  · rcases holds with ⟨_, last, ⟨kept, candidate, yields, yields', rfl⟩, yields'', rfl⟩
    exact ⟨kept, _, yields, ⟨candidate, last, yields', yields'', rfl⟩,
      Outcome.best_assoc ..⟩
  · rcases holds with ⟨kept, _, yields, ⟨candidate, last, yields', yields'', rfl⟩, rfl⟩
    exact ⟨_, last, ⟨kept, candidate, yields, yields', rfl⟩, yields'',
      (Outcome.best_assoc ..).symm⟩

theorem path_orElse (label : String) (rule other : Rule N ε Γ α) :
    ((rule.orElse other).path label).Equivalent
      ((rule.path label).orElse (other.path label)) := by
  intro setting position outcome
  simp only [yields_orElse_iff, yields_path_iff]
  refine ⟨fun holds => ?_, fun holds => ?_⟩
  · rcases holds with ⟨_, ⟨kept, candidate, yields, yields', rfl⟩, rfl⟩
    exact ⟨_, _, ⟨kept, yields, rfl⟩, ⟨candidate, yields', rfl⟩, Outcome.withPath_best ..⟩
  · rcases holds with ⟨_, _, ⟨kept, yields, rfl⟩, ⟨candidate, yields', rfl⟩, rfl⟩
    exact ⟨_, ⟨kept, candidate, yields, yields', rfl⟩, (Outcome.withPath_best ..).symm⟩

theorem fork_congr (same : rule.Equivalent other) (others : List (Rule N ε Γ α)) :
    (fork rule others).Equivalent (fork other others) := by
  induction others generalizing rule other with
  | nil => exact same
  | cons next others ih => exact ih (same.orElse (.refl next))

/-- An alternation behind another alternative only goes on with its alternatives. -/
theorem orElse_fork (rule first : Rule N ε Γ α) (others : List (Rule N ε Γ α)) :
    (rule.orElse (fork first others)).Equivalent (fork (rule.orElse first) others) := by
  induction others generalizing first with
  | nil => exact .refl _
  | cons next others ih =>
      exact (ih (first.orElse next)).trans (fork_congr (orElse_assoc rule first next).symm _)

theorem path_fork (label : String) (first : Rule N ε Γ α) (others : List (Rule N ε Γ α)) :
    ((fork first others).path label).Equivalent
      (fork (first.path label) (others.map (.path label))) := by
  induction others generalizing first with
  | nil => exact .refl _
  | cons next others ih =>
      exact (ih (first.orElse next)).trans (fork_congr (path_orElse label first next) _)

/-- The rule comes to what the alternation of the rules comes to, of which there is at
least one. -/
def IsForkOf (rule : Rule N ε Γ α) (rules : List (Rule N ε Γ α)) : Prop :=
  ∃ flat, fork? rules = .ok flat ∧ rule.Equivalent flat

theorem isForkOf_cons_iff : rule.IsForkOf (first :: others) ↔
    rule.Equivalent (fork first others) := by
  simp [IsForkOf, fork?]

theorem IsForkOf.exists_cons (forks : rule.IsForkOf rules) :
    ∃ first others, rules = first :: others ∧ rule.Equivalent (fork first others) := by
  obtain ⟨flat, built, same⟩ := forks
  cases rules with
  | nil => cases built
  | cons first others =>
      cases built
      exact ⟨first, others, rfl, same⟩

theorem IsForkOf.orElse {rules' : List (Rule N ε Γ α)} (forks : rule.IsForkOf rules)
    (forks' : other.IsForkOf rules') : (rule.orElse other).IsForkOf (rules ++ rules') := by
  obtain ⟨first, others, rfl, same⟩ := forks.exists_cons
  obtain ⟨first', others', rfl, same'⟩ := forks'.exists_cons
  have joined : fork ((fork first others).orElse first') others' =
      fork first (others ++ first' :: others') := by
    simp only [fork, List.foldl_append, List.foldl_cons]
  rw [List.cons_append, isForkOf_cons_iff, ← joined]
  exact (same.orElse same').trans (orElse_fork _ _ _)

/-- An alternation of alternations has the alternatives of all. -/
theorem IsForkOf.fork {κ : Type*} {items : List κ} {part : κ → Rule N ε Γ α}
    {rulesOf : κ → List (Rule N ε Γ α)} (forks : rule.IsForkOf rules)
    (parts : ∀ item ∈ items, (part item).IsForkOf (rulesOf item)) :
    (Rule.fork rule (items.map part)).IsForkOf (rules ++ items.flatMap rulesOf) := by
  induction items generalizing rule rules with
  | nil =>
      rw [List.flatMap_nil, List.append_nil]
      exact forks
  | cons item items ih =>
      rw [List.forall_mem_cons] at parts
      rw [List.flatMap_cons, ← List.append_assoc]
      exact ih (forks.orElse parts.1) parts.2

theorem IsForkOf.path (forks : rule.IsForkOf rules) (label : String) :
    (rule.path label).IsForkOf (rules.map (.path label)) := by
  obtain ⟨first, others, rfl, same⟩ := forks.exists_cons
  exact isForkOf_cons_iff.mpr ((same.path label).trans (path_fork label first others))

end Rule

/-- An alternative of a nesting, with the labels around it, outermost first. -/
structure Alternative (N : Nonterminals) (ε : Type) (Γ : List Type) (α : Type) :
    Type 1 where
  labels : List String
  rule : Rule N ε Γ α

/-- The alternative below its labels. -/
def Alternative.labelled (alternative : Alternative N ε Γ α) : Rule N ε Γ α :=
  alternative.labels.foldr .path alternative.rule

/-- Alternations nested in each other. -/
inductive Nesting (N : Nonterminals) (ε : Type) (Γ : List Type) (α : Type) : Type 1
  | alone (rule : Rule N ε Γ α)
  /-- A list of alternatives, which may be a single one. -/
  | fork (first : Nesting N ε Γ α) (others : List (Nesting N ε Γ α))
  /-- Two alternatives with the operator between them. -/
  | either (left right : Nesting N ε Γ α)
  | labelled (label : String) (inner : Nesting N ε Γ α)

namespace Nesting

/-- The rule that is nested in this way. -/
def rule : Nesting N ε Γ α → Rule N ε Γ α
  | .alone rule => rule
  | .fork first others => Rule.fork first.rule (others.map fun nesting => nesting.rule)
  | .either left right => left.rule <|> right.rule
  | .labelled label inner => inner.rule.path label

/-- The alternatives from left to right. -/
def alternatives : Nesting N ε Γ α → List (Alternative N ε Γ α)
  | .alone rule => [⟨[], rule⟩]
  | .fork first others =>
    first.alternatives ++ others.flatMap fun nesting => nesting.alternatives
  | .either left right => left.alternatives ++ right.alternatives
  | .labelled label inner =>
    inner.alternatives.map fun alternative =>
      { alternative with labels := label :: alternative.labels }

/-- The alternatives from left to right, each below the labels around it. Where there are
no labels, these are the rules that were nested. -/
def leaves (nesting : Nesting N ε Γ α) : List (Rule N ε Γ α) :=
  nesting.alternatives.map Alternative.labelled

/-- A nesting comes to what the flat alternation of its leaves comes to. -/
theorem isForkOf_leaves (nesting : Nesting N ε Γ α) : nesting.rule.IsForkOf nesting.leaves := by
  induction nesting using Nesting.rule.induct with
  | case1 rule =>
      rw [leaves, alternatives, Nesting.rule]
      exact Rule.isForkOf_cons_iff.mpr (.refl rule)
  | case2 first others ihFirst ihOthers =>
      rw [leaves, alternatives, Nesting.rule, List.map_append, List.map_flatMap]
      exact ihFirst.fork ihOthers
  | case3 left right ihLeft ihRight =>
      rw [leaves, alternatives, Nesting.rule, List.map_append]
      exact ihLeft.orElse ihRight
  | case4 label inner ih =>
      rw [leaves, alternatives, Nesting.rule, List.map_map]
      have below : Alternative.labelled ∘ (fun alternative : Alternative N ε Γ α =>
          { alternative with labels := label :: alternative.labels }) =
          Rule.path label ∘ Alternative.labelled := rfl
      rw [below, ← List.map_map]
      exact ih.path label

end Nesting

/-! ## Alternatives in another order -/

namespace Outcome

variable {value : α} {stop : Nat} {outcomes : List (Outcome α)}

/-- What wins is one of the outcomes, and no other acceptance goes behind it. -/
theorem Wins.furthest (wins : Wins outcomes value stop) :
    .accepted value stop ∈ outcomes ∧
      ∀ found reach, .accepted found reach ∈ outcomes → reach ≤ stop := by
  obtain ⟨before, chosen, later, rfl, rfl, shorter, noLonger⟩ := wins
  refine ⟨List.mem_append_right before List.mem_cons_self, fun found reach occurs => ?_⟩
  rcases List.mem_append.mp occurs with earlier | here
  · exact Nat.le_of_lt (shorter _ earlier found reach rfl)
  · rcases List.mem_cons.mp here with same | after
    · cases same
      exact Nat.le_refl _
    · exact noLonger _ after found reach rfl

/-- Where the best outcome stops is decided by which acceptances there are, in whatever
order. -/
theorem exists_foldl_best_eq_accepted_iff {first : Outcome α} {others : List (Outcome α)} :
    (∃ value, others.foldl best first = .accepted value stop) ↔
      (∃ value, .accepted value stop ∈ first :: others) ∧
        ∀ found reach, .accepted found reach ∈ first :: others → reach ≤ stop := by
  refine ⟨fun ⟨value, better⟩ => ?_, fun ⟨⟨value, occurs⟩, noLonger⟩ => ?_⟩
  · obtain ⟨occurs, noLonger⟩ := (foldl_best_eq_accepted_iff.mp better).furthest
    exact ⟨⟨value, occurs⟩, noLonger⟩
  · have accepted : (others.foldl best first).isAccepted := by
      rw [isAccepted_foldl_best, List.any_eq_true]
      exact ⟨_, occurs, rfl⟩
    cases better : others.foldl best first with
    | rejected failures => simp [better] at accepted
    | accepted found reach =>
        obtain ⟨reached, furthest⟩ := (foldl_best_eq_accepted_iff.mp better).furthest
        have same : reach = stop :=
          Nat.le_antisymm (noLonger found reach reached) (furthest value stop occurs)
        exact ⟨found, by rw [same]⟩

end Outcome

namespace Rule

variable {setting : Setting N ε Γ} {position stop : Nat} {value value' : α}
  {first first' : Rule N ε Γ α} {others others' rules : List (Rule N ε Γ α)}

/-- No two of the rules accept up to the same position. -/
def ReachedOnce (setting : Setting N ε Γ) (position : Nat) (rules : List (Rule N ε Γ α))
    (stop : Nat) : Prop :=
  rules.Pairwise fun rule other => ∀ found found',
    rule.Yields setting position (.accepted found stop) →
      ¬ other.Yields setting position (.accepted found' stop)

/-- Where alternatives in another order come to an outcome, those in the first order come
to outcomes that are the same but for their order. -/
theorem exists_allYield_of_perm (permuted : (first' :: others').Perm (first :: others))
    {outcome : Outcome α} (yields : (fork first others).Yields setting position outcome) :
    ∃ kept candidates kept' candidates',
      outcome = candidates.foldl Outcome.best kept ∧
      (fork first' others').Yields setting position (candidates'.foldl Outcome.best kept') ∧
      (kept' :: candidates').Perm (kept :: candidates) := by
  obtain ⟨kept, candidates, yield, rfl⟩ := yields_fork_iff.mp yields
  obtain ⟨_, ⟨⟩ | ⟨yieldsFirst, rest⟩, reordered⟩ := List.perm_comp_forall₂ permuted yield
  exact ⟨kept, candidates, _, _, rfl,
    yields_fork_iff.mpr ⟨_, _, .cons yieldsFirst rest, rfl⟩, reordered⟩

/-- In another order alternatives stop at the same position. -/
theorem exists_accepts_of_perm (permuted : (first' :: others').Perm (first :: others))
    (accepts : (fork first others).Yields setting position (.accepted value stop)) :
    ∃ value', (fork first' others').Yields setting position (.accepted value' stop) := by
  obtain ⟨kept, candidates, kept', candidates', best, yields, reordered⟩ :=
    exists_allYield_of_perm permuted accepts
  have furthest := Outcome.exists_foldl_best_eq_accepted_iff.mp ⟨value, best.symm⟩
  simp only [← reordered.mem_iff] at furthest
  obtain ⟨value', best'⟩ := Outcome.exists_foldl_best_eq_accepted_iff.mpr furthest
  exact ⟨value', best' ▸ yields⟩

/-- In another order alternatives fail for the same reasons. -/
theorem exists_rejects_of_perm (permuted : (first' :: others').Perm (first :: others))
    {failures : Failures}
    (rejects : (fork first others).Yields setting position (.rejected failures)) :
    ∃ failures', (fork first' others').Yields setting position (.rejected failures') ∧
      failures'.toList.Perm failures.toList := by
  obtain ⟨kept, candidates, kept', candidates', best, yields, reordered⟩ :=
    exists_allYield_of_perm permuted rejects
  obtain ⟨rejected, listed⟩ := Outcome.foldl_best_eq_rejected_iff.mp best.symm
  simp only [← reordered.mem_iff] at rejected
  cases best' : candidates'.foldl Outcome.best kept' with
  | accepted found reach =>
      obtain ⟨occurs, _⟩ := (Outcome.foldl_best_eq_accepted_iff.mp best').furthest
      cases rejected _ occurs
  | rejected failures' =>
      have listed' := (Outcome.foldl_best_eq_rejected_iff.mp best').2
      refine ⟨failures', best' ▸ yields, ?_⟩
      rw [listed, listed']
      exact reordered.flatMap_right _

/-- A position that is reached once is reached with one value. -/
theorem ReachedOnce.value_eq (once : ReachedOnce setting position (first :: others) stop)
    (permuted : (first' :: others').Perm (first :: others))
    (accepts : (fork first others).Yields setting position (.accepted value stop))
    (accepts' : (fork first' others').Yields setting position (.accepted value' stop)) :
    value' = value := by
  obtain ⟨rule, occurs, yields⟩ := exists_accepts_of_fork accepts
  obtain ⟨rule', occurs', yields'⟩ := exists_accepts_of_fork accepts'
  rw [permuted.mem_iff] at occurs'
  by_cases same : rule = rule'
  · subst same
    cases yields.unique yields'
    rfl
  · have : Std.Symm fun rule other : Rule N ε Γ α => ∀ found found',
        rule.Yields setting position (.accepted found stop) →
          ¬ other.Yields setting position (.accepted found' stop) :=
      ⟨fun rule other apart found found' reaches reaches' =>
        apart found' found reaches' reaches⟩
    exact absurd yields' (List.Pairwise.forall once occurs occurs' same _ _ yields)

/-- Nested alternations come to what the flat alternation of their leaves comes to, value
and failures included. In any order alternatives accept up to the same position, with the
same value if only one of them reaches it, or they are rejected with the same failures in
another order, of which the same are the deepest. -/
theorem alternatives_regroup_and_reorder {alternatives : List (Rule N ε Γ α)}
    (inhabited : alternatives ≠ []) :
    ∃ flat, fork? alternatives = .ok flat ∧
      (∀ nesting : Nesting N ε Γ α, nesting.leaves = alternatives →
        nesting.rule.Equivalent flat) ∧
      ∀ permuted, permuted.Perm alternatives →
        ∃ reordered, fork? permuted = .ok reordered ∧
          ∀ (setting : Setting N ε Γ) (position : Nat),
            (∀ stop, (∃ value, reordered.Yields setting position (.accepted value stop)) ↔
              ∃ value, flat.Yields setting position (.accepted value stop)) ∧
            (∀ value stop, ReachedOnce setting position alternatives stop →
              (reordered.Yields setting position (.accepted value stop) ↔
                flat.Yields setting position (.accepted value stop))) ∧
            ∀ failures, flat.Yields setting position (.rejected failures) →
              ∃ failures', reordered.Yields setting position (.rejected failures') ∧
                failures'.toList.Perm failures.toList ∧
                failures'.furthest = failures.furthest ∧
                ∀ failure, failure ∈ failures'.filtered ↔ failure ∈ failures.filtered := by
  obtain ⟨first, others, rfl⟩ := List.exists_cons_of_ne_nil inhabited
  refine ⟨fork first others, rfl, fun nesting leaves => ?_, fun permuted perm => ?_⟩
  · exact isForkOf_cons_iff.mp (leaves ▸ nesting.isForkOf_leaves)
  obtain ⟨first', others', rfl⟩ : ∃ first' others', permuted = first' :: others' :=
    List.exists_cons_of_ne_nil fun none => inhabited (none ▸ perm).symm.eq_nil
  refine ⟨fork first' others', rfl, fun setting position =>
    ⟨fun stop => ⟨?_, ?_⟩, fun value stop once => ⟨fun accepts => ?_, fun accepts => ?_⟩,
      fun failures rejects => ?_⟩⟩
  · rintro ⟨value, accepts⟩
    exact exists_accepts_of_perm perm.symm accepts
  · rintro ⟨value, accepts⟩
    exact exists_accepts_of_perm perm accepts
  · obtain ⟨value', accepts'⟩ := exists_accepts_of_perm perm.symm accepts
    exact once.value_eq perm accepts' accepts ▸ accepts'
  · obtain ⟨value', accepts'⟩ := exists_accepts_of_perm perm accepts
    exact once.value_eq perm accepts accepts' ▸ accepts'
  · obtain ⟨failures', rejects', reordered⟩ := exists_rejects_of_perm perm rejects
    have furthest := Failures.furthest_congr fun failure => reordered.mem_iff (a := failure)
    refine ⟨failures', rejects', reordered, furthest, fun failure => ?_⟩
    rw [Failures.mem_filtered_iff, Failures.mem_filtered_iff, furthest, reordered.mem_iff]

/-- The second of three alternatives reaches the end, in any order and any nesting. Behind
the end all of them are rejected. -/
theorem nestedOnes_regroup_and_reorder :
    let setting : Setting .none Int [] := ⟨⟨#[1, 1], .empty, .off⟩, .nil, ∅⟩
    let alternatives := [nextIf (0 < ·), twoOnes 2, nextIf (· < 0)]
    let nesting : Nesting .none Int [] Int :=
      .either (.alone (nextIf (0 < ·))) (.fork (.alone (twoOnes 2)) [.alone (nextIf (· < 0))])
    alternatives ≠ [] ∧ nesting.leaves = alternatives ∧
      ReachedOnce setting 0 alternatives 2 ∧ nesting.rule.Yields setting 0 (.accepted 2 2) ∧
      ∃ reordered, fork? alternatives.reverse = .ok reordered ∧
        reordered.Yields setting 0 (.accepted 2 2) ∧
        ∃ failures, reordered.Yields setting 2 (.rejected failures) ∧
          failures.furthest = 2 := by
  intro setting alternatives nesting
  have leaves : nesting.leaves = alternatives := by
    simp [nesting, alternatives, Nesting.leaves, Nesting.alternatives, Alternative.labelled]
  have once : ReachedOnce setting 0 alternatives 2 := by
    have stops {rule : Rule .none Int [] Int} {outcome : Outcome Int}
        (yields : rule.Yields setting 0 outcome) (short : outcome.stop? ≠ some 2) (found : Int) :
        ¬ rule.Yields setting 0 (.accepted found 2) :=
      fun accepts => short (yields.unique accepts ▸ rfl)
    have acceptsOne : (nextIf (0 < ·) : Rule .none Int [] Int).Yields setting 0
        (.accepted 1 1) := yields_iff_apply.mpr ⟨0, _, rfl⟩
    have rejectsOne : (nextIf (· < 0) : Rule .none Int [] Int).Yields setting 0
        (.reject "condition unmet" 0) := yields_iff_apply.mpr ⟨0, _, rfl⟩
    have first := stops acceptsOne (by decide)
    have third := stops rejectsOne (by decide)
    refine .cons (fun _ _ found _ accepts => absurd accepts (first found))
      (.cons ?_ (.cons ?_ .nil))
    · intro other occurs found found' _
      rw [List.mem_singleton.mp occurs]
      exact third found'
    · intro other occurs
      cases occurs
  obtain ⟨flat, built, regroups, reorders⟩ :=
    alternatives_regroup_and_reorder (show alternatives ≠ [] by simp [alternatives])
  obtain ⟨reordered, built', same⟩ := reorders _ (List.reverse_perm alternatives)
  cases built
  have accepts : (fork (nextIf (0 < ·)) [twoOnes 2, nextIf (· < 0)]).Yields setting 0
      (.accepted 2 2) := yields_iff_apply.mpr ⟨0, _, rfl⟩
  have rejects : ∃ failures, (fork (nextIf (0 < ·)) [twoOnes 2, nextIf (· < 0)]).Yields setting 2
      (.rejected failures) ∧ failures.furthest = 2 :=
    ⟨_, yields_iff_apply.mpr ⟨0, _, rfl⟩, rfl⟩
  obtain ⟨failures, rejects, furthest⟩ := rejects
  obtain ⟨failures', rejects', _, furthest', _⟩ := (same setting 2).2.2 failures rejects
  exact ⟨by simp [alternatives], leaves, once, (regroups nesting leaves _ _ _).mpr accepts,
    reordered, built', ((same setting 0).2.1 2 2 once).mpr accepts, failures', rejects',
    furthest'.trans furthest⟩

end Rule

end Rulebook
