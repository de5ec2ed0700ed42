/-
# Filtering nested alternations

The deepest failures of a rejected alternation are those of its alternatives' deepest
failures, however the alternations are nested in each other and labelled. So a report about
a rejection can be put together from reports about its parts.
-/

import Rulebook.Proofs.Nesting
import Rulebook.Proofs.Stamped

namespace Rulebook

/-- The failure with labels put in front of its path. -/
def Failure.under (labels : List String) (failure : Failure) : Failure :=
  labels.foldr withPath failure

/-- The deepest failures below labels are the deepest failures, each below the labels. -/
theorem Failures.filtered_under (labels : List String) (failures : Failures) :
    (failures.under labels).filtered = failures.filtered.map (.under labels) := by
  induction labels with
  | nil => exact (List.map_id _).symm
  | cons label labels ih =>
      have outermost : failures.under (label :: labels) =
          (failures.under labels).withPath label := rfl
      rw [outermost, filtered_withPath, ih, List.map_map]
      rfl

variable {N : Nonterminals} {ε : Type} {Γ : List Type} {α : Type}

/-- With more active labels. -/
def Setting.below (setting : Setting N ε Γ) (labels : List String) : Setting N ε Γ :=
  labels.foldl entered setting

/-- An alternative comes to what its rule comes to below the labels around it. -/
theorem Alternative.yields_labelled_iff {alternative : Alternative N ε Γ α}
    {setting : Setting N ε Γ} {position : Nat} {outcome : Outcome α} :
    alternative.labelled.Yields setting position outcome ↔
      ∃ found, alternative.rule.Yields (setting.below alternative.labels) position found ∧
        outcome = found.under alternative.labels := by
  obtain ⟨labels, rule⟩ := alternative
  induction labels generalizing setting outcome with
  | nil =>
      have unlabelled : (⟨[], rule⟩ : Alternative N ε Γ α).labelled = rule := rfl
      simp only [unlabelled, Outcome.under_nil, exists_eq_right']
      rfl
  | cons label labels ih =>
      have outermost : (⟨label :: labels, rule⟩ : Alternative N ε Γ α).labelled =
          (⟨labels, rule⟩ : Alternative N ε Γ α).labelled.path label := rfl
      have under (found : Outcome α) :
          (found.under labels).withPath label = found.under (label :: labels) := by
        cases found <;> rfl
      rw [outermost, Rule.yields_path_iff]
      simp only [ih]
      refine ⟨fun holds => ?_, fun holds => ?_⟩
      · rcases holds with ⟨_, ⟨found, yields, rfl⟩, rfl⟩
        exact ⟨found, yields, under found⟩
      · rcases holds with ⟨found, yields, rfl⟩
        exact ⟨_, ⟨found, yields, rfl⟩, (under found).symm⟩

namespace Nesting

variable {setting : Setting N ε Γ} {position : Nat}

/-- The alternatives are rejected at a position, each with the failures given for it. -/
def RejectedWith (setting : Setting N ε Γ) (position : Nat)
    (reports : List (Alternative N ε Γ α × Failures)) : Prop :=
  ∀ report ∈ reports,
    report.1.rule.Yields (setting.below report.1.labels) position (.rejected report.2)

/-- Outcomes that are rejections come from alternatives that are rejected. -/
theorem exists_reports {alternatives : List (Alternative N ε Γ α)}
    {outcomes : List (Outcome α)}
    (yield : Rule.AllYield setting position (alternatives.map Alternative.labelled) outcomes)
    (rejected : ∀ outcome ∈ outcomes, outcome.isRejected) :
    ∃ reports, reports.map Prod.fst = alternatives ∧ RejectedWith setting position reports ∧
      outcomes.flatMap Outcome.failureList =
        reports.flatMap fun report => (report.2.under report.1.labels).toList := by
  rw [Rule.AllYield, List.forall₂_map_left_iff] at yield
  induction yield with
  | nil => exact ⟨[], rfl, by simp [RejectedWith], rfl⟩
  | @cons alternative outcome alternatives outcomes yields _ ih =>
      rw [List.forall_mem_cons] at rejected
      obtain ⟨reports, listed, rejects, joined⟩ := ih rejected.2
      obtain ⟨found, inner, rfl⟩ := Alternative.yields_labelled_iff.mp yields
      cases found with
      | accepted value stop => cases rejected.1
      | rejected failures =>
          refine ⟨(alternative, failures) :: reports, by rw [List.map_cons, listed],
            List.forall_mem_cons.mpr ⟨inner, rejects⟩, ?_⟩
          rw [List.flatMap_cons, List.flatMap_cons, joined]
          rfl

/-- A rejected nesting has the failures of its alternatives, each below the labels around
it. -/
theorem exists_reports_of_rejects {nesting : Nesting N ε Γ α} {failures : Failures}
    (rejects : nesting.rule.Yields setting position (.rejected failures)) :
    ∃ reports, reports.map Prod.fst = nesting.alternatives ∧
      RejectedWith setting position reports ∧
      failures.toList =
        reports.flatMap fun report => (report.2.under report.1.labels).toList := by
  obtain ⟨first, others, leaves, same⟩ := nesting.isForkOf_leaves.exists_cons
  rw [same setting position, Rule.yields_fork_iff] at rejects
  obtain ⟨kept, candidates, yield, best⟩ := rejects
  obtain ⟨rejected, joined⟩ := Outcome.foldl_best_eq_rejected_iff.mp best.symm
  rw [← leaves, Nesting.leaves] at yield
  obtain ⟨reports, listed, rejects, joined'⟩ := exists_reports yield rejected
  exact ⟨reports, listed, rejects, joined.trans joined'⟩

end Nesting

/-- Filtering goes through alternation and labels. Of two rejections together the filtered
failures are those of the filtered failures of each, below a label they are the filtered
failures below the label, and filtering them again changes nothing. The furthest position
of two rejections is the greater one, and a label does not move it. So the filtered
failures of a rejected alternation, however nested and labelled, are those of the filtered
failures of its alternatives. -/
theorem Failures.filtered_of_alternation :
    (∀ left right : Failures, (ofList? (left.filtered ++ right.filtered)).map filtered =
      some (left ++ right).filtered) ∧
    (∀ (label : String) (failures : Failures),
      (failures.withPath label).filtered = failures.filtered.map (.withPath label)) ∧
    (∀ failures : Failures,
      (ofList? failures.filtered).map filtered = some failures.filtered) ∧
    (∀ left right : Failures,
      (left ++ right).furthest = max left.furthest right.furthest) ∧
    (∀ (label : String) (failures : Failures),
      (failures.withPath label).furthest = failures.furthest) ∧
    ∀ {N : Nonterminals} {ε : Type} {Γ : List Type} {α : Type} (nesting : Nesting N ε Γ α)
      (setting : Setting N ε Γ) (position : Nat) (failures : Failures),
      nesting.rule.Yields setting position (.rejected failures) →
        ∃ reports, reports.map Prod.fst = nesting.alternatives ∧
          Nesting.RejectedWith setting position reports ∧
          (ofList? (reports.flatMap fun report =>
            report.2.filtered.map (.under report.1.labels))).map filtered =
              some failures.filtered := by
  refine ⟨filtered_append, filtered_withPath, filtered_filtered, furthest_append,
    furthest_withPath, fun nesting setting position failures rejects => ?_⟩
  obtain ⟨reports, listed, rejected, joined⟩ := Nesting.exists_reports_of_rejects rejects
  refine ⟨reports, listed, rejected, ?_⟩
  have parts := filtered_of_parts
    (reports.map fun report => report.2.under report.1.labels) failures
    (by rw [joined, List.flatMap_map])
  rw [List.flatMap_map] at parts
  simpa only [filtered_under] using parts

/-- Three alternatives in two alternations below labels. Two of them fail at the second
element for the same reason, which is kept once. -/
theorem Nesting.labelledRow_filtered :
    let setting : Setting .none Int [] := ⟨⟨#[1, 2], .empty, .off⟩, .nil, ∅⟩
    let pair (second : Int) : Rule .none Int [] Int :=
      (Rule.nextIf (· = 1)).thenWith (fun _ last => last) (.nextIf (· = second))
    let nesting : Nesting .none Int [] Int :=
      .labelled "row" (.fork (.labelled "two" (.alone (.nextIf (· = 2))))
        [.either (.alone (pair 3)) (.alone (pair 4))])
    ∃ failures : Failures, failures.length = 3 ∧
      nesting.rule.Yields setting 0 (.rejected failures) ∧
      ∃ reports, reports.map Prod.fst = nesting.alternatives ∧
        RejectedWith setting 0 reports ∧
        (Failures.ofList? (reports.flatMap fun report =>
          report.2.filtered.map (.under report.1.labels))).map Failures.filtered =
            some [⟨["row"], "condition unmet", 1⟩] := by
  intro setting pair nesting
  have built : nesting.rule = .path "row" (.orElse (.path "two" (.nextIf (· = 2)))
      (.orElse (pair 3) (pair 4))) := by
    simp only [nesting, rule, Rule.fork, List.map_cons, List.map_nil, List.foldl_cons,
      List.foldl_nil]
    rfl
  have rejects : ∃ failures : Failures, failures.length = 3 ∧
      nesting.rule.Yields setting 0 (.rejected failures) ∧
      failures.filtered = [⟨["row"], "condition unmet", 1⟩] := by
    rw [built]
    exact ⟨_, rfl, Rule.yields_iff_apply.mpr ⟨0, _, rfl⟩, by decide⟩
  obtain ⟨failures, three, rejects, filtered⟩ := rejects
  obtain ⟨_, _, _, _, _, nested⟩ := Failures.filtered_of_alternation
  obtain ⟨reports, listed, rejected, same⟩ := nested nesting setting 0 failures rejects
  exact ⟨failures, three, rejects, reports, listed, rejected, filtered ▸ same⟩

end Rulebook
