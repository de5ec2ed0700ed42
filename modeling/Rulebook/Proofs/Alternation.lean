/-
# Which alternative wins

An alternation applies all of its alternatives and keeps, two at a time, the
better outcome. The acceptance that is kept in the end is the earliest of those
that reach furthest, wherever rejections stand between them. If there is none,
the failures of all alternatives are kept in their order.
-/

import Mathlib.Data.List.Forall2
import Rulebook.Proofs.Yields

namespace Rulebook

section Furthest

variable {α κ κ' : Type*}

/-- Among the items the first to reach furthest accepts `value` and stops at
`stop`. What an item accepts, and where it stops then, is a parameter. -/
def ReachesFurthest (accepts : κ → α → Nat → Prop) (items : List κ) (value : α)
    (stop : Nat) : Prop :=
  ∃ before item later, items = before ++ item :: later ∧ accepts item value stop ∧
    (∀ other ∈ before, ∀ found reach, accepts other found reach → reach < stop) ∧
    ∀ other ∈ later, ∀ found reach, accepts other found reach → reach ≤ stop

variable {accepts : κ → α → Nat → Prop} {value : α} {stop : Nat}

theorem not_reachesFurthest_nil : ¬ ReachesFurthest accepts [] value stop := by
  intro holds
  rcases holds with ⟨before, item, later, split, _⟩
  simp at split

/-- The first item is it unless a later one reaches further. -/
theorem reachesFurthest_cons_iff {item : κ} {items : List κ} :
    ReachesFurthest accepts (item :: items) value stop ↔
      (accepts item value stop ∧
        ∀ other ∈ items, ∀ found reach, accepts other found reach → reach ≤ stop) ∨
      ReachesFurthest accepts items value stop ∧
        ∀ found reach, accepts item found reach → reach < stop := by
  refine ⟨fun holds => ?_, fun holds => ?_⟩
  · rcases holds with ⟨before, chosen, later, split, accepted, shorter, noLonger⟩
    cases before with
    | nil =>
        obtain ⟨rfl, rfl⟩ := List.cons.inj split
        exact .inl ⟨accepted, noLonger⟩
    | cons head before =>
        obtain ⟨rfl, rfl⟩ := List.cons.inj split
        rw [List.forall_mem_cons] at shorter
        exact .inr ⟨⟨before, chosen, later, rfl, accepted, shorter.2, noLonger⟩, shorter.1⟩
  · rcases holds with ⟨accepted, noLonger⟩ |
      ⟨⟨before, chosen, later, rfl, accepted, shorter, noLonger⟩, first⟩
    · exact ⟨[], item, items, rfl, accepted, by simp, noLonger⟩
    · exact ⟨item :: before, chosen, later, rfl, accepted,
        List.forall_mem_cons.mpr ⟨first, shorter⟩, noLonger⟩

/-- Items that accept alike from a position on have the same furthest acceptance there. Where
they stop before that position does not matter. -/
theorem reachesFurthest_congr_from {accepts' : κ' → α → Nat → Prop} {items : List κ}
    {items' : List κ'} {low : Nat}
    (alike : List.Forall₂
      (fun item item' => ∀ found reach, low ≤ reach →
        (accepts item found reach ↔ accepts' item' found reach))
      items items') :
    (∀ bound, low ≤ bound + 1 →
      ((∀ other ∈ items, ∀ found reach, accepts other found reach → reach ≤ bound) ↔
        ∀ other ∈ items', ∀ found reach, accepts' other found reach → reach ≤ bound)) ∧
    ∀ found reach, low ≤ reach →
      (ReachesFurthest accepts items found reach ↔
        ReachesFurthest accepts' items' found reach) := by
  induction alike with
  | nil => simp [not_reachesFurthest_nil]
  | @cons item item' items items' same alike ih =>
      have reaches {P : Nat → Prop} (fine : ∀ reach, reach < low → P reach) :
          (∀ found reach, accepts item found reach → P reach) ↔
            ∀ found reach, accepts' item' found reach → P reach := by
        refine forall₂_congr fun found reach => ?_
        rcases Nat.lt_or_ge reach low with below | above
        · simp [fine reach below]
        · rw [same found reach above]
      refine ⟨fun bound above => ?_, fun found reach above => ?_⟩
      · simp only [List.forall_mem_cons, ih.1 bound above,
          reaches (P := (· ≤ bound)) fun reach below => by omega]
      · simp only [reachesFurthest_cons_iff, same found reach above,
          ih.1 reach (Nat.le_succ_of_le above), ih.2 found reach above,
          reaches (P := (· < reach)) fun shorter below => by omega]

/-- Items that accept alike have the same furthest acceptance. -/
theorem reachesFurthest_congr {accepts' : κ' → α → Nat → Prop} {items : List κ}
    {items' : List κ'}
    (alike : List.Forall₂
      (fun item item' => ∀ found reach, accepts item found reach ↔ accepts' item' found reach)
      items items') :
    (∀ bound, (∀ other ∈ items, ∀ found reach, accepts other found reach → reach ≤ bound) ↔
      ∀ other ∈ items', ∀ found reach, accepts' other found reach → reach ≤ bound) ∧
    (ReachesFurthest accepts items value stop ↔
      ReachesFurthest accepts' items' value stop) := by
  have anywhere : List.Forall₂ (fun item item' => ∀ found reach, 0 ≤ reach →
      (accepts item found reach ↔ accepts' item' found reach)) items items' :=
    alike.imp fun _ _ same found reach _ => same found reach
  obtain ⟨bounds, furthest⟩ := reachesFurthest_congr_from anywhere
  exact ⟨fun bound => bounds bound (Nat.zero_le _), furthest value stop (Nat.zero_le _)⟩

end Furthest

namespace Outcome

variable {α : Type} {value : α} {stop : Nat}

/-- The acceptance of `value` is the earliest of those that reach furthest. -/
def Wins (outcomes : List (Outcome α)) (value : α) (stop : Nat) : Prop :=
  ReachesFurthest (fun outcome found reach => outcome = .accepted found reach) outcomes
    value stop

/-- What is kept of two outcomes was one of them. -/
theorem eq_or_eq_of_best_eq_accepted {kept candidate : Outcome α}
    (better : kept.best candidate = .accepted value stop) :
    kept = .accepted value stop ∨ candidate = .accepted value stop := by
  cases kept with
  | accepted found reach =>
      cases candidate with
      | accepted found' reach' =>
          simp only [best] at better
          split at better
          · exact .inl better
          · exact .inr better
      | rejected failures => exact .inl better
  | rejected failures =>
      cases candidate with
      | accepted found reach => exact .inr better
      | rejected more => cases better

/-- The better of the first two outcomes stands for both. -/
theorem wins_best_cons_iff {kept candidate : Outcome α} {outcomes : List (Outcome α)} :
    Wins (kept.best candidate :: outcomes) value stop ↔
      Wins (kept :: candidate :: outcomes) value stop := by
  simp only [Wins, reachesFurthest_cons_iff, List.forall_mem_cons]
  cases kept with
  | rejected failures => cases candidate <;> simp [best]
  | accepted keptValue keptStop =>
      cases candidate with
      | rejected more => simp [best]
      | accepted found reach =>
          simp only [best]
          split <;> grind

/-- Keeping the better outcome over and over leaves the winner. -/
theorem foldl_best_eq_accepted_iff {first : Outcome α} {others : List (Outcome α)} :
    others.foldl best first = .accepted value stop ↔
      Wins (first :: others) value stop := by
  induction others generalizing first with
  | nil => simp [Wins, reachesFurthest_cons_iff, not_reachesFurthest_nil]
  | cons candidate others ih =>
      rw [List.foldl_cons, ih, wins_best_cons_iff]

/-- An acceptance is never given up for a rejection. -/
@[simp]
theorem isAccepted_best (kept candidate : Outcome α) :
    (kept.best candidate).isAccepted = (kept.isAccepted || candidate.isAccepted) := by
  cases kept with
  | rejected failures => cases candidate <;> rfl
  | accepted value stop =>
      cases candidate with
      | rejected more => rfl
      | accepted found reach =>
          simp only [best]
          split <;> rfl

theorem isAccepted_foldl_best (first : Outcome α) (others : List (Outcome α)) :
    (others.foldl best first).isAccepted = (first :: others).any isAccepted := by
  induction others generalizing first with
  | nil => simp
  | cons candidate others ih => simp [ih, Bool.or_assoc]

/-- The failures of a rejection; an acceptance has none. -/
def failureList : Outcome α → List Failure
  | .accepted _ _ => []
  | .rejected failures => failures.toList

/-- Keeping the better outcome over and over loses no failure unless something is
accepted. -/
theorem foldl_best_eq_rejected_iff {first : Outcome α} {others : List (Outcome α)}
    {failures : Failures} :
    others.foldl best first = .rejected failures ↔
      (∀ outcome ∈ first :: others, outcome.isRejected) ∧
        failures.toList = (first :: others).flatMap failureList := by
  induction others generalizing first with
  | nil =>
      cases first with
      | accepted value stop => simp
      | rejected found =>
          have determined : found = failures ↔ failures.toList = found.toList :=
            ⟨fun same => by rw [same], fun same => Failures.toList_injective same.symm⟩
          simpa [failureList] using determined
  | cons candidate others ih =>
      rw [List.foldl_cons, ih]
      cases first with
      | accepted value stop => simp
      | rejected found =>
          cases candidate with
          | accepted value stop => simp
          | rejected more => simp [best, failureList]

end Outcome

namespace Rule

variable {N : Nonterminals} {ε : Type} {Γ : List Type} {α : Type}
  {setting : Setting N ε Γ} {position stop : Nat} {value : α}
  {first : Rule N ε Γ α} {others rules : List (Rule N ε Γ α)}

/-- The rules come to the outcomes, in their order. -/
def AllYield (setting : Setting N ε Γ) (position : Nat) (rules : List (Rule N ε Γ α))
    (outcomes : List (Outcome α)) : Prop :=
  List.Forall₂ (fun rule outcome => rule.Yields setting position outcome) rules outcomes

/-- An alternation comes to the best of what its alternatives come to. -/
theorem yields_fork_iff {outcome : Outcome α} :
    (fork first others).Yields setting position outcome ↔
      ∃ kept candidates, AllYield setting position (first :: others) (kept :: candidates) ∧
        outcome = candidates.foldl Outcome.best kept := by
  unfold fork
  induction others generalizing first with
  | nil =>
      refine ⟨fun yields => ⟨outcome, [], .cons yields .nil, rfl⟩, ?_⟩
      intro holds
      rcases holds with ⟨kept, candidates, ⟨⟩ | ⟨yields, ⟨⟩⟩, rfl⟩
      exact yields
  | cons other others ih =>
      rw [List.foldl_cons, ih]
      refine ⟨fun holds => ?_, fun holds => ?_⟩
      · rcases holds with ⟨_, candidates, ⟨⟩ | ⟨yields, rest⟩, rfl⟩
        obtain ⟨kept, candidate, yieldsFirst, yieldsOther, rfl⟩ :=
          yields_orElse_iff.mp yields
        exact ⟨kept, candidate :: candidates, .cons yieldsFirst (.cons yieldsOther rest),
          rfl⟩
      · rcases holds with ⟨kept, _, ⟨⟩ | ⟨yieldsFirst, ⟨⟩ | ⟨yieldsOther, rest⟩⟩, rfl⟩
        have yields := yields_orElse_iff.mpr ⟨_, _, yieldsFirst, yieldsOther, rfl⟩
        exact ⟨_, _, .cons yields rest, rfl⟩

/-- What an alternation accepts is accepted by an alternative. -/
theorem exists_accepts_of_fork
    (accepts : (fork first others).Yields setting position (.accepted value stop)) :
    ∃ rule ∈ first :: others, rule.Yields setting position (.accepted value stop) := by
  unfold fork at accepts
  induction others generalizing first with
  | nil => exact ⟨first, List.mem_cons_self, accepts⟩
  | cons other others ih =>
      obtain ⟨rule, occurs, yields⟩ := ih accepts
      rcases List.mem_cons.mp occurs with rfl | later
      · obtain ⟨kept, candidate, yieldsFirst, yieldsOther, same⟩ :=
          yields_orElse_iff.mp yields
        rcases Outcome.eq_or_eq_of_best_eq_accepted same.symm with rfl | rfl
        · exact ⟨first, by simp, yieldsFirst⟩
        · exact ⟨other, by simp, yieldsOther⟩
      · exact ⟨rule, by simp [later], yields⟩

/-- Rules that all terminate come to some outcomes. -/
theorem exists_allYield
    (terminating : ∀ rule ∈ rules, ∃ outcome, rule.Yields setting position outcome) :
    ∃ outcomes, AllYield setting position rules outcomes := by
  induction rules with
  | nil => exact ⟨[], .nil⟩
  | cons rule rules ih =>
      rw [List.forall_mem_cons] at terminating
      obtain ⟨outcome, yields⟩ := terminating.1
      obtain ⟨outcomes, rest⟩ := ih terminating.2
      exact ⟨outcome :: outcomes, .cons yields rest⟩

theorem exists_yields_fork
    (terminating : ∀ rule ∈ first :: others,
      ∃ outcome, rule.Yields setting position outcome) :
    ∃ outcome, (fork first others).Yields setting position outcome := by
  obtain ⟨_, ⟨⟩ | ⟨yields, rest⟩⟩ := exists_allYield terminating
  exact ⟨_, yields_fork_iff.mpr ⟨_, _, .cons yields rest, rfl⟩⟩

/-- Among the rules the first to reach furthest from a position accepts `value`
and stops at `stop`. -/
def Longest (setting : Setting N ε Γ) (rules : List (Rule N ε Γ α)) (position : Nat)
    (value : α) (stop : Nat) : Prop :=
  ReachesFurthest
    (fun rule found reach => rule.Yields setting position (.accepted found reach))
    rules value stop

/-- An alternation accepts exactly as the first of its alternatives to reach
furthest. -/
theorem yields_fork_accepted_iff
    (terminating : ∀ rule ∈ first :: others,
      ∃ outcome, rule.Yields setting position outcome) :
    (fork first others).Yields setting position (.accepted value stop) ↔
      Longest setting (first :: others) position value stop := by
  obtain ⟨_, ⟨⟩ | ⟨yields, rest⟩⟩ := exists_allYield terminating
  have best := yields_fork_iff.mpr ⟨_, _, .cons yields rest, rfl⟩
  have only {outcome : Outcome α} :
      (fork first others).Yields setting position outcome ↔ _ = outcome :=
    ⟨fun yields' => best.unique yields', fun same => same ▸ best⟩
  rw [only, Outcome.foldl_best_eq_accepted_iff, Outcome.Wins, Longest]
  refine (reachesFurthest_congr ?_).2.symm
  refine List.Forall₂.imp (fun rule outcome yields found reach => ?_) (.cons yields rest)
  exact ⟨fun yields' => yields.unique yields', fun same => same ▸ yields⟩

/-- A rule that may be missing comes to nothing where it rejects, and also where it
would go back. -/
theorem yields_optional_iff {rule : Rule N ε Γ α} {outcome : Outcome (Option α)} :
    rule.optional.Yields setting position outcome ↔
      ∃ found, rule.Yields setting position found ∧
        outcome = (found.map some).best (.accepted none position) := by
  have alternatives : rule.optional = (rule.map some).orElse (accept none) := rfl
  simp only [alternatives, yields_orElse_iff, yields_map_iff, yields_accept_iff]
  refine ⟨fun holds => ?_, fun holds => ?_⟩
  · rcases holds with ⟨_, _, ⟨found, yields, rfl⟩, rfl, rfl⟩
    exact ⟨found, yields, rfl⟩
  · rcases holds with ⟨found, yields, rfl⟩
    exact ⟨_, _, ⟨found, yields, rfl⟩, rfl, rfl⟩

/-- A value is kept if the rule did not go back for it. -/
theorem yields_optional_some_iff {rule : Rule N ε Γ α} :
    rule.optional.Yields setting position (.accepted (some value) stop) ↔
      rule.Yields setting position (.accepted value stop) ∧ position ≤ stop := by
  rw [yields_optional_iff]
  refine ⟨fun holds => ?_, fun holds => ?_⟩
  · rcases holds with ⟨⟨found, reach⟩ | failures, yields, kept⟩
    · by_cases forward : position ≤ reach
      · simp only [Outcome.map_accepted, Outcome.best, if_pos forward] at kept
        cases kept
        exact ⟨yields, forward⟩
      · simp only [Outcome.map_accepted, Outcome.best, if_neg forward] at kept
        cases kept
    · cases kept
  · rcases holds with ⟨yields, forward⟩
    exact ⟨_, yields, by simp only [Outcome.map_accepted, Outcome.best, if_pos forward]⟩

/-- A rule that may be missing is never rejected. -/
theorem isAccepted_of_yields_optional {rule : Rule N ε Γ α} {outcome : Outcome (Option α)}
    (yields : rule.optional.Yields setting position outcome) : outcome.isAccepted := by
  obtain ⟨found, _, rfl⟩ := yields_optional_iff.mp yields
  rw [Outcome.isAccepted_best]
  exact Bool.or_true _

/-- An alternation of terminating rules terminates, and accepts exactly if one of them
does. It then comes to the acceptance that reaches furthest, the earliest of several.
Otherwise the failures of all are reported in their order. So a rule that may be missing
terminates where it does, never rejects, and has a value exactly if the rule accepts
without going back. -/
theorem fork_takes_longest {alternatives : List (Rule N ε Γ α)}
    {outcomes : List (Outcome α)} (inhabited : alternatives ≠ [])
    (yield : AllYield setting position alternatives outcomes) :
    (∃ rule, fork? alternatives = .ok rule ∧
      (∃ outcome, rule.Yields setting position outcome ∧
        (outcome.isAccepted ↔ ∃ found ∈ outcomes, found.isAccepted)) ∧
      (∀ value stop, rule.Yields setting position (.accepted value stop) ↔
        Outcome.Wins outcomes value stop) ∧
      ∀ failures, rule.Yields setting position (.rejected failures) ↔
        (∀ outcome ∈ outcomes, outcome.isRejected) ∧
          failures.toList = outcomes.flatMap Outcome.failureList) ∧
    ∀ (rule : Rule N ε Γ α) (found : Outcome α), rule.Yields setting position found →
      (∃ outcome, rule.optional.Yields setting position outcome) ∧
      (∀ outcome, rule.optional.Yields setting position outcome → outcome.isAccepted) ∧
      ∀ value stop, rule.optional.Yields setting position (.accepted (some value) stop) ↔
        found = .accepted value stop ∧ position ≤ stop := by
  obtain ⟨first, others, rfl⟩ := List.exists_cons_of_ne_nil inhabited
  obtain _ | ⟨yieldsFirst, rest⟩ := yield
  rename_i kept candidates
  have best : (fork first others).Yields setting position
      (candidates.foldl Outcome.best kept) :=
    yields_fork_iff.mpr ⟨kept, candidates, .cons yieldsFirst rest, rfl⟩
  have only (outcome : Outcome α) : (fork first others).Yields setting position outcome ↔
      candidates.foldl Outcome.best kept = outcome :=
    ⟨fun yields => best.unique yields, fun same => same ▸ best⟩
  refine ⟨⟨fork first others, rfl, ⟨_, best, ?_⟩, fun value stop => ?_, fun failures => ?_⟩,
    fun rule found yields => ⟨?_, fun _ => isAccepted_of_yields_optional, fun value stop => ?_⟩⟩
  · rw [Outcome.isAccepted_foldl_best, List.any_eq_true]
  · rw [only, Outcome.foldl_best_eq_accepted_iff]
  · rw [only, Outcome.foldl_best_eq_rejected_iff]
  · exact ⟨_, yields_optional_iff.mpr ⟨found, yields, rfl⟩⟩
  · rw [yields_optional_some_iff]
    refine and_congr_left fun _ => ?_
    exact ⟨fun yields' => yields.unique yields', fun same => same ▸ yields⟩

/-- Two ones in a row, with a value for them. -/
def twoOnes (value : Int) : Rule .none Int [] Int :=
  (nextIf (· = 1)).thenWith (fun _ _ => value) (nextIf (· = 1))

/-- Two alternatives reach the end, and one stops before it. Among them are two that
reject. -/
theorem twoOnes_takes_longest :
    let setting : Setting .none Int [] := ⟨⟨#[1, 1], .empty, .off⟩, .nil, ∅⟩
    let alternatives := [reject "never", nextIf (0 < ·), twoOnes 2, nextIf (· < 0), twoOnes 3]
    let outcomes : List (Outcome Int) :=
      [.reject "never" 0, .accepted 1 1, .accepted 2 2, .reject "condition unmet" 0,
        .accepted 3 2]
    AllYield setting 0 alternatives outcomes ∧
      ∃ rule, fork? alternatives = .ok rule ∧ rule.Yields setting 0 (.accepted 2 2) := by
  intro setting alternatives outcomes
  have yield : AllYield setting 0 alternatives outcomes := by
    refine .cons ?_ (.cons ?_ (.cons ?_ (.cons ?_ (.cons ?_ .nil)))) <;>
      exact yields_iff_apply.mpr ⟨0, _, rfl⟩
  obtain ⟨⟨rule, built, _, accepts, _⟩, _⟩ := fork_takes_longest (by simp [alternatives]) yield
  refine ⟨yield, rule, built, (accepts 2 2).mpr ?_⟩
  exact ⟨outcomes.take 2, .accepted 2 2, outcomes.drop 3, rfl, rfl, by
    simp [outcomes, Outcome.reject], by simp [outcomes, Outcome.reject]⟩

end Rule

end Rulebook
