/-
# Where literals match

A literal matches exactly where its clusters stand in the source, and anywhere else it is
rejected at the cursor. The clusters of a literal are those of its parts put together, and
these need not be the clusters of the parts: a mark at the start of a part belongs to the last
cluster of the part before.

Only if no cluster reaches over a joint do the parts match in turn where the literal matches.
What they do in turn never depends on this. They match as far as the longest run of leading
parts does, and the part behind the run is rejected where the run ends.
-/

import Mathlib.Data.List.Induction
import Rulebook.Lexer.Basic
import Rulebook.Proofs.Stands
import Rulebook.Proofs.Steps

namespace Rulebook

section Source

variable {ε : Type} {source : Array ε} {elements more : List ε} {position start stop : Nat}

/-- The source goes on with the elements from the position on. -/
def StandsAt (source : Array ε) (elements : List ε) (position : Nat) : Prop :=
  position ≤ source.size ∧ elements <+: source.toList.drop position

instance [DecidableEq ε] : Decidable (StandsAt source elements position) :=
  inferInstanceAs (Decidable (_ ∧ _))

/-- Where the source goes on with elements, they stand up to the position behind them. -/
theorem stands_iff_standsAt :
    Stands source elements start stop ↔
      StandsAt source elements start ∧ stop = start + elements.length := by
  refine ⟨fun stands => ?_, fun holds => ?_⟩
  · have bounds := stands.bounds
    obtain ⟨before, after, split, rfl, rfl⟩ := stands
    refine ⟨⟨by omega, after, ?_⟩, List.length_append⟩
    rw [split, List.append_assoc, List.drop_left]
  · obtain ⟨⟨inside, after, split⟩, rfl⟩ := holds
    have taken : (source.toList.take start).length = start := by
      rw [List.length_take, Array.length_toList, Nat.min_eq_left inside]
    refine ⟨source.toList.take start, after, ?_, taken, by rw [List.length_append, taken]⟩
    rw [List.append_assoc, split, List.take_append_drop]

/-- Elements stand behind others if they stand where these end. -/
theorem standsAt_append_iff :
    StandsAt source (elements ++ more) start ↔
      StandsAt source elements start ∧ StandsAt source more (start + elements.length) := by
  have whole (elements : List ε) (start : Nat) :
      StandsAt source elements start ↔
        Stands source elements start (start + elements.length) := by
    simp [stands_iff_standsAt]
  rw [whole, stands_append_iff]
  simp only [stands_iff_standsAt]
  refine ⟨fun holds => ?_, fun holds => ?_⟩
  · obtain ⟨_, ⟨first, rfl⟩, second, _⟩ := holds
    exact ⟨first, second⟩
  · refine ⟨_, ⟨holds.1, rfl⟩, holds.2, ?_⟩
    rw [List.length_append, Nat.add_assoc]

namespace Leaf

variable {α : Type} {expected : Array ε} {agrees : Array ε → Bool}
  {mismatch : Array ε → String} {value : α}
  (compares : ∀ found, agrees found = true ↔ found = expected)

include compares

/-- A comparison with the elements that stand at the cursor succeeds. -/
theorem compare_of_standsAt (fits : source.size ≤ lastPosition)
    (stands : StandsAt source expected.toList position) :
    compare source expected.size agrees mismatch value position =
      .accepted value (position + expected.size) := by
  have upTo : Stands source expected.toList position (position + expected.size) :=
    stands_iff_standsAt.mpr ⟨stands, rfl⟩
  have representable : position + expected.size ≤ lastPosition :=
    Nat.le_trans upTo.bounds.2 fits
  rw [compare, if_pos representable, span?_eq_some_iff_stands.mpr upTo]
  exact if_pos ((compares expected).mpr rfl)

/-- Where anything else stands, the comparison fails at the cursor, be it that too few
elements are left or that there is no position so far behind. -/
theorem exists_compare_eq_reject (mismatch : Array ε → String) (value : α)
    (missing : ¬ StandsAt source expected.toList position) :
    ∃ message, compare source expected.size agrees mismatch value position =
      .reject message position := by
  unfold compare
  split
  · split
    · next found within =>
        by_cases agreed : agrees found = true
        · obtain rfl := (compares found).mp agreed
          have stands := span?_eq_some_iff_stands.mp within
          exact absurd (stands_iff_standsAt.mp stands).1 missing
        · exact ⟨_, if_neg agreed⟩
    · exact ⟨_, rfl⟩
  · exact ⟨_, rfl⟩

end Leaf

end Source

namespace Lexer

variable {N : Nonterminals} {Γ : List Type} {setting : Setting N Grapheme Γ}
  {parts : List String} {part : String} {position stop : Nat}

/-- The clusters of texts one after the other, each text split on its own. -/
def clustersOf (parts : List String) : List Grapheme :=
  parts.flatMap fun part => (feed part).toList

/-- The texts one after the other, each matched on its own. -/
def inTurn (parts : List String) : Chain N Grapheme Γ [] :=
  parts.foldl (fun chain part => chain.skip (literal part)) .empty

/-- Of the leading parts these stand at the position, one behind the other, and no more. -/
structure LongestRun (source : Array Grapheme) (parts : List String) (position : Nat)
    (run : List String) : Prop where
  leads : run <+: parts
  stands : StandsAt source (clustersOf run) position
  longest : ∀ other, other <+: parts → StandsAt source (clustersOf other) position →
    other.length ≤ run.length

theorem LongestRun.unique {source : Array Grapheme} {run run' : List String}
    (longest : LongestRun source parts position run)
    (longest' : LongestRun source parts position run') : run = run' := by
  have same : run.length = run'.length :=
    Nat.le_antisymm (longest'.longest run longest.leads longest.stands)
      (longest.longest run' longest'.leads longest'.stands)
  have leads := List.prefix_of_prefix_length_le longest.leads longest'.leads (Nat.le_of_eq same)
  exact leads.eq_of_length same

theorem clustersOf_concat (parts : List String) (part : String) :
    clustersOf (parts ++ [part]) = clustersOf parts ++ (feed part).toList := by
  simp [clustersOf]

theorem inTurn_concat (parts : List String) (part : String) :
    (inTurn (parts ++ [part]) : Chain N Grapheme Γ []) = (inTurn parts).skip (literal part) := by
  simp [inTurn]

/-- A literal comes to a comparison with its clusters. -/
theorem yields_literals_iff {outcome : Outcome Unit} :
    (literals parts).Yields setting position outcome ↔
      Leaf.compare setting.input.source (feed (String.join parts)).size
        (· == feed (String.join parts)) (mismatch (String.join parts)) () position =
          outcome := by
  rw [literals, Rule.yields_leaf_iff, Leaf.apply, Except.ok.injEq]

/-- A literal matches where its clusters stand. -/
theorem yields_literals_accepted_iff (fits : setting.size ≤ lastPosition) :
    (literals parts).Yields setting position (.accepted () stop) ↔
      StandsAt setting.input.source (feed (String.join parts)).toList position ∧
        stop = position + (feed (String.join parts)).size := by
  rw [yields_literals_iff]
  by_cases stands : StandsAt setting.input.source (feed (String.join parts)).toList position
  · rw [Leaf.compare_of_standsAt (fun _ => beq_iff_eq) fits stands]
    simp [stands, eq_comm]
  · obtain ⟨message, rejected⟩ :=
      Leaf.exists_compare_eq_reject (fun _ => beq_iff_eq) (mismatch (String.join parts)) ()
        stands
    rw [rejected]
    simp [stands, Outcome.reject]

/-- Where its clusters do not stand, a literal is rejected at the cursor. -/
theorem exists_yields_literals_reject
    (missing : ¬ StandsAt setting.input.source (feed (String.join parts)).toList position) :
    ∃ message, (literals parts).Yields setting position (.reject message position) := by
  simp only [yields_literals_iff]
  exact Leaf.exists_compare_eq_reject (fun _ => beq_iff_eq) _ _ missing

theorem yields_literal_accepted_iff (fits : setting.size ≤ lastPosition) :
    (literal part).Yields setting position (.accepted () stop) ↔
      StandsAt setting.input.source (feed part).toList position ∧
        stop = position + (feed part).size := by
  have joined : String.join [part] = part := by simp [String.join]
  rw [literal, yields_literals_accepted_iff fits, joined]

/-- A literal that is rejected does not stand at the cursor, and this is the one failure. -/
theorem missing_of_yields_literal_rejected (fits : setting.size ≤ lastPosition)
    {failures : Failures} (rejects : (literal part).Yields setting position (.rejected failures)) :
    ¬ StandsAt setting.input.source (feed part).toList position ∧
      ∃ message, failures = .single (.bare message position) := by
  have missing : ¬ StandsAt setting.input.source (feed part).toList position := by
    intro stands
    cases rejects.unique ((yields_literal_accepted_iff fits).mpr ⟨stands, rfl⟩)
  have joined : String.join [part] = part := by simp [String.join]
  have missingJoined :
      ¬ StandsAt setting.input.source (feed (String.join [part])).toList position := by
    rwa [joined]
  obtain ⟨message, rejects'⟩ := exists_yields_literals_reject missingJoined
  cases rejects.unique rejects'
  exact ⟨missing, message, rfl⟩

/-- Texts match in turn where their clusters stand one behind the other. -/
theorem yields_inTurn_accepted_iff (fits : setting.size ≤ lastPosition)
    (inside : position ≤ setting.size) :
    (inTurn parts).done.Yields setting position (.accepted .empty stop) ↔
      StandsAt setting.input.source (clustersOf parts) position ∧
        stop = position + (clustersOf parts).length := by
  induction parts using List.reverseRecOn generalizing stop with
  | nil =>
      have nothing : StandsAt setting.input.source [] position := ⟨inside, List.nil_prefix⟩
      refine Chain.yields_empty_iff.trans ?_
      simp [nothing, clustersOf]
  | append_singleton parts part ih =>
      rw [inTurn_concat, clustersOf_concat, standsAt_append_iff, Chain.done,
        Chain.yields_skip_accepted_iff]
      refine ⟨fun holds => ?_, fun holds => ?_⟩
      · obtain ⟨middle, _, before, last⟩ := holds
        obtain ⟨stands, rfl⟩ := ih.mp before
        obtain ⟨standsLast, rfl⟩ := (yields_literal_accepted_iff fits).mp last
        exact ⟨⟨stands, standsLast⟩, by simp [Nat.add_assoc]⟩
      · obtain ⟨⟨stands, standsLast⟩, rfl⟩ := holds
        refine ⟨_, (), ih.mpr ⟨stands, rfl⟩, ?_⟩
        exact (yields_literal_accepted_iff fits).mpr
          ⟨standsLast, by simp [Nat.add_assoc]⟩

/-- Texts that are not matched in turn are rejected where the longest run of them ends. -/
theorem exists_longestRun_of_rejected (fits : setting.size ≤ lastPosition)
    (inside : position ≤ setting.size) {failures : Failures}
    (rejects : (inTurn parts).done.Yields setting position (.rejected failures)) :
    ∃ run message, LongestRun setting.input.source parts position run ∧
      failures = .single (.bare message (position + (clustersOf run).length)) := by
  induction parts using List.reverseRecOn with
  | nil => cases Chain.yields_empty_iff.mp rejects
  | append_singleton parts part ih =>
      rw [inTurn_concat, Chain.done, Chain.yields_skip_rejected_iff] at rejects
      -- All parts together are not matched, so a run is one of the parts before the last.
      obtain earlier | ⟨_, middle, before, last⟩ := rejects
      · obtain ⟨run, message, ⟨leads, stands, longest⟩, rfl⟩ := ih earlier
        refine ⟨run, message, ⟨leads.trans (List.prefix_append _ _), stands, ?_⟩, rfl⟩
        intro other leadsOther standsOther
        rcases List.prefix_concat_iff.mp leadsOther with rfl | shorter
        · rw [clustersOf_concat, standsAt_append_iff] at standsOther
          cases earlier.unique
            ((yields_inTurn_accepted_iff fits inside).mpr ⟨standsOther.1, rfl⟩)
        · exact longest other shorter standsOther
      · obtain ⟨stands, rfl⟩ := (yields_inTurn_accepted_iff fits inside).mp before
        obtain ⟨missing, message, rfl⟩ := missing_of_yields_literal_rejected fits last
        refine ⟨parts, message, ⟨List.prefix_append _ _, stands, ?_⟩, rfl⟩
        intro other leadsOther standsOther
        rcases List.prefix_concat_iff.mp leadsOther with rfl | shorter
        · rw [clustersOf_concat, standsAt_append_iff] at standsOther
          exact absurd standsOther.2 missing
        · exact shorter.length_le

/-- Matching texts in turn comes to an end. -/
theorem inTurn_terminates (setting : Setting N Grapheme Γ) (parts : List String)
    (position : Nat) : (inTurn parts).done.Terminates setting position := by
  induction parts using List.reverseRecOn with
  | nil => exact ⟨_, Chain.yields_empty_iff.mpr rfl⟩
  | append_singleton parts part ih =>
      rw [inTurn_concat]
      refine Rule.Terminates.thenWith ih fun middle => ?_
      exact ⟨_, yields_literals_iff.mpr rfl⟩

/-- A literal accepts exactly where the source goes on with its clusters, and stops behind
them; anywhere else it is rejected with a single failure at the cursor. If its clusters are
those of its parts, matching the parts in turn comes to the same acceptances in the source. In
any case this terminates, and the one failure of a rejection lies where the longest run of
leading parts that match ends. -/
theorem literal_matches_its_clusters (setting : Setting N Grapheme Γ)
    (fits : setting.size ≤ lastPosition) (parts : List String) (position : Nat) :
    let clusters := (feed (String.join parts)).toList
    let matched := position ≤ setting.size ∧
      clusters <+: setting.input.source.toList.drop position
    (∀ stop, (literals parts).Yields setting position (.accepted () stop) ↔
      matched ∧ stop = position + clusters.length) ∧
    (¬ matched → ∃ message, (literals parts).Yields setting position
      (.rejected (.single (.bare message position)))) ∧
    (position ≤ setting.size →
      (clusters = clustersOf parts → ∀ stop,
        ((literals parts).Yields setting position (.accepted () stop) ↔
          (inTurn parts).done.Yields setting position (.accepted .empty stop))) ∧
      (inTurn parts).done.Terminates setting position ∧
      ∀ failures, (inTurn parts).done.Yields setting position (.rejected failures) →
        ∃ run message, LongestRun setting.input.source parts position run ∧
          failures = .single (.bare message (position + (clustersOf run).length))) := by
  intro clusters matched
  have accepts (stop : Nat) :
      (literals parts).Yields setting position (.accepted () stop) ↔
        matched ∧ stop = position + clusters.length :=
    yields_literals_accepted_iff fits
  refine ⟨accepts, exists_yields_literals_reject, fun inside => ⟨fun separable stop => ?_,
    inTurn_terminates setting parts position,
    fun failures => exists_longestRun_of_rejected fits inside⟩⟩
  rw [yields_inTurn_accepted_iff fits inside, ← separable]
  exact accepts stop

/-- The parts of an arrow match in turn where it stands. Elsewhere two of them match, and
the last one is rejected. -/
theorem arrow_matches_its_clusters :
    let setting : Setting .none Grapheme [] :=
      ⟨⟨#["-", "-", ">", "-", "-", "x"], .empty, .off⟩, .nil, ∅⟩
    let parts := ["-", "-", ">"]
    setting.size ≤ lastPosition ∧ (feed (String.join parts)).toList = clustersOf parts ∧
      (literals parts).Yields setting 0 (.accepted () 3) ∧
      (inTurn parts).done.Yields setting 0 (.accepted .empty 3) ∧
      (∃ message, (literals parts).Yields setting 3
        (.rejected (.single (.bare message 3)))) ∧
      LongestRun setting.input.source parts 3 ["-", "-"] ∧
      (∃ message, (inTurn parts).done.Yields setting 3
        (.rejected (.single (.bare message 5)))) ∧
      ∃ message, (literals parts).Yields setting lastPosition
        (.rejected (.single (.bare message lastPosition))) := by
  intro setting parts
  have fits : setting.size ≤ lastPosition := by decide
  have separable : (feed (String.join parts)).toList = clustersOf parts := by decide
  have two : LongestRun setting.input.source parts 3 ["-", "-"] := by
    refine ⟨by decide, by decide, fun other leads stands => ?_⟩
    by_contra longer
    obtain rfl : other = parts := leads.eq_of_length_le (Nat.not_le.mp longer)
    exact absurd stands (by decide)
  obtain ⟨accepts, _, within⟩ := literal_matches_its_clusters setting fits parts 0
  obtain ⟨_, rejects, withinThree⟩ := literal_matches_its_clusters setting fits parts 3
  obtain ⟨_, rejectsLast, _⟩ := literal_matches_its_clusters setting fits parts lastPosition
  have whole : (literals parts).Yields setting 0 (.accepted () 3) :=
    (accepts 3).mpr ⟨by decide, by decide⟩
  have three := rejects (by decide)
  refine ⟨fits, separable, whole, ((within (by decide)).1 separable 3).mp whole, three, two, ?_,
    rejectsLast (by decide)⟩
  obtain ⟨same, ⟨⟨⟨⟩, stop⟩ | failures, yields⟩, rejected⟩ := withinThree (by decide)
  · obtain ⟨message, rejectsThree⟩ := three
    cases ((same separable stop).mpr yields).unique rejectsThree
  · obtain ⟨run, message, longest, rfl⟩ := rejected failures yields
    obtain rfl := longest.unique two
    exact ⟨message, yields⟩

/-- A mark behind a letter is no cluster of its own. -/
example : (feed (String.join ["e", "\u0301"])).toList ≠ clustersOf ["e", "\u0301"] := by
  decide +kernel

end Lexer

end Rulebook
