/-
# How far rules reach

A rule that is made of the library's parts only moves forward, and never past
the end of the source: it stops between the cursor and the end, and its
failures lie there too. Started behind the end it can only stay where it is.

The statement is about runs, not about the shape of rules: what a continuation
leads to, what a repetition attempts and what a reference stands for are known
only while the rule is applied. So it is shown of every combination of matchers
that it gets from the cursor only where its parts get, one after the other; the
rest is the induction over runs.
-/

import Rulebook.Proofs.Library
import Rulebook.Rule.Token

namespace Rulebook

namespace Outcome

variable {α β : Type} {low high : Nat} {holds : Nat → Prop}

/-- Every position that the outcome speaks of lies between two positions. -/
def Between (low high : Nat) : Outcome α → Prop
  | .accepted _ stop => low ≤ stop ∧ stop ≤ high
  | .rejected failures =>
    ∀ failure ∈ failures.toList, low ≤ failure.position ∧ failure.position ≤ high

/-- Every position that the outcome speaks of has a property. -/
def Everywhere (holds : Nat → Prop) : Outcome α → Prop
  | .accepted _ stop => holds stop
  | .rejected failures => ∀ failure ∈ failures.toList, holds failure.position

theorem between_iff_everywhere {outcome : Outcome α} :
    outcome.Between low high ↔
      outcome.Everywhere fun position => low ≤ position ∧ position ≤ high := by
  cases outcome <;> exact Iff.rfl

@[simp]
theorem everywhere_reject {message : String} {position : Nat} :
    (reject message position : Outcome α).Everywhere holds ↔ holds position := by
  simp [reject, Everywhere, Failure.bare]

@[simp]
theorem everywhere_withPath {label : String} {outcome : Outcome α} :
    (outcome.withPath label).Everywhere holds ↔ outcome.Everywhere holds := by
  cases outcome <;> simp [withPath, Everywhere]

theorem Everywhere.imp {holds' : Nat → Prop} {outcome : Outcome α}
    (everywhere : outcome.Everywhere holds)
    (implied : ∀ ⦃position⦄, holds position → holds' position) :
    outcome.Everywhere holds' := by
  cases outcome with
  | accepted value stop => exact implied everywhere
  | rejected failures => exact fun failure occurs => implied (everywhere failure occurs)

/-- The better of two outcomes speaks of no other positions. -/
theorem Everywhere.best {kept candidate : Outcome α} (everywhere : kept.Everywhere holds)
    (everywhereCandidate : candidate.Everywhere holds) :
    (kept.best candidate).Everywhere holds := by
  cases kept with
  | accepted value stop =>
      cases candidate with
      | accepted found reach =>
          simp only [Outcome.best]
          split
          · exact everywhere
          · exact everywhereCandidate
      | rejected failures => exact everywhere
  | rejected failures =>
      cases candidate with
      | accepted found reach => exact everywhereCandidate
      | rejected more =>
          intro failure occurs
          rw [Failures.toList_append, List.mem_append] at occurs
          exact occurs.elim (everywhere failure) (everywhereCandidate failure)

theorem everywhere_of_plain {ε : Type} {source : Array ε} {position : Nat}
    {outcome : Outcome α} (plain : Leaf.Plain source position outcome) :
    outcome.Everywhere fun reached =>
      position ≤ reached ∧ reached ≤ max position source.size := by
  cases outcome with
  | accepted value stop => exact plain
  | rejected failures =>
      obtain ⟨message, rfl⟩ := plain
      exact everywhere_reject.mpr ⟨Nat.le_refl _, Nat.le_max_left _ _⟩

end Outcome

namespace Matcher

variable {ε α β : Type} {matcher : Matcher α}

/-- A way to get from position to position: one may stay, and one may go on from
where one got to. -/
structure Passage (reach : Nat → Nat → Prop) : Prop where
  here : ∀ position, reach position position
  onward : ∀ ⦃first second third⦄, reach first second → reach second third →
    reach first third

/-- What the matcher accepts and where it fails is only where one may get to from
the cursor. -/
def Confined (reach : Nat → Nat → Prop) (matcher : Matcher α) : Prop :=
  ∀ ⦃session position outcome after⦄,
    matcher session position = .ok (outcome, after) →
      outcome.Everywhere (reach position)

section Confined

variable {reach : Nat → Nat → Prop}

/-- Another look at acceptances may stop at the same place or fail at the
cursor. -/
theorem Confined.revised {judge : Nat → α → Nat → Outcome β}
    (confined : matcher.Confined reach)
    (judged : ∀ position value stop, reach position stop →
      (judge position value stop).Everywhere (reach position)) :
    (matcher.revised judge).Confined reach := by
  intro session position outcome after applied
  obtain ⟨found, first, rfl⟩ := revised_eq_ok_iff.mp applied
  have reached := confined first
  cases found with
  | accepted value stop => exact judged position value stop reached
  | rejected failures => exact reached

theorem Confined.flatMap {next : α → Matcher β} (passage : Passage reach)
    (confined : matcher.Confined reach)
    (confinedNext : ∀ value, (next value).Confined reach) :
    (matcher.flatMap next).Confined reach := by
  intro session position outcome after applied
  obtain ⟨value, stop, between, first, second⟩ | ⟨failures, first, rfl⟩ :=
    flatMap_eq_ok_iff.mp applied
  · exact (confinedNext value second).imp fun _ => passage.onward (confined first)
  · exact confined first

/-- A repetition only moves by its attempts. -/
theorem Confined.repeatFrom {bounds : Bounds} {item next : Matcher α}
    (passage : Passage reach) (confinedItem : item.Confined reach)
    (confinedNext : next.Confined reach) (fold : β → α → β) (steps count : Nat) (acc : β) :
    (repeatFrom bounds item next fold steps count acc).Confined reach := by
  induction steps generalizing count acc with
  | zero =>
      intro session position outcome after applied
      cases applied
  | succ steps ih =>
      intro session position outcome after applied
      have stays : (Outcome.accepted acc position).Everywhere (reach position) :=
        passage.here position
      have attempt : (if count = 0 then item else next).Confined reach := by
        split <;> assumption
      obtain ⟨_, rfl, _⟩ | ⟨_, ⟨value, stop, between, attempted, goesOn⟩ |
        ⟨failures, attempted, rfl⟩⟩ := repeatFrom_succ_eq_ok_iff.mp applied
      · exact stays
      · exact (ih _ _ goesOn).imp fun _ => passage.onward (attempt attempted)
      · by_cases short : count < bounds.floor
        · rw [if_pos short]
          exact attempt attempted
        · rw [if_neg short]
          exact stays

/-- Every combination moves as its leaves do, one after the other. -/
theorem confined_congruence {N : Nonterminals} {fragment : Fragment ε} (input : Input N ε)
    (passage : Passage reach)
    (leaves : ∀ {α : Type} (part : Leaf ε α), fragment.leaf part →
      (leaf input.source part).Confined reach) (steps : Nat) :
    Congruence fragment input input steps steps
      fun matcher _ => matcher.Confined reach where
  halted cause := by
    intro session position outcome after applied
    cases applied
  refuse message := by
    intro session position outcome after applied
    cases applied
    exact Outcome.everywhere_reject.mpr (passage.here position)
  leaf part allowed := leaves part allowed
  unfinished confined := by
    intro session position outcome after applied
    obtain ⟨_, first⟩ | ⟨_, rfl, _⟩ := unfinished_eq_ok_iff.mp applied
    · exact confined first
    · exact Outcome.everywhere_reject.mpr (passage.here position)
  map f _ _ confined := by
    rw [map_eq_revised]
    exact confined.revised fun _ _ _ reached => reached
  flatMap confined confinedNext := confined.flatMap passage confinedNext
  nonEmpty confined := by
    rw [nonEmpty_eq_revised]
    refine confined.revised fun position value stop reached => ?_
    unfold judgeNonEmpty
    split
    · exact Outcome.everywhere_reject.mpr (passage.here position)
    · exact reached
  path label _ _ confined := by
    intro session position outcome after applied
    obtain ⟨found, inner, first, rfl, _⟩ := path_eq_ok_iff.mp applied
    exact Outcome.everywhere_withPath.mpr (confined first)
  traced _ label _ _ confined := by
    intro session position outcome after applied
    obtain ⟨inner, first, _⟩ := traced_eq_ok_iff.mp applied
    exact confined first
  orElse confined confinedOther := by
    intro session position outcome after applied
    obtain ⟨kept, between, candidate, first, second, rfl⟩ := orElse_eq_ok_iff.mp applied
    exact (confined first).best (confinedOther second)
  slice confined := by
    rw [slice_eq_revised]
    refine confined.revised fun position value stop reached => ?_
    unfold judgeSlice
    split
    · exact reached
    · exact Outcome.everywhere_reject.mpr (passage.here position)
  spanned _ _ _ confined := by
    rw [spanned_eq_revised]
    exact confined.revised fun _ _ _ reached => reached
  repeated bounds _ _ _ _ init fold confinedSeparator confinedItem := by
    refine confinedItem.repeatFrom passage ?_ fold steps 0 init
    rw [thenWith_eq_flatMap]
    refine confinedSeparator.flatMap passage fun _ => ?_
    rw [map_eq_revised]
    exact confinedItem.revised fun _ _ _ reached => reached
  framed choose _ _ _ confined := by
    intro session position outcome after applied
    exact confined _ 0 applied

end Confined

/-- The matcher stays between the cursor and the end of a source of the given
size, in what it accepts and in where it fails. -/
def Forward (size : Nat) (matcher : Matcher α) : Prop :=
  ∀ ⦃session position outcome after⦄,
    matcher session position = .ok (outcome, after) →
      outcome.Between position (max position size)

theorem passage_forward (size : Nat) :
    Passage fun position reached => position ≤ reached ∧ reached ≤ max position size where
  here position := ⟨Nat.le_refl _, Nat.le_max_left _ _⟩
  onward first second third := by omega

/-- To stay between the cursor and the end is to get only to such positions. -/
theorem forward_iff_confined {size : Nat} :
    matcher.Forward size ↔
      matcher.Confined fun position reached =>
        position ≤ reached ∧ reached ≤ max position size := by
  simp only [Forward, Confined, Outcome.between_iff_everywhere]

/-- The leaves of the library consume elements up to the end only. -/
theorem forward_leaf {source : Array ε} {part : Leaf ε α} (standard : part.Standard) :
    (leaf source part).Forward source.size := by
  rw [forward_iff_confined]
  intro session position outcome after applied
  exact Outcome.everywhere_of_plain (Leaf.plain_apply standard (leaf_eq_ok_iff.mp applied).1)

end Matcher

namespace Rule

variable {N : Nonterminals} {ε : Type} {Γ : List Type} {α : Type}

/-- A rule gets from the cursor only where its leaves get, one after the other. -/
theorem confined_apply {fragment : Fragment ε} {input : Input N ε}
    {reach : Nat → Nat → Prop} (passage : Matcher.Passage reach)
    (leaves : ∀ {α : Type} (part : Leaf ε α), fragment.leaf part →
      (Matcher.leaf input.source part).Confined reach)
    (grammarWithin : input.grammar.Within fragment) (steps : Nat)
    {rule : Rule N ε Γ α} (within : rule.Within fragment)
    {env : Env N ε Γ} (envWithin : env.Within fragment) (frame : Nat) :
    (apply input steps rule env frame).Confined reach :=
  apply_related (Matcher.confined_congruence input passage leaves) rfl grammarWithin
    steps rule env env frame frame within envWithin (.refl env)

/-- Rules without leaves written by hand stay between the cursor and the end of
the source. -/
theorem forward_apply {input : Input N ε}
    (grammarWithin : input.grammar.Within .standard) (steps : Nat)
    {rule : Rule N ε Γ α} (within : rule.Within .standard)
    {env : Env N ε Γ} (envWithin : env.Within .standard) (frame : Nat) :
    (apply input steps rule env frame).Forward input.source.size :=
  Matcher.forward_iff_confined.mpr <| confined_apply
    (Matcher.passage_forward input.source.size)
    (fun _ standard => Matcher.forward_iff_confined.mp (Matcher.forward_leaf standard))
    grammarWithin steps within envWithin frame

/-- An acceptance stops, and a rejection fails, between the cursor and the end
of the source. Behind the end a rule accepts or fails at the cursor only. -/
theorem apply_stays_between {input : Input N ε}
    (grammarWithin : input.grammar.Within .standard)
    {rule : Rule N ε Γ α} (within : rule.Within .standard)
    {env : Env N ε Γ} (envWithin : env.Within .standard)
    {steps frame position : Nat} {session after : Session} {outcome : Outcome α}
    (applied : apply input steps rule env frame session position =
      .ok (outcome, after)) :
    outcome.Between position (max position input.source.size) ∧
      (input.source.size < position → outcome.Between position position) := by
  have between := forward_apply grammarWithin steps within envWithin frame applied
  refine ⟨between, fun behind => ?_⟩
  rwa [Nat.max_eq_left (Nat.le_of_lt behind)] at between

/-- Positive numbers in nested lists, with all values in one array. A list
starts with `0` and ends with `-1`, and `-2` separates its members. -/
def nestedNumbers : Rule .none Int [] (Array Int) :=
  .recursive (((nextIf (0 < ·)).map fun n => #[n]).orElse
    ((enclose (token 0) (token (-1))
      (collect (.separatedBy (token (-2)) .any) (.reference .here))).map
        Array.flatten))

theorem within_nestedNumbers : nestedNumbers.Within .standard := by
  refine ⟨trivial, within_enclose Fragment.lenient_standard trivial trivial ?_⟩
  refine within_foldMany Fragment.lenient_standard _ _ ?_ trivial
  intro separator separated
  cases separated
  trivial

/-- The inner list is not closed. Its failure is dropped, and the outer list
fails where its first member ends. -/
theorem nestedNumbers_stays_between :
    let failures : Failures :=
      ⟨.bare "condition unmet" 0, [.bare "expected -1, got -2" 2]⟩
    apply ⟨#[0, 3, -2, 0, 4], .empty, .off⟩ 6 nestedNumbers .nil 0 .initial 0 =
        .ok (.rejected failures, .initial) ∧
      (Outcome.rejected failures : Outcome (Array Int)).Between 0 5 ∧
      (5 < 0 → (Outcome.rejected failures : Outcome (Array Int)).Between 0 0) := by
  intro failures
  have applied : apply ⟨#[0, 3, -2, 0, 4], .empty, .off⟩ 6 nestedNumbers .nil 0
      .initial 0 = .ok (.rejected failures, .initial) := rfl
  exact ⟨applied, apply_stays_between (Grammar.within_empty _) within_nestedNumbers
    (by trivial) applied⟩

end Rule

end Rulebook
