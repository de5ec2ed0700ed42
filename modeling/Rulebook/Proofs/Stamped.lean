/-
# Two ways to label failures

A failure carries the labels of the named rules around the place where it
arose. There are two ways to get there. Labels can be put in front of the path
one by one, whenever a named rule is left with a failure, and this is how rules
are interpreted. Or a failure can be stamped with the stack of active labels
when it arises, and is never changed afterwards. This module interprets rules
in the second way, and shows that both ways lead to the same outcomes.

The reason is that applying a rule in the second way amounts to applying it in
the first way and putting all labels that were active at the start in front in
the end. Every combination of matchers keeps this. Traced rules are the
exception: their labels are on the stack, but they are put in front of nothing.
-/

import Rulebook.Proofs.Library
import Rulebook.Proofs.Yields
import Rulebook.Rule.Token

namespace Rulebook

/-! ## Stamping failures when they arise -/

/-- Make the active labels the path of every failure. -/
def Outcome.stamp {α : Type} (context : Context) : Outcome α → Outcome α
  | .accepted value stop => .accepted value stop
  | .rejected failures =>
    let mark (failure : Failure) : Failure := { failure with path := context.path }
    .rejected ⟨mark failures.first, failures.others.map mark⟩

/-- A rejection with a single failure, stamped with the active labels. -/
def Outcome.rejectStamped {α : Type} (context : Context) (message : String)
    (position : Nat) : Outcome α :=
  (reject message position).stamp context

namespace Matcher

variable {ε α : Type}

/-- Like `refuse`, with a stamped failure. -/
def refuseStamped (message : String) : Matcher α :=
  fun session position =>
    .ok (.rejectStamped session.context message position, session)

/-- Like `leaf`, with stamped failures. -/
def leafStamped (source : Array ε) (leaf : Leaf ε α) : Matcher α :=
  fun session position => do
    let outcome ← leaf.apply source session.context position
    return (outcome.stamp session.context, session)

/-- Like `unfinished`, with a stamped failure where no element is left. -/
def unfinishedStamped (size : Nat) (matcher : Matcher α) : Matcher α :=
  fun session position =>
    if position < size then matcher session position
    else .ok (.rejectStamped session.context (outOfRange size position) position, session)

/-- Like `nonEmpty`. The failure of an empty match arises after the match, and is
stamped with the labels that are active then. -/
def nonEmptyStamped (matcher : Matcher α) : Matcher α :=
  fun session position => do
    match ← matcher session position with
    | (.accepted value stop, session) =>
      if stop ≤ position then
        return (.rejectStamped session.context "rule succeeded but consumed no input"
          position, session)
      else return (.accepted value stop, session)
    | (.rejected failures, session) => return (.rejected failures, session)

/-- The label stands on the stack during the application, and that is all. -/
def pathStamped (label : String) (matcher : Matcher α) : Matcher α :=
  fun session position => do
    let (guard, session) := session.enter label
    let (outcome, session) ← matcher session position
    return (outcome, session.release guard)

/-- Like `slice`. A failure arises after the match. -/
def sliceStamped (source : Array ε) (matcher : Matcher α) : Matcher (Array ε) :=
  fun session position => do
    match ← matcher session position with
    | (.accepted _ stop, session) =>
      match span? source position stop with
      | some elements => return (.accepted elements stop, session)
      | none =>
        return (.rejectStamped session.context (outOfRange source.size stop) position,
          session)
    | (.rejected failures, session) => return (.rejected failures, session)

end Matcher

variable {N : Nonterminals} {ε : Type}

/-- Follow a reference. If that leads nowhere, the failure is stamped. -/
def Interpretation.referenceStamped (again : Interpretation N ε) {Γ : List Type}
    {α : Type} (env : Env N ε Γ) (place : Member α Γ) : Matcher α :=
  match env.lookup place with
  | .undefined => .refuseStamped "recursive rule used before it was defined"
  | .rule rule env frame => again rule env frame
  | .dropped => .refuseStamped "recursive rule used after it was dropped"

namespace Rule

/-- Interpret a rule by its structure, as `interpret` does, with failures that
are stamped when they arise. -/
def interpretStamped (input : Input N ε) (again : Interpretation N ε) (steps : Nat) :
    {Γ : List Type} → {α : Type} → Rule N ε Γ α → Env N ε Γ → (frame : Nat) →
      Matcher α
  | _, _, .leaf part, _, _ => .leafStamped input.source part
  | _, _, .unfinished rule, env, frame =>
    .unfinishedStamped input.source.size (rule.interpretStamped input again steps env frame)
  | _, _, .map f rule, env, frame =>
    .map f (rule.interpretStamped input again steps env frame)
  | _, _, .flatMap rule next, env, frame =>
    .flatMap (rule.interpretStamped input again steps env frame)
      fun value => (next value).interpretStamped input again steps env frame
  | _, _, .thenWith combine rule next, env, frame =>
    .thenWith combine (rule.interpretStamped input again steps env frame)
      (next.interpretStamped input again steps env frame)
  | _, _, .nonEmpty rule, env, frame =>
    .nonEmptyStamped (rule.interpretStamped input again steps env frame)
  | _, _, .path label rule, env, frame =>
    .pathStamped label (rule.interpretStamped input again steps env frame)
  | _, _, .traced label rule, env, frame =>
    .traced input.verbosity label (rule.interpretStamped input again steps env frame)
  | _, _, .orElse rule other, env, frame =>
    .orElse (rule.interpretStamped input again steps env frame)
      (other.interpretStamped input again steps env frame)
  | _, _, .slice rule, env, frame =>
    .sliceStamped input.source (rule.interpretStamped input again steps env frame)
  | _, _, .spanned rule, env, frame =>
    .spanned (rule.interpretStamped input again steps env frame)
  | _, _, .repeated bounds separator item init fold, env, frame =>
    .repeated bounds (separator.interpretStamped input again steps env frame)
      (item.interpretStamped input again steps env frame) init fold steps
  | _, _, .deferred number name, _, frame =>
    again.deferred input.grammar ⟨frame, number⟩ name
  | _, _, .delayed number rule, env, frame =>
    .framed (Cells.frameOf ⟨frame, number⟩)
      fun _ => rule.interpretStamped input again steps env frame
  | _, _, .fresh rule, env, _ =>
    .framed Cells.openFrame fun frame => rule.interpretStamped input again steps env frame
  | _, _, .reference place, env, _ => again.referenceStamped env place
  | _, _, .recursive body, env, frame =>
    body.interpretStamped input again steps (.cons (.defined body) frame env) frame

/-- Apply rules with an allowance of steps, and stamp failures when they
arise. -/
def applyStamped (input : Input N ε) : (steps : Nat) → Interpretation N ε
  | 0 => fun _ _ _ => .halted .exhausted
  | steps + 1 => fun rule env frame =>
    rule.interpretStamped input (applyStamped input steps) (steps + 1) env frame

end Rule

/-! ## Putting the labels of the start in front in the end -/

namespace Failures

/-- Put all labels in front of the path of every failure, the last one first. -/
def under (labels : List String) (failures : Failures) : Failures :=
  labels.foldr withPath failures

theorem under_append (labels : List String) (left right : Failures) :
    (left ++ right).under labels = left.under labels ++ right.under labels := by
  induction labels with
  | nil => rfl
  | cons label labels ih =>
      simp only [under, List.foldr_cons] at ih ⊢
      rw [ih, withPath_append]

theorem under_single_bare (labels : List String) (message : String) (position : Nat) :
    (single (.bare message position)).under labels = single ⟨labels, message, position⟩ := by
  induction labels with
  | nil => rfl
  | cons label labels ih =>
      simp only [under, List.foldr_cons] at ih ⊢
      rw [ih]
      rfl

end Failures

namespace Outcome

variable {α β : Type}

/-- Put all labels in front of the path of every failure, the last one first. -/
def under (labels : List String) : Outcome α → Outcome α
  | .accepted value stop => .accepted value stop
  | .rejected failures => .rejected (failures.under labels)

@[simp]
theorem under_accepted (labels : List String) (value : α) (stop : Nat) :
    (accepted value stop).under labels = accepted value stop := rfl

@[simp]
theorem under_rejected (labels : List String) (failures : Failures) :
    (rejected failures : Outcome α).under labels = rejected (failures.under labels) := rfl

theorem under_nil (outcome : Outcome α) : outcome.under [] = outcome := by
  cases outcome <;> rfl

/-- The innermost label is put in front before all others. -/
theorem under_concat (labels : List String) (label : String) (outcome : Outcome α) :
    outcome.under (labels ++ [label]) = (outcome.withPath label).under labels := by
  cases outcome with
  | accepted value stop => rfl
  | rejected failures => simp [under, Failures.under, withPath]

theorem under_map (labels : List String) (f : α → β) (outcome : Outcome α) :
    (outcome.map f).under labels = (outcome.under labels).map f := by
  cases outcome <;> rfl

theorem under_best (labels : List String) (kept candidate : Outcome α) :
    (kept.best candidate).under labels =
      (kept.under labels).best (candidate.under labels) := by
  cases kept with
  | accepted value stop =>
      cases candidate with
      | accepted found reach =>
          by_cases shorter : reach ≤ stop
          · simp [best, under, shorter]
          · simp [best, under, shorter]
      | rejected failures => rfl
  | rejected failures =>
      cases candidate with
      | accepted found reach => rfl
      | rejected more => simp only [best, under, Failures.under_append]

/-- A stamped failure has all active labels in front. -/
theorem under_reject (context : Context) (message : String) (position : Nat) :
    (reject message position : Outcome α).under context.path =
      rejectStamped context message position := by
  simp only [reject, under, Failures.under_single_bare]
  rfl

end Outcome

namespace Matcher

variable {ε α β γ : Type}

/-- The labels that are active in the end are those active at the start. -/
def Balanced (matcher : Matcher α) : Prop :=
  ∀ ⦃session position outcome after⦄,
    matcher session position = .ok (outcome, after) → after.context = session.context

/-- Put all labels that are active at the start in front in the end. -/
def under (matcher : Matcher α) : Matcher α :=
  fun session position => do
    let (outcome, after) ← matcher session position
    return (outcome.under session.context.path, after)

variable {matcher other : Matcher α}

theorem Balanced.thenWith {next : Matcher β} (balanced : matcher.Balanced)
    (balancedNext : next.Balanced) (combine : α → β → γ) :
    (matcher.thenWith combine next).Balanced := by
  intro session position outcome after applied
  rw [thenWith_eq_flatMap, flatMap_eq_ok_iff] at applied
  obtain ⟨value, stop, between, first, second⟩ | ⟨failures, first, _⟩ := applied
  · rw [map_eq_revised, revised_eq_ok_iff] at second
    obtain ⟨found, second, _⟩ := second
    exact (balancedNext second).trans (balanced first)
  · exact balanced first

theorem under_halted (cause : Halt) : (halted cause : Matcher α).under = halted cause :=
  rfl

theorem under_refuse (message : String) :
    (refuse message : Matcher α).under = refuseStamped message := by
  funext session position
  simp only [under, refuse, refuseStamped, bind, Except.bind, Outcome.under_reject]
  rfl

/-- The failures of a leaf of the library have no labels yet. -/
theorem stamp_of_plain {source : Array ε} {position : Nat} {outcome : Outcome α}
    (plain : Leaf.Plain source position outcome) (context : Context) :
    outcome.stamp context = outcome.under context.path := by
  cases outcome with
  | accepted value stop => rfl
  | rejected failures =>
      obtain ⟨message, rfl⟩ := plain
      exact (Outcome.under_reject context message position).symm

theorem under_leaf {source : Array ε} {part : Leaf ε α} (standard : part.Standard) :
    (leaf source part).under = leafStamped source part := by
  funext session position
  simp only [under, leaf, leafStamped]
  cases applied : part.apply source session.context position with
  | error cause => rfl
  | ok outcome =>
      simp only [bind, Except.bind, pure, Except.pure]
      rw [stamp_of_plain (Leaf.plain_apply standard applied)]

theorem under_unfinished (size : Nat) :
    (matcher.unfinished size).under = matcher.under.unfinishedStamped size := by
  funext session position
  simp only [under, unfinished, unfinishedStamped]
  by_cases inside : position < size
  · simp [inside]
  · simp only [inside, if_false, bind, Except.bind, Outcome.under_reject]
    rfl

theorem under_map (f : α → β) : (matcher.map f).under = matcher.under.map f := by
  funext session position
  simp only [under, map]
  cases matcher session position with
  | error cause => rfl
  | ok reached =>
      simp only [bind, Except.bind, pure, Except.pure]
      rw [Outcome.under_map]

/-- What follows starts with the labels that were active before. -/
theorem under_flatMap (balanced : matcher.Balanced) (next : α → Matcher β) :
    (matcher.flatMap next).under = matcher.under.flatMap fun value => (next value).under := by
  funext session position
  simp only [under, flatMap]
  cases applied : matcher session position with
  | error cause => rfl
  | ok reached =>
      obtain ⟨⟨value, stop⟩ | failures, between⟩ := reached
      · simp only [bind, Except.bind, pure, Except.pure, Outcome.under]
        rw [balanced applied]
      · rfl

theorem under_nonEmpty (balanced : matcher.Balanced) :
    matcher.nonEmpty.under = matcher.under.nonEmptyStamped := by
  funext session position
  simp only [under, nonEmpty, nonEmptyStamped]
  cases applied : matcher session position with
  | error cause => rfl
  | ok reached =>
      obtain ⟨⟨value, stop⟩ | failures, after⟩ := reached
      · simp only [bind, Except.bind, pure, Except.pure, Outcome.under_accepted]
        by_cases empty : stop ≤ position
        · simp only [empty, if_true]
          rw [balanced applied, Outcome.under_reject]
        · simp only [empty, if_false, Outcome.under_accepted]
      · rfl

/-- Leaving a named rule puts its label in front before those around it, and
these are the labels that were active inside. -/
theorem under_path (label : String) :
    (matcher.path label).under = matcher.under.pathStamped label := by
  funext session position
  simp only [under, path, pathStamped]
  cases matcher (session.enter label).2 position with
  | error cause => rfl
  | ok reached =>
      simp only [bind, Except.bind, pure, Except.pure, Session.enter, Context.path_enter]
      rw [Outcome.under_concat]

theorem under_orElse (balanced : matcher.Balanced) :
    (matcher.orElse other).under = matcher.under.orElse other.under := by
  funext session position
  simp only [under, orElse]
  cases applied : matcher session position with
  | error cause => rfl
  | ok reached =>
      obtain ⟨kept, between⟩ := reached
      simp only [bind, Except.bind, pure, Except.pure]
      cases other between position with
      | error cause => rfl
      | ok reachedOther =>
          simp only
          rw [balanced applied, Outcome.under_best]

theorem under_slice (source : Array ε) (balanced : matcher.Balanced) :
    (matcher.slice source).under = matcher.under.sliceStamped source := by
  funext session position
  simp only [under, slice, sliceStamped]
  cases applied : matcher session position with
  | error cause => rfl
  | ok reached =>
      obtain ⟨⟨value, stop⟩ | failures, after⟩ := reached
      · simp only [bind, Except.bind, pure, Except.pure, Outcome.under_accepted]
        cases span? source position stop with
        | none =>
            simp only
            rw [balanced applied, Outcome.under_reject]
        | some elements => rfl
      · rfl

theorem under_spanned : matcher.spanned.under = matcher.under.spanned := by
  funext session position
  simp only [under, spanned]
  cases matcher session position with
  | error cause => rfl
  | ok reached => obtain ⟨_ | _, _⟩ := reached <;> rfl

theorem under_repeatFrom {bounds : Bounds} {item next : Matcher α}
    (balancedItem : item.Balanced) (balancedNext : next.Balanced) (fold : β → α → β)
    (steps count : Nat) (acc : β) :
    (repeatFrom bounds item next fold steps count acc).under =
      repeatFrom bounds item.under next.under fold steps count acc := by
  induction steps generalizing count acc with
  | zero => rfl
  | succ steps ih =>
      funext session position
      have balanced : (if count = 0 then item else next).Balanced := by
        split <;> assumption
      have attempts : (if count = 0 then item.under else next.under) =
          (if count = 0 then item else next).under := by
        split <;> rfl
      simp only [repeatFrom, attempts, ← ih]
      by_cases full : bounds.ceiling = some count
      · simp only [under, full, if_true]
        rfl
      · simp only [under, full, if_false]
        cases attempted : (if count = 0 then item else next) session position with
        | error cause => rfl
        | ok reached =>
            obtain ⟨⟨value, stop⟩ | failures, between⟩ := reached
            · simp only [bind, Except.bind, pure, Except.pure, Outcome.under_accepted]
              rw [balanced attempted]
            · simp only [bind, Except.bind, pure, Except.pure, Outcome.under_rejected]
              by_cases short : count < bounds.floor
              · simp only [short, if_true, Outcome.under_rejected]
              · simp only [short, if_false, Outcome.under_accepted]

theorem under_thenWith (combine : α → β → γ) (balanced : matcher.Balanced)
    (next : Matcher β) :
    (matcher.thenWith combine next).under = matcher.under.thenWith combine next.under := by
  simp only [thenWith_eq_flatMap, under_flatMap balanced, under_map]

theorem under_repeated {bounds : Bounds} {separator : Matcher Unit} {item : Matcher α}
    (balancedSeparator : separator.Balanced) (balancedItem : item.Balanced) (init : β)
    (fold : β → α → β) (steps : Nat) :
    (repeated bounds separator item init fold steps).under =
      repeated bounds separator.under item.under init fold steps := by
  unfold repeated
  rw [under_repeatFrom balancedItem (balancedSeparator.thenWith balancedItem _),
    under_thenWith _ balancedSeparator]

/-- Where no label is active, nothing is put in front. -/
theorem under_apply_of_inactive {session : Session} (inactive : session.context = ∅)
    (position : Nat) : matcher.under session position = matcher session position := by
  simp only [under, inactive, Context.path_empty, Outcome.under_nil]
  cases matcher session position with
  | error cause => rfl
  | ok reached => rfl

theorem under_framed (choose : Cells → Nat × Cells) (matcher : Nat → Matcher α) :
    (framed choose matcher).under = framed choose fun frame => (matcher frame).under :=
  rfl

end Matcher

namespace Rule

open Matcher

variable {input : Input N ε} {Γ : List Type} {α : Type}

theorem balanced_apply (steps : Nat) (rule : Rule N ε Γ α) (env : Env N ε Γ)
    (frame : Nat) : (apply input steps rule env frame).Balanced := by
  intro session position outcome after applied
  exact context_of_apply applied

/-- The step of the induction: if stamping amounts to putting labels in front for
the rules that references and names lead to, it does for the rules that mention
them. -/
theorem applyStamped_succ_eq_under (grammarWithin : input.grammar.Within .untraced)
    {steps : Nat}
    (again : ∀ {Γ : List Type} {α : Type} (rule : Rule N ε Γ α) (env : Env N ε Γ)
      (frame : Nat), rule.Within .untraced → env.Within .untraced →
      applyStamped input steps rule env frame = (apply input steps rule env frame).under)
    (rule : Rule N ε Γ α) (env : Env N ε Γ) (frame : Nat)
    (within : rule.Within .untraced) (envWithin : env.Within .untraced) :
    applyStamped input (steps + 1) rule env frame =
      (apply input (steps + 1) rule env frame).under := by
  have balanced {Γ : List Type} {α : Type} (rule : Rule N ε Γ α) (env : Env N ε Γ)
      (frame : Nat) : (rule.interpret input (apply input steps) (steps + 1) env
        frame).Balanced := balanced_apply (steps + 1) rule env frame
  show rule.interpretStamped input (applyStamped input steps) (steps + 1) env frame =
    (rule.interpret input (apply input steps) (steps + 1) env frame).under
  induction rule generalizing frame with
  | leaf part => exact (under_leaf within).symm
  | unfinished rule ih =>
      show Matcher.unfinishedStamped _ _ = Matcher.under (.unfinished _ _)
      rw [under_unfinished, ih _ _ within envWithin]
  | map f rule ih =>
      show Matcher.map f _ = Matcher.under (.map f _)
      rw [under_map, ih _ _ within envWithin]
  | flatMap rule next ih ihNext =>
      show Matcher.flatMap _ _ = Matcher.under (.flatMap _ _)
      rw [under_flatMap (balanced _ _ _), ih _ _ within.1 envWithin]
      congr 1
      funext value
      exact ihNext value _ _ (within.2 value) envWithin
  | thenWith combine rule next ih ihNext =>
      show Matcher.thenWith combine _ _ = Matcher.under (.thenWith combine _ _)
      rw [under_thenWith _ (balanced _ _ _), ih _ _ within.1 envWithin,
        ihNext _ _ within.2 envWithin]
  | nonEmpty rule ih =>
      show Matcher.nonEmptyStamped _ = Matcher.under (.nonEmpty _)
      rw [under_nonEmpty (balanced _ _ _), ih _ _ within envWithin]
  | path label rule ih =>
      show Matcher.pathStamped label _ = Matcher.under (.path label _)
      rw [under_path, ih _ _ within envWithin]
  | traced label rule ih => exact within.1.elim
  | orElse rule other ih ihOther =>
      show Matcher.orElse _ _ = Matcher.under (.orElse _ _)
      rw [under_orElse (balanced _ _ _), ih _ _ within.1 envWithin,
        ihOther _ _ within.2 envWithin]
  | slice rule ih =>
      show Matcher.sliceStamped _ _ = Matcher.under (.slice _ _)
      rw [under_slice _ (balanced _ _ _), ih _ _ within envWithin]
  | spanned rule ih =>
      show Matcher.spanned _ = Matcher.under (.spanned _)
      rw [under_spanned, ih _ _ within.2 envWithin]
  | repeated bounds separator item init fold ihSeparator ihItem =>
      show Matcher.repeated bounds _ _ init fold _ =
        Matcher.under (.repeated bounds _ _ init fold _)
      rw [under_repeated (balanced _ _ _) (balanced _ _ _),
        ihSeparator _ _ within.1 envWithin, ihItem _ _ within.2 envWithin]
  | deferred number name =>
      show Interpretation.deferred _ _ _ _ = Matcher.under (Interpretation.deferred _ _ _ _)
      cases found : input.grammar name with
      | error cause =>
          rw [Interpretation.deferred_eq_halted _ found,
            Interpretation.deferred_eq_halted _ found, under_halted]
      | ok rule =>
          rw [Interpretation.deferred_eq_framed _ found,
            Interpretation.deferred_eq_framed _ found, under_framed]
          have ruleWithin := grammarWithin name rule found
          congr 1
          funext frame
          exact again rule .nil frame ruleWithin trivial
  | delayed number rule ih =>
      show Matcher.framed _ _ = Matcher.under (.framed _ _)
      rw [under_framed]
      congr 1
      funext _
      exact ih _ frame within envWithin
  | fresh rule ih =>
      show Matcher.framed Cells.openFrame _ = Matcher.under (.framed Cells.openFrame _)
      rw [under_framed]
      congr 1
      funext frame
      exact ih _ frame within envWithin
  | reference place =>
      show Interpretation.referenceStamped _ _ _ = Matcher.under (Interpretation.reference _ _ _)
      unfold Interpretation.referenceStamped Interpretation.reference
      obtain ⟨found, _⟩ | ⟨found, _⟩ |
        ⟨_, body, inner, _, frame, _, found, _, bodyWithin, innerWithin, _⟩ :=
        (Env.Alike.refl env).lookup envWithin place
      · rw [found, under_refuse]
      · rw [found, under_refuse]
      · rw [found]
        exact again body inner frame bodyWithin innerWithin
  | recursive body ih =>
      refine ih _ _ within ⟨?_, envWithin⟩
      intro found defined
      cases defined
      exact within

/-- Stamping failures amounts to putting in front of their paths, in the end, the
labels that were active at the start. -/
theorem applyStamped_eq_under (grammarWithin : input.grammar.Within .untraced)
    (steps : Nat) (rule : Rule N ε Γ α) (env : Env N ε Γ) (frame : Nat)
    (within : rule.Within .untraced) (envWithin : env.Within .untraced) :
    applyStamped input steps rule env frame = (apply input steps rule env frame).under := by
  induction steps generalizing Γ α frame with
  | zero => rfl
  | succ steps ih =>
      exact applyStamped_succ_eq_under grammarWithin ih rule env frame within envWithin

/-- With no label active at the start, stamping failures when they arise and
labelling them when named rules are left come to the same. With the same
allowance of steps not even the sessions differ. -/
theorem stamping_agrees_with_rewriting (grammarWithin : input.grammar.Within .untraced)
    {rule : Rule N ε Γ α} (within : rule.Within .untraced)
    {env : Env N ε Γ} (envWithin : env.Within .untraced) :
    (∀ steps frame (session : Session) position, session.context = ∅ →
      applyStamped input steps rule env frame session position =
        apply input steps rule env frame session position) ∧
    ∀ {steps steps' frame frame' position : Nat} {session session' after after' : Session}
      {outcome outcome' : Outcome α}, session.context = ∅ → session'.context = ∅ →
      apply input steps rule env frame session position = .ok (outcome, after) →
      applyStamped input steps' rule env frame' session' position = .ok (outcome', after') →
      outcome' = outcome := by
  have same (steps frame : Nat) (session : Session) (position : Nat)
      (inactive : session.context = ∅) :
      applyStamped input steps rule env frame session position =
        apply input steps rule env frame session position := by
    rw [applyStamped_eq_under grammarWithin steps rule env frame within envWithin]
    exact under_apply_of_inactive inactive position
  refine ⟨same, ?_⟩
  intro steps steps' frame frame' position session session' after after' outcome outcome'
    inactive inactive' rewritten stamped
  rw [same steps' frame' session' position inactive'] at stamped
  let setting : Setting N ε Γ := ⟨input, env, ∅⟩
  have yields : rule.Yields setting position outcome := yields_of_apply inactive rewritten
  have yields' : rule.Yields setting position outcome' := yields_of_apply inactive' stamped
  exact yields'.unique yields

/-- One or more positive numbers, in a rule with a name. -/
def namedNumber {Γ : List Type} : Rule .none Int Γ (Array Int) :=
  .path "number" (.nonEmpty (.slice (.skipMany .any (.nextIf (0 < ·)))))

/-- Lists of at least two members, which are numbers or lists. A list starts with
`0` and ends with `-1`, and `-2` separates its members. -/
def namedLists : Rule .none Int [] (Array Int) :=
  .recursive (.path "list" (.map Array.flatten
    (enclose (token 0) (token (-1))
      (collect (.separatedBy (token (-2)) (.atLeast 2))
        (namedNumber.orElse (.reference .here))))))

theorem within_namedLists : namedLists.Within .untraced := by
  refine within_enclose Fragment.lenient_untraced trivial trivial ?_
  refine within_foldMany Fragment.lenient_untraced _ _ ?_ ⟨?_, trivial⟩
  · intro separator separated
    cases separated
    trivial
  · refine within_foldMany Fragment.lenient_untraced _ _ ?_ trivial
    intro separator separated
    cases separated

/-- The second member of the inner list is missing. Three failures arise below
one, two and three lists. -/
theorem namedLists_agrees :
    namedLists.Within .untraced ∧ (Session.initial.context = ∅) ∧
      applyStamped ⟨#[0, 3, -2, 0, -1], .empty, .off⟩ 6 namedLists .nil 0 .initial 0 =
        .ok (.rejected ⟨⟨["list", "number"], "rule succeeded but consumed no input", 3⟩,
          [⟨["list", "list", "number"], "rule succeeded but consumed no input", 4⟩,
            ⟨["list", "list", "list"], "expected 0, got -1", 4⟩]⟩, .initial) := by
  refine ⟨within_namedLists, rfl, ?_⟩
  rw [(stamping_agrees_with_rewriting (Grammar.within_empty _) within_namedLists
    (by trivial)).1 6 0 .initial 0 rfl]
  rfl

end Rule

end Rulebook
