/-
# What a rule comes to

How an application is carried out does not matter to its outcome. A larger
allowance of steps, other cells and frames, another trace or verbosity: if
there is an outcome at all, it is the same one. Only the source, the rules
around and the active labels count, and the labels are again what they were
when the application is over.

So the outcome of a rule at a position is a relation without sessions and
steps, which has at most one outcome for each position, and which follows the
structure of rules.
-/

import Rulebook.Proofs.Fragment
import Rulebook.Rule.Combinators

namespace Rulebook

namespace Session

@[simp]
theorem context_record (session : Session) (verbosity : Verbosity) (entry : Record) :
    (session.record verbosity entry).context = session.context := by
  unfold record
  split <;> rfl

theorem context_enter_congr {session session' : Session}
    (same : session'.context = session.context) (label : String) :
    (session'.enter label).2.context = (session.enter label).2.context := by
  simp [enter, same]

/-- A label that is taken off again leaves the stack as it was. -/
theorem context_release_enter {session inner : Session} {label : String}
    (balanced : inner.context = (session.enter label).2.context) :
    (inner.release (session.enter label).1).context = session.context := by
  simp [release, balanced, enter]

end Session

namespace Matcher

variable {ε α β : Type}

/-- Every outcome of the left matcher is one of the right matcher too, from any
session with the same labels, and both leave the labels as they were. -/
def Settles (matcher matcher' : Matcher α) : Prop :=
  ∀ ⦃session session' : Session⦄ ⦃position : Nat⦄ ⦃outcome : Outcome α⦄
    ⦃after : Session⦄, session'.context = session.context →
    matcher session position = .ok (outcome, after) →
    after.context = session.context ∧
      ∃ after', matcher' session' position = .ok (outcome, after') ∧
        after'.context = session.context

variable {matcher matcher' other other' : Matcher α}

/-- What is halted has no outcomes. -/
theorem Settles.halted (cause : Halt) : (Matcher.halted cause).Settles matcher := by
  intro session session' position outcome after same applied
  cases applied

theorem Settles.revised (settles : matcher.Settles matcher')
    (judge : Nat → α → Nat → Outcome β) :
    (matcher.revised judge).Settles (matcher'.revised judge) := by
  intro session session' position outcome after same applied
  obtain ⟨found, first, rfl⟩ := revised_eq_ok_iff.mp applied
  obtain ⟨balanced, after', first', balanced'⟩ := settles same first
  exact ⟨balanced, after', revised_eq_ok_iff.mpr ⟨found, first', rfl⟩, balanced'⟩

theorem Settles.flatMap {next next' : α → Matcher β} (settles : matcher.Settles matcher')
    (settlesNext : ∀ value, (next value).Settles (next' value)) :
    (matcher.flatMap next).Settles (matcher'.flatMap next') := by
  intro session session' position outcome after same applied
  obtain ⟨value, stop, between, first, second⟩ | ⟨failures, first, rfl⟩ :=
    flatMap_eq_ok_iff.mp applied
  · obtain ⟨balanced, between', first', balanced'⟩ := settles same first
    obtain ⟨kept, after', second', kept'⟩ :=
      settlesNext value (balanced'.trans balanced.symm) second
    exact ⟨kept.trans balanced, after',
      flatMap_eq_ok_iff.mpr (.inl ⟨value, stop, between', first', second'⟩),
      kept'.trans balanced⟩
  · obtain ⟨balanced, after', first', balanced'⟩ := settles same first
    exact ⟨balanced, after',
      flatMap_eq_ok_iff.mpr (.inr ⟨failures, first', rfl⟩), balanced'⟩

theorem Settles.path (settles : matcher.Settles matcher') (label : String) :
    (matcher.path label).Settles (matcher'.path label) := by
  intro session session' position outcome after same applied
  obtain ⟨found, inner, first, rfl, rfl⟩ := path_eq_ok_iff.mp applied
  obtain ⟨balanced, inner', first', balanced'⟩ :=
    settles (Session.context_enter_congr same label) first
  refine ⟨Session.context_release_enter balanced, _,
    path_eq_ok_iff.mpr ⟨found, inner', first', rfl, rfl⟩, ?_⟩
  rw [Session.context_release_enter, same]
  rw [balanced', Session.context_enter_congr same]

theorem Settles.traced (settles : matcher.Settles matcher')
    (verbosity verbosity' : Verbosity) (label : String) :
    (matcher.traced verbosity label).Settles (matcher'.traced verbosity' label) := by
  intro session session' position outcome after same applied
  obtain ⟨inner, first, rfl⟩ := traced_eq_ok_iff.mp applied
  have sameInner := Session.context_enter_congr same label
  have sameRecorded :
      ((session'.enter label).2.record verbosity'
        (.trying (session'.enter label).2.context.path position)).context =
      ((session.enter label).2.record verbosity
        (.trying (session.enter label).2.context.path position)).context := by
    simpa using sameInner
  obtain ⟨balanced, inner', first', balanced'⟩ := settles sameRecorded first
  rw [Session.context_record] at balanced balanced'
  refine ⟨Session.context_release_enter (by simpa using balanced), _,
    traced_eq_ok_iff.mpr ⟨inner', first', rfl⟩, ?_⟩
  rw [Session.context_release_enter, same]
  rw [Session.context_record, balanced', sameInner]

theorem Settles.orElse (settles : matcher.Settles matcher')
    (settlesOther : other.Settles other') :
    (matcher.orElse other).Settles (matcher'.orElse other') := by
  intro session session' position outcome after same applied
  obtain ⟨kept, between, candidate, first, second, rfl⟩ := orElse_eq_ok_iff.mp applied
  obtain ⟨balanced, between', first', balanced'⟩ := settles same first
  obtain ⟨done, after', second', done'⟩ :=
    settlesOther (balanced'.trans balanced.symm) second
  exact ⟨done.trans balanced, after',
    orElse_eq_ok_iff.mpr ⟨kept, between', candidate, first', second', rfl⟩,
    done'.trans balanced⟩

/-- A repetition that came to an end does so with more steps too. -/
theorem Settles.repeatFrom {item item' next next' : Matcher α} {bounds : Bounds}
    (settlesItem : item.Settles item') (settlesNext : next.Settles next')
    (fold : β → α → β) {steps steps' : Nat} (enough : steps ≤ steps') (count : Nat)
    (acc : β) :
    (repeatFrom bounds item next fold steps count acc).Settles
      (repeatFrom bounds item' next' fold steps' count acc) := by
  induction steps generalizing steps' count acc with
  | zero =>
      intro session session' position outcome after same applied
      cases applied
  | succ steps ih =>
      intro session session' position outcome after same applied
      obtain ⟨steps', rfl⟩ : ∃ more, steps' = more + 1 := ⟨steps' - 1, by omega⟩
      have attempt : (if count = 0 then item else next).Settles
          (if count = 0 then item' else next') := by
        split <;> assumption
      obtain ⟨full, rfl, rfl⟩ | ⟨room, ⟨value, stop, between, attempted, goesOn⟩ |
        ⟨failures, attempted, rfl⟩⟩ := repeatFrom_succ_eq_ok_iff.mp applied
      · exact ⟨rfl, session', repeatFrom_succ_eq_ok_iff.mpr (.inl ⟨full, rfl, rfl⟩), same⟩
      · obtain ⟨balanced, between', attempted', balanced'⟩ := attempt same attempted
        obtain ⟨kept, after', goesOn', kept'⟩ := ih (Nat.le_of_succ_le_succ enough) _ _
          (balanced'.trans balanced.symm) goesOn
        refine ⟨kept.trans balanced, after', ?_, kept'.trans balanced⟩
        exact repeatFrom_succ_eq_ok_iff.mpr
          (.inr ⟨room, .inl ⟨value, stop, between', attempted', goesOn'⟩⟩)
      · obtain ⟨balanced, after', attempted', balanced'⟩ := attempt same attempted
        refine ⟨balanced, after', ?_, balanced'⟩
        exact repeatFrom_succ_eq_ok_iff.mpr
          (.inr ⟨room, .inr ⟨failures, attempted', rfl⟩⟩)

/-- Every combination settles if its parts do. -/
theorem settles_congruence {N : Nonterminals} {input input' : Input N ε}
    (sameSource : input'.source = input.source) {steps steps' : Nat}
    (enough : steps ≤ steps') :
    Congruence .all input input' steps steps' Settles where
  halted cause := .halted cause
  refuse message := by
    intro session session' position outcome after same applied
    cases applied
    exact ⟨rfl, session', rfl, same⟩
  leaf part _ := by
    intro session session' position outcome after same applied
    obtain ⟨judged, rfl⟩ := leaf_eq_ok_iff.mp applied
    refine ⟨rfl, session', leaf_eq_ok_iff.mpr ⟨?_, rfl⟩, same⟩
    rw [sameSource, same, judged]
  unfinished settles := by
    intro session session' position outcome after same applied
    rw [sameSource]
    obtain ⟨inside, first⟩ | ⟨behind, rfl, rfl⟩ := unfinished_eq_ok_iff.mp applied
    · obtain ⟨balanced, after', first', balanced'⟩ := settles same first
      exact ⟨balanced, after', unfinished_eq_ok_iff.mpr (.inl ⟨inside, first'⟩), balanced'⟩
    · exact ⟨rfl, session', unfinished_eq_ok_iff.mpr (.inr ⟨behind, rfl, rfl⟩), same⟩
  map f _ _ settles := by
    rw [map_eq_revised, map_eq_revised]
    exact settles.revised _
  flatMap settles settlesNext := settles.flatMap settlesNext
  nonEmpty settles := by
    rw [nonEmpty_eq_revised, nonEmpty_eq_revised]
    exact settles.revised _
  path label _ _ settles := settles.path label
  traced _ label _ _ settles := settles.traced _ _ label
  orElse settles settlesOther := settles.orElse settlesOther
  slice settles := by
    rw [slice_eq_revised, slice_eq_revised, sameSource]
    exact settles.revised _
  spanned _ _ _ settles := by
    rw [spanned_eq_revised, spanned_eq_revised]
    exact settles.revised _
  repeated bounds _ _ _ _ init fold settlesSeparator settlesItem := by
    refine settlesItem.repeatFrom ?_ fold enough 0 init
    rw [thenWith_eq_flatMap, thenWith_eq_flatMap]
    refine settlesSeparator.flatMap fun _ => ?_
    rw [map_eq_revised, map_eq_revised]
    exact settlesItem.revised _
  framed choose choose' _ _ settles := by
    intro session session' position outcome after same applied
    have settled := settles (choose session.cells).1 (choose' session'.cells).1
    exact @settled { session with cells := (choose session.cells).2 }
      { session' with cells := (choose' session'.cells).2 } position outcome after
      same applied

end Matcher

variable {N : Nonterminals} {ε : Type} {Γ : List Type} {α β γ : Type}

namespace Rule

/-- An application with an outcome has it with more steps too, in any frame and
from any session with the same labels. -/
theorem apply_settles {input : Input N ε} {steps steps' : Nat}
    (enough : steps ≤ steps') (rule : Rule N ε Γ α) {env env' : Env N ε Γ}
    (alike : env.Alike env') (frame frame' : Nat) :
    (apply input steps rule env frame).Settles (apply input steps' rule env' frame') := by
  have grammarAll : input.grammar.Within .all := fun _ rule _ => within_all rule
  induction steps generalizing steps' Γ α frame frame' with
  | zero => exact .halted .exhausted
  | succ steps ih =>
      obtain ⟨steps', rfl⟩ : ∃ more, steps' = more + 1 := ⟨steps' - 1, by omega⟩
      exact interpret_related (Matcher.settles_congruence rfl enough) rfl grammarAll
        (fun rule env env' frame frame' _ _ alike =>
          ih (Nat.le_of_succ_le_succ enough) rule alike frame frame')
        rule env env' frame frame' (within_all rule) (Env.within_all env) alike

/-- An application leaves the active labels as they were. -/
theorem context_of_apply {input : Input N ε} {steps : Nat} {rule : Rule N ε Γ α}
    {env : Env N ε Γ} {frame position : Nat} {session after : Session}
    {outcome : Outcome α}
    (applied : apply input steps rule env frame session position =
      .ok (outcome, after)) :
    after.context = session.context :=
  (apply_settles (Nat.le_refl steps) rule (.refl env) frame frame rfl applied).1

end Rule

/-- What decides the outcome of a rule at a position. -/
structure Setting (N : Nonterminals) (ε : Type) (Γ : List Type) : Type 1 where
  input : Input N ε
  env : Env N ε Γ
  context : Context

namespace Setting

/-- The number of elements of the source. -/
def size (setting : Setting N ε Γ) : Nat :=
  setting.input.source.size

/-- A session in which nothing has been built or reported yet. -/
def session (setting : Setting N ε Γ) : Session :=
  ⟨setting.context, #[], .initial⟩

/-- With one more active label. -/
def entered (setting : Setting N ε Γ) (label : String) : Setting N ε Γ :=
  { setting with context := (setting.context.enter label).2 }

end Setting

namespace Rule

variable {setting : Setting N ε Γ} {rule other : Rule N ε Γ α} {position : Nat}
  {outcome : Outcome α}

/-- Applied at a position, the rule comes to the outcome, from every session
with the active labels and in every frame, as soon as enough steps are
allowed. -/
def Yields (setting : Setting N ε Γ) (rule : Rule N ε Γ α) (position : Nat)
    (outcome : Outcome α) : Prop :=
  ∃ enough, ∀ steps, enough ≤ steps → ∀ (frame : Nat) (session : Session),
    session.context = setting.context →
      ∃ after, apply setting.input steps rule setting.env frame session position =
          .ok (outcome, after) ∧ after.context = setting.context

/-- One application with an outcome is enough. -/
theorem yields_of_apply {steps frame : Nat} {session after : Session}
    (active : session.context = setting.context)
    (applied : apply setting.input steps rule setting.env frame session position =
      .ok (outcome, after)) :
    rule.Yields setting position outcome := by
  refine ⟨steps, fun steps' enough frame' session' active' => ?_⟩
  obtain ⟨_, after', applied', balanced⟩ := apply_settles enough rule
    (.refl setting.env) frame frame' (active'.trans active.symm) applied
  exact ⟨after', applied', balanced.trans active⟩

/-- A rule comes to what it comes to from the session without a past. -/
theorem yields_iff_apply :
    rule.Yields setting position outcome ↔
      ∃ steps after, apply setting.input (steps + 1) rule setting.env 0 setting.session
        position = .ok (outcome, after) := by
  refine ⟨fun holds => ?_, fun holds => ?_⟩
  · rcases holds with ⟨enough, run⟩
    obtain ⟨after, applied, _⟩ := run (enough + 1) (by omega) 0 setting.session rfl
    exact ⟨enough, after, applied⟩
  · rcases holds with ⟨steps, after, applied⟩
    exact yields_of_apply rfl applied

/-- A rule comes to one outcome at most. -/
theorem Yields.unique {outcome' : Outcome α} (yields : rule.Yields setting position outcome)
    (yields' : rule.Yields setting position outcome') : outcome = outcome' := by
  obtain ⟨enough, run⟩ := yields
  obtain ⟨enough', run'⟩ := yields'
  obtain ⟨_, applied, _⟩ :=
    run (max enough enough') (Nat.le_max_left _ _) 0 setting.session rfl
  obtain ⟨_, applied', _⟩ :=
    run' (max enough enough') (Nat.le_max_right _ _) 0 setting.session rfl
  rw [applied] at applied'
  cases applied'
  rfl

/-! ## Outcomes follow the structure of rules -/

theorem apply_leaf (input : Input N ε) (steps : Nat) (part : Leaf ε α)
    (env : Env N ε Γ) (frame : Nat) :
    apply input (steps + 1) (.leaf part) env frame = .leaf input.source part := rfl

theorem apply_map (input : Input N ε) (steps : Nat) (f : α → β)
    (rule : Rule N ε Γ α) (env : Env N ε Γ) (frame : Nat) :
    apply input (steps + 1) (.map f rule) env frame =
      .map f (apply input (steps + 1) rule env frame) := rfl

theorem apply_flatMap (input : Input N ε) (steps : Nat) (rule : Rule N ε Γ α)
    (next : α → Rule N ε Γ β) (env : Env N ε Γ) (frame : Nat) :
    apply input (steps + 1) (.flatMap rule next) env frame =
      .flatMap (apply input (steps + 1) rule env frame)
        fun value => apply input (steps + 1) (next value) env frame := rfl

theorem apply_thenWith (input : Input N ε) (steps : Nat) (combine : α → β → γ)
    (rule : Rule N ε Γ α) (next : Rule N ε Γ β) (env : Env N ε Γ) (frame : Nat) :
    apply input (steps + 1) (.thenWith combine rule next) env frame =
      .thenWith combine (apply input (steps + 1) rule env frame)
        (apply input (steps + 1) next env frame) := rfl

theorem apply_nonEmpty (input : Input N ε) (steps : Nat) (rule : Rule N ε Γ α)
    (env : Env N ε Γ) (frame : Nat) :
    apply input (steps + 1) (.nonEmpty rule) env frame =
      .nonEmpty (apply input (steps + 1) rule env frame) := rfl

theorem apply_orElse (input : Input N ε) (steps : Nat) (rule other : Rule N ε Γ α)
    (env : Env N ε Γ) (frame : Nat) :
    apply input (steps + 1) (.orElse rule other) env frame =
      .orElse (apply input (steps + 1) rule env frame)
        (apply input (steps + 1) other env frame) := rfl

theorem apply_unfinished (input : Input N ε) (steps : Nat) (rule : Rule N ε Γ α)
    (env : Env N ε Γ) (frame : Nat) :
    apply input (steps + 1) (.unfinished rule) env frame =
      .unfinished input.source.size (apply input (steps + 1) rule env frame) := rfl

theorem apply_path (input : Input N ε) (steps : Nat) (label : String)
    (rule : Rule N ε Γ α) (env : Env N ε Γ) (frame : Nat) :
    apply input (steps + 1) (.path label rule) env frame =
      .path label (apply input (steps + 1) rule env frame) := rfl

theorem apply_traced (input : Input N ε) (steps : Nat) (label : String)
    (rule : Rule N ε Γ α) (env : Env N ε Γ) (frame : Nat) :
    apply input (steps + 1) (.traced label rule) env frame =
      .traced input.verbosity label (apply input (steps + 1) rule env frame) := rfl

theorem apply_slice (input : Input N ε) (steps : Nat) (rule : Rule N ε Γ α)
    (env : Env N ε Γ) (frame : Nat) :
    apply input (steps + 1) (.slice rule) env frame =
      .slice input.source (apply input (steps + 1) rule env frame) := rfl

theorem apply_spanned (input : Input N ε) (steps : Nat) (rule : Rule N ε Γ α)
    (env : Env N ε Γ) (frame : Nat) :
    apply input (steps + 1) (.spanned rule) env frame =
      .spanned (apply input (steps + 1) rule env frame) := rfl

theorem apply_delayed (input : Input N ε) (steps number : Nat) (rule : Rule N ε Γ α)
    (env : Env N ε Γ) (frame : Nat) :
    apply input (steps + 1) (.delayed number rule) env frame =
      .framed (Cells.frameOf ⟨frame, number⟩)
        fun _ => apply input (steps + 1) rule env frame := rfl

theorem apply_fresh (input : Input N ε) (steps : Nat) (rule : Rule N ε Γ α)
    (env : Env N ε Γ) (frame : Nat) :
    apply input (steps + 1) (.fresh rule) env frame =
      .framed Cells.openFrame (apply input (steps + 1) rule env) := rfl

theorem yields_leaf_iff {part : Leaf ε α} :
    (leaf part : Rule N ε Γ α).Yields setting position outcome ↔
      part.apply setting.input.source setting.context position = .ok outcome := by
  simp only [yields_iff_apply, apply_leaf, Matcher.leaf_eq_ok_iff]
  refine ⟨fun holds => ?_, fun judged => ?_⟩
  · rcases holds with ⟨_, _, judged, _⟩
    exact judged
  · exact ⟨0, _, judged, rfl⟩

/-- A rule that looks at the acceptances of another one again. -/
theorem yields_revised_iff {looks : Rule N ε Γ β} {judge : Nat → α → Nat → Outcome β}
    {outcome : Outcome β}
    (revises : ∀ steps frame, apply setting.input (steps + 1) looks setting.env frame =
      (apply setting.input (steps + 1) rule setting.env frame).revised judge) :
    looks.Yields setting position outcome ↔
      ∃ found, rule.Yields setting position found ∧
        outcome = found.revise (judge position) := by
  simp only [yields_iff_apply, revises, Matcher.revised_eq_ok_iff]
  refine ⟨fun holds => ?_, fun holds => ?_⟩
  · rcases holds with ⟨steps, after, found, first, revised⟩
    exact ⟨found, ⟨steps, after, first⟩, revised⟩
  · rcases holds with ⟨found, ⟨steps, after, first⟩, revised⟩
    exact ⟨steps, after, found, first, revised⟩

theorem yields_map_iff {f : α → β} {outcome : Outcome β} :
    (rule.map f).Yields setting position outcome ↔
      ∃ found, rule.Yields setting position found ∧ outcome = found.map f := by
  have revises (steps frame : Nat) :
      apply setting.input (steps + 1) (rule.map f) setting.env frame =
        (apply setting.input (steps + 1) rule setting.env frame).revised
          fun _ value stop => .accepted (f value) stop := by
    rw [apply_map, Matcher.map_eq_revised]
  simp only [yields_revised_iff revises, Outcome.revise_eq_map]

theorem yields_map_accepted_iff {f : α → β} {result : β} {stop : Nat} :
    (rule.map f).Yields setting position (.accepted result stop) ↔
      ∃ value, rule.Yields setting position (.accepted value stop) ∧ result = f value := by
  rw [yields_map_iff]
  refine ⟨?_, fun ⟨value, yields, same⟩ => ⟨_, yields, by rw [same]; rfl⟩⟩
  intro holds
  rcases holds with ⟨⟨value, reach⟩ | failures, yields, same⟩ <;> cases same
  exact ⟨value, yields, rfl⟩

theorem yields_map_rejected_iff {f : α → β} {failures : Failures} :
    (rule.map f).Yields setting position (.rejected failures) ↔
      rule.Yields setting position (.rejected failures) := by
  rw [yields_map_iff]
  refine ⟨?_, fun yields => ⟨_, yields, rfl⟩⟩
  intro holds
  rcases holds with ⟨⟨value, reach⟩ | failures, yields, same⟩ <;> cases same
  exact yields

theorem yields_nonEmpty_iff :
    rule.nonEmpty.Yields setting position outcome ↔
      ∃ found, rule.Yields setting position found ∧
        outcome = found.revise (Matcher.judgeNonEmpty position) :=
  yields_revised_iff fun steps frame => by
    rw [apply_nonEmpty, Matcher.nonEmpty_eq_revised]

/-- Only what moves the cursor forward passes the check for progress. -/
theorem yields_nonEmpty_accepted_iff {value : α} {stop : Nat} :
    rule.nonEmpty.Yields setting position (.accepted value stop) ↔
      rule.Yields setting position (.accepted value stop) ∧ position < stop := by
  rw [yields_nonEmpty_iff]
  constructor
  · rintro ⟨⟨found, reach⟩ | failures, yields, judged⟩
    · simp only [Outcome.revise_accepted, Matcher.judgeNonEmpty] at judged
      split at judged
      · cases judged
      · cases judged
        exact ⟨yields, by omega⟩
    · cases judged
  · rintro ⟨yields, forward⟩
    refine ⟨_, yields, ?_⟩
    simp only [Outcome.revise_accepted, Matcher.judgeNonEmpty]
    rw [if_neg (Nat.not_le.mpr forward)]

/-- A continuation is applied where the first rule stopped. -/
theorem yields_flatMap_iff {next : α → Rule N ε Γ β} {outcome : Outcome β} :
    (rule.flatMap next).Yields setting position outcome ↔
      (∃ value stop, rule.Yields setting position (.accepted value stop) ∧
        (next value).Yields setting stop outcome) ∨
      ∃ failures, rule.Yields setting position (.rejected failures) ∧
        outcome = .rejected failures := by
  refine ⟨?_, fun holds => ?_⟩
  · rw [yields_iff_apply]
    intro holds
    rcases holds with ⟨steps, after, applied⟩
    rw [apply_flatMap] at applied
    obtain ⟨value, stop, between, first, second⟩ | ⟨failures, first, rfl⟩ :=
      Matcher.flatMap_eq_ok_iff.mp applied
    · exact .inl ⟨value, stop, yields_of_apply rfl first,
        yields_of_apply (context_of_apply first) second⟩
    · exact .inr ⟨failures, yields_of_apply rfl first, rfl⟩
  · rcases holds with ⟨value, stop, ⟨enough, run⟩, ⟨enoughNext, runNext⟩⟩ |
      ⟨failures, ⟨enough, run⟩, rfl⟩
    · obtain ⟨between, first, active⟩ :=
        run (max enough enoughNext + 1) (by omega) 0 setting.session rfl
      obtain ⟨after, second, _⟩ :=
        runNext (max enough enoughNext + 1) (by omega) 0 between active
      refine yields_iff_apply.mpr ⟨max enough enoughNext, after, ?_⟩
      rw [apply_flatMap]
      exact Matcher.flatMap_eq_ok_iff.mpr (.inl ⟨value, stop, between, first, second⟩)
    · obtain ⟨after, first, _⟩ := run (enough + 1) (by omega) 0 setting.session rfl
      refine yields_iff_apply.mpr ⟨enough, after, ?_⟩
      rw [apply_flatMap]
      exact Matcher.flatMap_eq_ok_iff.mpr (.inr ⟨failures, first, rfl⟩)

/-- In a sequence the second rule goes on where the first one stopped. -/
theorem yields_thenWith_iff {combine : α → β → γ} {next : Rule N ε Γ β}
    {outcome : Outcome γ} :
    (rule.thenWith combine next).Yields setting position outcome ↔
      (∃ value stop found, rule.Yields setting position (.accepted value stop) ∧
        next.Yields setting stop found ∧ outcome = found.map (combine value)) ∨
      ∃ failures, rule.Yields setting position (.rejected failures) ∧
        outcome = .rejected failures := by
  have sequenced : (rule.thenWith combine next).Yields setting position outcome ↔
      (rule.flatMap fun value => next.map (combine value)).Yields setting position
        outcome := by
    simp only [yields_iff_apply, apply_thenWith, apply_flatMap, apply_map,
      Matcher.thenWith_eq_flatMap]
  rw [sequenced, yields_flatMap_iff]
  simp only [yields_map_iff]
  refine ⟨fun holds => ?_, fun holds => ?_⟩
  · rcases holds with ⟨value, stop, first, found, second, mapped⟩ | rejects
    · exact .inl ⟨value, stop, found, first, second, mapped⟩
    · exact .inr rejects
  · rcases holds with ⟨value, stop, found, first, second, mapped⟩ | rejects
    · exact .inl ⟨value, stop, first, found, second, mapped⟩
    · exact .inr rejects

theorem yields_thenWith_accepted_iff {combine : α → β → γ} {next : Rule N ε Γ β}
    {result : γ} {stop : Nat} :
    (rule.thenWith combine next).Yields setting position (.accepted result stop) ↔
      ∃ value middle last, rule.Yields setting position (.accepted value middle) ∧
        next.Yields setting middle (.accepted last stop) ∧ result = combine value last := by
  rw [yields_thenWith_iff]
  refine ⟨?_, fun ⟨value, middle, last, first, second, same⟩ =>
    .inl ⟨value, middle, _, first, second, by rw [same]; rfl⟩⟩
  intro holds
  rcases holds with ⟨value, middle, ⟨last, reach⟩ | failures, first, second, same⟩ |
    ⟨_, _, same⟩ <;>
    cases same
  exact ⟨value, middle, last, first, second, rfl⟩

theorem yields_thenWith_rejected_iff {combine : α → β → γ} {next : Rule N ε Γ β}
    {failures : Failures} :
    (rule.thenWith combine next).Yields setting position (.rejected failures) ↔
      rule.Yields setting position (.rejected failures) ∨
      ∃ value middle, rule.Yields setting position (.accepted value middle) ∧
        next.Yields setting middle (.rejected failures) := by
  rw [yields_thenWith_iff]
  refine ⟨fun holds => ?_, fun holds => ?_⟩
  · rcases holds with ⟨value, middle, ⟨last, reach⟩ | _, first, second, same⟩ |
      ⟨_, first, same⟩ <;>
      cases same
    · exact .inr ⟨value, middle, first, second⟩
    · exact .inl first
  · rcases holds with first | ⟨value, middle, first, second⟩
    · exact .inr ⟨failures, first, rfl⟩
    · exact .inl ⟨value, middle, _, first, second, rfl⟩

theorem yields_accept_iff {value : α} {outcome : Outcome α} :
    (accept value : Rule N ε Γ α).Yields setting position outcome ↔
      outcome = .accepted value position := by
  rw [accept, yields_leaf_iff]
  simp [Leaf.apply, eq_comm]

/-- Of two alternatives both are applied at the same position. -/
theorem yields_orElse_iff :
    (rule.orElse other).Yields setting position outcome ↔
      ∃ kept candidate, rule.Yields setting position kept ∧
        other.Yields setting position candidate ∧ outcome = kept.best candidate := by
  refine ⟨?_, fun holds => ?_⟩
  · rw [yields_iff_apply]
    intro holds
    rcases holds with ⟨steps, after, applied⟩
    rw [apply_orElse] at applied
    obtain ⟨kept, between, candidate, first, second, better⟩ :=
      Matcher.orElse_eq_ok_iff.mp applied
    exact ⟨kept, candidate, yields_of_apply rfl first,
      yields_of_apply (context_of_apply first) second, better⟩
  · rcases holds with ⟨kept, candidate, ⟨enough, run⟩, ⟨enoughOther, runOther⟩, rfl⟩
    obtain ⟨between, first, active⟩ :=
      run (max enough enoughOther + 1) (by omega) 0 setting.session rfl
    obtain ⟨after, second, _⟩ :=
      runOther (max enough enoughOther + 1) (by omega) 0 between active
    refine yields_iff_apply.mpr ⟨max enough enoughOther, after, ?_⟩
    rw [apply_orElse]
    exact Matcher.orElse_eq_ok_iff.mpr ⟨kept, between, candidate, first, second, rfl⟩

theorem yields_unfinished_iff :
    rule.unfinished.Yields setting position outcome ↔
      (position < setting.size ∧ rule.Yields setting position outcome) ∨
        (setting.size ≤ position ∧
          outcome = .reject (outOfRange setting.size position) position) := by
  simp only [yields_iff_apply, apply_unfinished, Matcher.unfinished_eq_ok_iff]
  refine ⟨fun holds => ?_, fun holds => ?_⟩
  · rcases holds with ⟨steps, after, ⟨inside, applied⟩ | ⟨behind, rejects, _⟩⟩
    · exact .inl ⟨inside, steps, after, applied⟩
    · exact .inr ⟨behind, rejects⟩
  · rcases holds with ⟨inside, steps, after, applied⟩ | ⟨behind, rejects⟩
    · exact ⟨steps, after, .inl ⟨inside, applied⟩⟩
    · exact ⟨0, _, .inr ⟨behind, rejects, rfl⟩⟩

theorem yields_slice_iff {outcome : Outcome (Array ε)} :
    rule.slice.Yields setting position outcome ↔
      ∃ found, rule.Yields setting position found ∧
        outcome = found.revise (Matcher.judgeSlice setting.input.source position) :=
  yields_revised_iff fun steps frame => by rw [apply_slice, Matcher.slice_eq_revised]

theorem yields_spanned_iff {outcome : Outcome (Spanned α)} :
    rule.spanned.Yields setting position outcome ↔
      ∃ found, rule.Yields setting position found ∧
        outcome = found.revise fun value stop => .accepted ⟨value, position, stop⟩ stop := by
  have revises (steps frame : Nat) :
      apply setting.input (steps + 1) rule.spanned setting.env frame =
        (apply setting.input (steps + 1) rule setting.env frame).revised
          fun position value stop => .accepted ⟨value, position, stop⟩ stop := by
    rw [apply_spanned, Matcher.spanned_eq_revised]
  exact yields_revised_iff revises

/-- A value is given the ends of what was consumed for it. -/
theorem yields_spanned_accepted_iff {found : Spanned α} {stop : Nat} :
    rule.spanned.Yields setting position (.accepted found stop) ↔
      rule.Yields setting position (.accepted found.value stop) ∧
        found.start = position ∧ found.stop = stop := by
  rw [yields_spanned_iff]
  constructor
  · rintro ⟨⟨value, reach⟩ | failures, yields, judged⟩
    · cases judged
      exact ⟨yields, rfl, rfl⟩
    · cases judged
  · rintro ⟨yields, rfl, rfl⟩
    exact ⟨_, yields, rfl⟩

/-- Below a label the rule is applied with the label active. -/
theorem yields_path_iff {label : String} :
    (rule.path label).Yields setting position outcome ↔
      ∃ found, rule.Yields (setting.entered label) position found ∧
        outcome = found.withPath label := by
  refine ⟨fun yields => ?_, fun holds => ?_⟩
  · obtain ⟨steps, after, applied⟩ := yields_iff_apply.mp yields
    rw [apply_path] at applied
    obtain ⟨found, inner, first, labelled, _⟩ := Matcher.path_eq_ok_iff.mp applied
    have active : (setting.session.enter label).2.context =
        (setting.entered label).context := rfl
    exact ⟨found, yields_of_apply active first, labelled⟩
  · rcases holds with ⟨found, ⟨enough, run⟩, labelled⟩
    obtain ⟨inner, first, _⟩ :=
      run (enough + 1) (by omega) 0 (setting.session.enter label).2 rfl
    have applied := Matcher.path_eq_ok_iff.mpr ⟨found, inner, first, labelled, rfl⟩
    exact yields_iff_apply.mpr ⟨enough, _, applied⟩

/-- A report does not change the outcome. -/
theorem yields_traced_iff {label : String} :
    (rule.traced label).Yields setting position outcome ↔
      rule.Yields (setting.entered label) position outcome := by
  let entered := (setting.session.enter label).2
  have active (entry : Record) :
      (entered.record setting.input.verbosity entry).context =
        (setting.entered label).context :=
    Session.context_record entered _ entry
  refine ⟨fun yields => ?_, fun holds => ?_⟩
  · obtain ⟨steps, after, applied⟩ := yields_iff_apply.mp yields
    rw [apply_traced] at applied
    obtain ⟨inner, first, _⟩ := Matcher.traced_eq_ok_iff.mp applied
    exact yields_of_apply (active _) first
  · obtain ⟨enough, run⟩ := holds
    obtain ⟨inner, first, _⟩ := run (enough + 1) (by omega) 0 _ (active _)
    have applied := Matcher.traced_eq_ok_iff.mpr ⟨inner, first, rfl⟩
    exact yields_iff_apply.mpr ⟨enough, _, applied⟩

/-- In which frame a rule is applied does not matter, nor what is built before it. -/
theorem yields_framed_iff {framed : Rule N ε Γ α} (choose : Nat → Cells → Nat × Cells)
    (inner : Nat → Nat → Nat)
    (frames : ∀ steps frame, apply setting.input (steps + 1) framed setting.env frame =
      .framed (choose frame) fun chosen =>
        apply setting.input (steps + 1) rule setting.env (inner frame chosen)) :
    framed.Yields setting position outcome ↔ rule.Yields setting position outcome := by
  refine ⟨fun yields => ?_, fun holds => ?_⟩
  · obtain ⟨steps, after, applied⟩ := yields_iff_apply.mp yields
    rw [frames] at applied
    exact yields_of_apply rfl applied
  · obtain ⟨enough, run⟩ := holds
    rcases chosen : choose 0 setting.session.cells with ⟨frame, cells⟩
    obtain ⟨after, applied, _⟩ := run (enough + 1) (by omega) (inner 0 frame)
      { setting.session with cells } rfl
    refine yields_iff_apply.mpr ⟨enough, after, ?_⟩
    rw [frames]
    simp only [Matcher.framed, chosen]
    exact applied

/-- A rule comes to the same whether it is built before or when it is applied. -/
theorem yields_delayed_iff {number : Nat} :
    (rule.delayed number).Yields setting position outcome ↔
      rule.Yields setting position outcome :=
  yields_framed_iff (fun frame => Cells.frameOf ⟨frame, number⟩) (fun frame _ => frame)
    fun steps frame => apply_delayed setting.input steps number rule setting.env frame

theorem yields_fresh_iff :
    rule.fresh.Yields setting position outcome ↔ rule.Yields setting position outcome :=
  yields_framed_iff (fun _ => Cells.openFrame) (fun _ chosen => chosen)
    fun steps frame => apply_fresh setting.input steps rule setting.env frame

/-! ## Rules that come to the same -/

/-- The rules come to the same outcomes at every position of every source, whatever rules
and labels are around. -/
def Equivalent (rule other : Rule N ε Γ α) : Prop :=
  ∀ (setting : Setting N ε Γ) (position : Nat) (outcome : Outcome α),
    rule.Yields setting position outcome ↔ other.Yields setting position outcome

theorem Equivalent.refl (rule : Rule N ε Γ α) : rule.Equivalent rule :=
  fun _ _ _ => .rfl

theorem Equivalent.symm (same : rule.Equivalent other) : other.Equivalent rule :=
  fun setting position outcome => (same setting position outcome).symm

theorem Equivalent.trans {third : Rule N ε Γ α} (same : rule.Equivalent other)
    (same' : other.Equivalent third) : rule.Equivalent third :=
  fun setting position outcome =>
    (same setting position outcome).trans (same' setting position outcome)

theorem Equivalent.orElse {rule' other' : Rule N ε Γ α} (same : rule.Equivalent rule')
    (sameOther : other.Equivalent other') :
    (rule.orElse other).Equivalent (rule'.orElse other') := fun setting position outcome => by
  simp only [yields_orElse_iff, same setting position _, sameOther setting position _]

theorem Equivalent.path (same : rule.Equivalent other) (label : String) :
    (rule.path label).Equivalent (other.path label) := fun setting position outcome => by
  simp only [yields_path_iff, same (setting.entered label) position _]

end Rule

end Rulebook
