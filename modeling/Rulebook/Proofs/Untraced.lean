/-
# Traces and what went before do not matter

Traced rules report what is applied, and for that they put their labels on the same stack
that named rules and leaves written by hand may look at. If no leaf looks, nothing of this
comes back: rules that differ only in what is traced come to the same outcomes, whatever
labels are active, whatever was applied before and however much is recorded.

This is a statement about two runs. Of each combination of matchers it is shown that its
outcome depends on the outcomes of its parts alone, and not on the sessions between them.
Then a rule is compared with what is left of it without any traces.
-/

import Rulebook.Proofs.Library
import Rulebook.Proofs.Unrolling

namespace Rulebook

section Runs

variable {N : Nonterminals} {ε α β : Type}

/-- Both runs are halted for the same reason, or come to the same outcome. -/
inductive EndsAlike {α : Type} : Except Halt (Outcome α × Session) →
    Except Halt (Outcome α × Session) → Prop
  | halted (cause : Halt) : EndsAlike (.error cause) (.error cause)
  | ended (outcome : Outcome α) (after after' : Session) :
      EndsAlike (.ok (outcome, after)) (.ok (outcome, after'))

theorem endsAlike_iff {run run' : Except Halt (Outcome α × Session)} :
    EndsAlike run run' ↔ run.map Prod.fst = run'.map Prod.fst := by
  constructor
  · rintro (_ | _) <;> rfl
  · intro same
    rcases run with cause | ⟨outcome, after⟩ <;>
      rcases run' with cause' | ⟨outcome', after'⟩ <;> cases same
    · exact .halted cause
    · exact .ended outcome after after'

theorem EndsAlike.symm {run run' : Except Halt (Outcome α × Session)}
    (alike : EndsAlike run run') : EndsAlike run' run :=
  endsAlike_iff.mpr (endsAlike_iff.mp alike).symm

theorem EndsAlike.trans {run between run' : Except Halt (Outcome α × Session)}
    (alike : EndsAlike run between) (alike' : EndsAlike between run') : EndsAlike run run' :=
  endsAlike_iff.mpr ((endsAlike_iff.mp alike).trans (endsAlike_iff.mp alike'))

theorem EndsAlike.bind {run run' : Except Halt (Outcome α × Session)}
    {next next' : Outcome α × Session → Except Halt (Outcome β × Session)}
    (alike : EndsAlike run run')
    (alikeNext : ∀ outcome after after',
      EndsAlike (next (outcome, after)) (next' (outcome, after'))) :
    EndsAlike (run >>= next) (run' >>= next') := by
  cases alike with
  | halted cause => exact .halted cause
  | ended outcome after after' => exact alikeNext outcome after after'

/-- What is done to the session when a run is over does not change how it ends. -/
theorem EndsAlike.afterwards {run run' : Except Halt (Outcome α × Session)}
    (alike : EndsAlike run run') (settle : Outcome α → Session → Session) :
    EndsAlike (run >>= fun ended => .ok (ended.1, settle ended.1 ended.2)) run' := by
  cases alike with
  | halted cause => exact .halted cause
  | ended outcome after after' => exact .ended outcome _ after'

/-- Leaves do not look at the active labels. -/
def Fragment.blind : Fragment ε where
  leaf part := ∀ source context context' position,
    part.apply source context position = part.apply source context' position
  traced := True
  spanned := True

/-- The leaves of the library do not look. -/
theorem Fragment.lenient_blind : (blind : Fragment ε).Lenient := by
  intro α part standard source context context' position
  cases part with
  | custom judge => exact standard.elim
  | accept | reject | next | finish | window | skipWhile => rfl

namespace Matcher

/-- From any two sessions both matchers end alike. -/
def Mirrors (matcher matcher' : Matcher α) : Prop :=
  ∀ session session' position, EndsAlike (matcher session position) (matcher' session' position)

variable {matcher matcher' between : Matcher α}

theorem Mirrors.symm (mirrors : matcher.Mirrors matcher') : matcher'.Mirrors matcher :=
  fun session session' position => (mirrors session' session position).symm

theorem Mirrors.trans (mirrors : matcher.Mirrors between)
    (mirrors' : between.Mirrors matcher') : matcher.Mirrors matcher' :=
  fun session session' position =>
    (mirrors session session' position).trans (mirrors' session' session' position)

theorem Mirrors.revised (mirrors : matcher.Mirrors matcher')
    (judge : Nat → α → Nat → Outcome β) :
    (matcher.revised judge).Mirrors (matcher'.revised judge) :=
  fun session session' position =>
    (mirrors session session' position).bind fun _ after after' => .ended _ after after'

theorem Mirrors.flatMap {next next' : α → Matcher β} (mirrors : matcher.Mirrors matcher')
    (mirrorsNext : ∀ value, (next value).Mirrors (next' value)) :
    (matcher.flatMap next).Mirrors (matcher'.flatMap next') := by
  intro session session' position
  refine (mirrors session session' position).bind fun outcome after after' => ?_
  cases outcome with
  | accepted value stop => exact mirrorsNext value after after' stop
  | rejected failures => exact .ended _ after after'

/-- A traced matcher mirrors what its matcher mirrors. -/
theorem Mirrors.traced (mirrors : matcher.Mirrors matcher') (verbosity : Verbosity)
    (label : String) : (matcher.traced verbosity label).Mirrors matcher' := by
  intro session session' position
  let tried : Session := (session.enter label).2.record verbosity
    (.trying (session.enter label).2.context.path position)
  exact (mirrors tried session' position).afterwards fun outcome after =>
    (after.record verbosity (closing label position outcome)).release (session.enter label).1

theorem Mirrors.repeatFrom {item item' next next' : Matcher α} {bounds : Bounds}
    (mirrorsItem : item.Mirrors item') (mirrorsNext : next.Mirrors next')
    (fold : β → α → β) (steps count : Nat) (acc : β) :
    (repeatFrom bounds item next fold steps count acc).Mirrors
      (repeatFrom bounds item' next' fold steps count acc) := by
  induction steps generalizing count acc with
  | zero => exact fun _ _ _ => .halted .exhausted
  | succ steps ih =>
      intro session session' position
      have attempt : (if count = 0 then item else next).Mirrors
          (if count = 0 then item' else next') := by
        split <;> assumption
      unfold Matcher.repeatFrom
      by_cases full : bounds.ceiling = some count
      · rw [if_pos full, if_pos full]
        exact .ended _ session session'
      · rw [if_neg full, if_neg full]
        have alike := attempt session session' position
        generalize (if count = 0 then item else next) session position = run at alike ⊢
        generalize (if count = 0 then item' else next') session' position = run' at alike ⊢
        cases alike with
        | halted cause => exact .halted cause
        | ended outcome after after' =>
            cases outcome with
            | accepted value stop => exact ih (count + 1) (fold acc value) after after' stop
            | rejected failures =>
                by_cases below : count < bounds.floor
                · simp only [if_pos below]
                  exact .ended _ after after'
                · simp only [if_neg below]
                  exact .ended _ after after'

/-- Every combination depends on the outcomes of its parts alone. -/
theorem mirrors_congruence {input input' : Input N ε} (sameSource : input'.source = input.source)
    (steps : Nat) : Congruence .blind input input' steps steps Mirrors where
  halted cause := fun _ _ _ => .halted cause
  refuse message := fun session session' position => .ended _ session session'
  leaf part blind := by
    intro session session' position
    have same := blind input.source session.context session'.context position
    simp only [Matcher.leaf, sameSource, same]
    cases part.apply input.source session'.context position with
    | error cause => exact .halted cause
    | ok outcome => exact .ended outcome session session'
  unfinished mirrors := by
    intro session session' position
    simp only [Matcher.unfinished, sameSource]
    by_cases inside : position < input.source.size
    · rw [if_pos inside, if_pos inside]
      exact mirrors session session' position
    · rw [if_neg inside, if_neg inside]
      exact .ended _ session session'
  map f _ _ mirrors := by
    rw [map_eq_revised, map_eq_revised]
    exact mirrors.revised _
  flatMap mirrors mirrorsNext := mirrors.flatMap mirrorsNext
  nonEmpty mirrors := by
    rw [nonEmpty_eq_revised, nonEmpty_eq_revised]
    exact mirrors.revised _
  path label _ _ mirrors := fun session session' position =>
    (mirrors (session.enter label).2 (session'.enter label).2 position).bind
      fun _ after after' => .ended _ _ _
  traced _ label _ _ mirrors := ((mirrors.traced _ label).symm.traced _ label).symm
  orElse mirrors mirrorsOther := fun session session' position =>
    (mirrors session session' position).bind fun _ after after' =>
      (mirrorsOther after after' position).bind fun _ after after' => .ended _ after after'
  slice mirrors := by
    rw [slice_eq_revised, slice_eq_revised, sameSource]
    exact mirrors.revised _
  spanned _ _ _ mirrors := by
    rw [spanned_eq_revised, spanned_eq_revised]
    exact mirrors.revised _
  repeated bounds _ _ _ _ init fold mirrorsSeparator mirrorsItem := by
    refine mirrorsItem.repeatFrom ?_ fold steps 0 init
    rw [thenWith_eq_flatMap, thenWith_eq_flatMap]
    refine mirrorsSeparator.flatMap fun _ => ?_
    rw [map_eq_revised, map_eq_revised]
    exact mirrorsItem.revised _
  framed choose choose' _ _ mirrors := fun _ _ position => mirrors _ _ _ _ position

end Matcher

end Runs

variable {N : Nonterminals} {ε : Type} {Γ : List Type} {α : Type}

/-- What is left of a rule if nothing is traced. -/
def Rule.untraced : {Γ : List Type} → {α : Type} → Rule N ε Γ α → Rule N ε Γ α
  | _, _, .leaf part => .leaf part
  | _, _, .unfinished rule => .unfinished rule.untraced
  | _, _, .map f rule => .map f rule.untraced
  | _, _, .flatMap rule next => .flatMap rule.untraced fun value => (next value).untraced
  | _, _, .thenWith combine rule next => .thenWith combine rule.untraced next.untraced
  | _, _, .nonEmpty rule => .nonEmpty rule.untraced
  | _, _, .path label rule => .path label rule.untraced
  | _, _, .traced _ rule => rule.untraced
  | _, _, .orElse rule other => .orElse rule.untraced other.untraced
  | _, _, .slice rule => .slice rule.untraced
  | _, _, .spanned rule => .spanned rule.untraced
  | _, _, .repeated bounds separator item init fold =>
    .repeated bounds separator.untraced item.untraced init fold
  | _, _, .deferred number name => .deferred number name
  | _, _, .delayed number rule => .delayed number rule.untraced
  | _, _, .fresh rule => .fresh rule.untraced
  | _, _, .reference place => .reference place
  | _, _, .recursive body => .recursive body.untraced

/-- Nothing is traced in the definitions either. -/
def Grammar.untraced (grammar : Grammar N ε) : Grammar N ε :=
  fun name => (grammar name).map Rule.untraced

/-- Nothing is traced in a recursive rule. -/
def Slot.untraced : Slot N ε Γ α → Slot N ε Γ α
  | .undefined => .undefined
  | .defined body => .defined body.untraced
  | .dropped => .dropped

/-- The recursive rules around, if nothing is traced in them. Their frames may differ. -/
inductive Env.Erases : {Γ : List Type} → Env N ε Γ → Env N ε Γ → Prop
  | nil : Erases .nil .nil
  | cons {Γ : List Type} {α : Type} {rest rest' : Env N ε Γ} (slot : Slot N ε Γ α)
      (frame frame' : Nat) (erases : rest.Erases rest') :
      Erases (.cons slot frame rest) (.cons slot.untraced frame' rest')

/-- A reference leads to the same place without traces. -/
theorem Env.Erases.lookup {fragment : Fragment ε} {env env' : Env N ε Γ}
    (erases : env.Erases env') (within : env.Within fragment) (place : Member α Γ) :
    (env.lookup place = .undefined ∧ env'.lookup place = .undefined) ∨
    (env.lookup place = .dropped ∧ env'.lookup place = .dropped) ∨
    ∃ (Δ : List Type) (body : Rule N ε Δ α) (inner inner' : Env N ε Δ) (frame frame' : Nat),
      env.lookup place = .rule body inner frame ∧
        env'.lookup place = .rule body.untraced inner' frame' ∧
        body.Within fragment ∧ inner.Within fragment ∧ inner.Erases inner' := by
  induction erases with
  | nil => nomatch place
  | @cons Γ β rest rest' slot frame frame' erases ih =>
      cases place with
      | there place => cases slot <;> exact ih within.2 place
      | here =>
          cases slot with
          | undefined => exact .inl ⟨rfl, rfl⟩
          | dropped => exact .inr (.inl ⟨rfl, rfl⟩)
          | defined body =>
              exact .inr (.inr ⟨_, body, _, _, frame, frame', rfl, rfl,
                within.1 body rfl, within, .cons _ _ _ erases⟩)

namespace Rule

/-- What a rule is made of is still there without traces. -/
theorem within_untraced_iff {fragment : Fragment ε} (traced : fragment.traced)
    {rule : Rule N ε Γ α} : rule.untraced.Within fragment ↔ rule.Within fragment := by
  induction rule with
  | leaf | deferred | reference => exact Iff.rfl
  | unfinished _ ih | map _ _ ih | nonEmpty _ ih | path _ _ ih | slice _ ih
  | delayed _ _ ih | fresh _ ih | recursive _ ih => exact ih
  | traced label rule ih => exact ih.trans (and_iff_right traced).symm
  | spanned rule ih => exact and_congr Iff.rfl ih
  | flatMap rule next ih ihNext => exact and_congr ih (forall_congr' ihNext)
  | thenWith combine rule next ih ihNext => exact and_congr ih ihNext
  | orElse rule other ih ihOther => exact and_congr ih ihOther
  | repeated bounds separator item init fold ihSeparator ihItem =>
      exact and_congr ihSeparator ihItem

end Rule

theorem Grammar.within_untraced_iff {fragment : Fragment ε} (traced : fragment.traced)
    {grammar : Grammar N ε} : grammar.untraced.Within fragment ↔ grammar.Within fragment := by
  constructor
  · intro within name rule found
    have erased : grammar.untraced name = .ok rule.untraced := by
      rw [Grammar.untraced, found]
      rfl
    exact (Rule.within_untraced_iff traced).mp (within name _ erased)
  · intro within name erased found
    rw [Grammar.untraced] at found
    cases defined : grammar name with
    | error cause => simp [defined, Except.map] at found
    | ok rule =>
        rw [defined] at found
        cases found
        exact (Rule.within_untraced_iff traced).mpr (within name rule defined)

theorem Env.Erases.within_iff {fragment : Fragment ε} (traced : fragment.traced)
    {env env' : Env N ε Γ} (erases : env.Erases env') :
    env'.Within fragment ↔ env.Within fragment := by
  induction erases with
  | nil => exact Iff.rfl
  | cons slot frame frame' erases ih =>
      refine and_congr ?_ ih
      cases slot with
      | undefined | dropped => simp [Slot.untraced]
      | defined body => simp [Slot.untraced, Rule.within_untraced_iff traced]

namespace Rule

/-- One step of the comparison: if what references and names lead to mirrors its rest
without traces, so does the rule. -/
theorem interpret_mirrors_untraced {input input' : Input N ε}
    (sameSource : input'.source = input.source)
    (sameGrammar : input'.grammar = input.grammar.untraced)
    (grammarWithin : input.grammar.Within .blind) {steps : Nat}
    {again again' : Interpretation N ε}
    (mirrors : ∀ {Γ : List Type} {α : Type} (rule : Rule N ε Γ α) (env env' : Env N ε Γ)
      (frame frame' : Nat), rule.Within .blind → env.Within .blind → env.Erases env' →
      (again rule env frame).Mirrors (again' rule.untraced env' frame'))
    (rule : Rule N ε Γ α) (env env' : Env N ε Γ) (frame frame' : Nat)
    (within : rule.Within .blind) (envWithin : env.Within .blind) (erases : env.Erases env') :
    (rule.interpret input again steps env frame).Mirrors
      (rule.untraced.interpret input' again' steps env' frame') := by
  have congruence := Matcher.mirrors_congruence sameSource steps
  induction rule generalizing frame frame' with
  | leaf part => exact congruence.leaf part within
  | unfinished rule ih => exact congruence.unfinished (ih _ _ _ _ within envWithin erases)
  | map f rule ih => exact congruence.map f (ih _ _ _ _ within envWithin erases)
  | flatMap rule next ih ihNext =>
      exact congruence.flatMap (ih _ _ _ _ within.1 envWithin erases)
        fun value => ihNext value _ _ _ _ (within.2 value) envWithin erases
  | thenWith combine rule next ih ihNext =>
      show Matcher.Mirrors (Matcher.thenWith combine _ _) (Matcher.thenWith combine _ _)
      rw [Matcher.thenWith_eq_flatMap, Matcher.thenWith_eq_flatMap]
      exact congruence.flatMap (ih _ _ _ _ within.1 envWithin erases)
        fun value => congruence.map _ (ihNext _ _ _ _ within.2 envWithin erases)
  | nonEmpty rule ih => exact congruence.nonEmpty (ih _ _ _ _ within envWithin erases)
  | path label rule ih => exact congruence.path label (ih _ _ _ _ within envWithin erases)
  | traced label rule ih => exact (ih _ _ _ _ within.2 envWithin erases).traced _ label
  | orElse rule other ih ihOther =>
      exact congruence.orElse (ih _ _ _ _ within.1 envWithin erases)
        (ihOther _ _ _ _ within.2 envWithin erases)
  | slice rule ih => exact congruence.slice (ih _ _ _ _ within envWithin erases)
  | spanned rule ih =>
      exact congruence.spanned within.1 (ih _ _ _ _ within.2 envWithin erases)
  | repeated bounds separator item init fold ihSeparator ihItem =>
      exact congruence.repeated bounds init fold
        (ihSeparator _ _ _ _ within.1 envWithin erases)
        (ihItem _ _ _ _ within.2 envWithin erases)
  | deferred number name =>
      show Matcher.Mirrors (again.deferred input.grammar _ name)
        (again'.deferred input'.grammar _ name)
      rw [sameGrammar]
      cases found : input.grammar name with
      | error cause =>
          have found' : input.grammar.untraced name = .error cause := by
            rw [Grammar.untraced, found]
            rfl
          rw [Interpretation.deferred_eq_halted _ found,
            Interpretation.deferred_eq_halted _ found']
          exact congruence.halted _
      | ok rule =>
          have found' : input.grammar.untraced name = .ok rule.untraced := by
            rw [Grammar.untraced, found]
            rfl
          rw [Interpretation.deferred_eq_framed _ found,
            Interpretation.deferred_eq_framed _ found']
          exact congruence.framed _ _ fun frame frame' =>
            mirrors rule .nil .nil frame frame' (grammarWithin name rule found) trivial .nil
  | delayed number rule ih =>
      exact congruence.framed _ _ fun _ _ => ih _ _ frame frame' within envWithin erases
  | fresh rule ih =>
      exact congruence.framed Cells.openFrame Cells.openFrame fun frame frame' =>
        ih _ _ frame frame' within envWithin erases
  | reference place =>
      show Matcher.Mirrors (again.reference env place) (again'.reference env' place)
      unfold Interpretation.reference
      obtain ⟨found, found'⟩ | ⟨found, found'⟩ |
        ⟨_, body, inner, inner', frame, frame', found, found', bodyWithin, innerWithin,
          innerErases⟩ := erases.lookup envWithin place
      · rw [found, found']
        exact congruence.refuse _
      · rw [found, found']
        exact congruence.refuse _
      · rw [found, found']
        exact mirrors body inner inner' frame frame' bodyWithin innerWithin innerErases
  | recursive body ih =>
      refine ih _ _ _ _ within ⟨?_, envWithin⟩ (.cons (.defined body) _ _ erases)
      rintro found ⟨⟩
      exact within

/-- A rule mirrors what is left of it without traces. -/
theorem apply_mirrors_untraced {input input' : Input N ε}
    (sameSource : input'.source = input.source)
    (sameGrammar : input'.grammar = input.grammar.untraced)
    (grammarWithin : input.grammar.Within .blind) (steps : Nat) (rule : Rule N ε Γ α)
    (env env' : Env N ε Γ) (frame frame' : Nat) (within : rule.Within .blind)
    (envWithin : env.Within .blind) (erases : env.Erases env') :
    (apply input steps rule env frame).Mirrors
      (apply input' steps rule.untraced env' frame') := by
  induction steps generalizing Γ α frame frame' with
  | zero => exact fun _ _ _ => .halted .exhausted
  | succ steps ih =>
      exact interpret_mirrors_untraced sameSource sameGrammar grammarWithin
        (fun rule env env' frame frame' within envWithin erases =>
          ih rule env env' frame frame' within envWithin erases)
        rule env env' frame frame' within envWithin erases

/-- The outcomes of a rule are those its runs end with. -/
theorem yields_iff_ends {setting : Setting N ε Γ} {rule : Rule N ε Γ α} {position : Nat}
    {outcome : Outcome α} :
    rule.Yields setting position outcome ↔
      ∃ steps, (apply setting.input (steps + 1) rule setting.env 0 setting.session
        position).map Prod.fst = .ok outcome := by
  rw [yields_iff_apply]
  refine exists_congr fun steps => ?_
  cases apply setting.input (steps + 1) rule setting.env 0 setting.session position with
  | error cause => simp [Except.map]
  | ok ended => simp [Except.map, Prod.ext_iff]

/-- Rules that differ only in what is traced, in themselves, in the definitions and in the
recursive rules around, come to the same outcome or are halted for the same reason. The
active labels do not matter, nor what was applied and built before, nor how much is
recorded. -/
theorem traces_do_not_matter {input input' : Input N ε}
    (sameSource : input'.source = input.source)
    (sameGrammar : input'.grammar.untraced = input.grammar.untraced)
    (grammarWithin : input.grammar.Within .blind) {env env' erased : Env N ε Γ}
    (erases : env.Erases erased) (erases' : env'.Erases erased)
    (envWithin : env.Within .blind) {rule rule' : Rule N ε Γ α}
    (same : rule'.untraced = rule.untraced) (within : rule.Within .blind) :
    (∀ (steps frame frame' : Nat) (session session' : Session) (position : Nat),
      (apply input' steps rule' env' frame' session' position).map Prod.fst =
        (apply input steps rule env frame session position).map Prod.fst) ∧
    ∀ (context context' : Context) (position : Nat) (outcome : Outcome α),
      rule'.Yields ⟨input', env', context'⟩ position outcome ↔
        rule.Yields ⟨input, env, context⟩ position outcome := by
  have grammarWithin' : input'.grammar.Within .blind := by
    rwa [← Grammar.within_untraced_iff trivial, sameGrammar, Grammar.within_untraced_iff trivial]
  have envWithin' : env'.Within .blind := by
    rwa [← erases'.within_iff trivial, erases.within_iff trivial]
  have within' : rule'.Within .blind := by
    rwa [← within_untraced_iff trivial, same, within_untraced_iff trivial]
  let plain : Input N ε := ⟨input.source, input.grammar.untraced, .off⟩
  have plainSource : plain.source = input.source := rfl
  have plainGrammar : plain.grammar = input.grammar.untraced := rfl
  have runs (steps frame frame' : Nat) (session session' : Session) (position : Nat) :
      (apply input' steps rule' env' frame' session' position).map Prod.fst =
        (apply input steps rule env frame session position).map Prod.fst := by
    have left : (apply input steps rule env frame).Mirrors
        (apply plain steps rule.untraced erased 0) :=
      apply_mirrors_untraced plainSource plainGrammar grammarWithin steps rule env erased
        frame 0 within envWithin erases
    have right : (apply input' steps rule' env' frame').Mirrors
        (apply plain steps rule'.untraced erased 0) :=
      apply_mirrors_untraced (plainSource.trans sameSource.symm) sameGrammar.symm
        grammarWithin' steps rule' env' erased frame' 0 within' envWithin' erases'
    rw [same] at right
    exact endsAlike_iff.mp (right.trans left.symm session' session position)
  refine ⟨runs, fun context context' position outcome => ?_⟩
  rw [yields_iff_ends, yields_iff_ends]
  refine exists_congr fun steps => ?_
  have ends := runs (steps + 1) 0 0 (Setting.session ⟨input, env, context⟩)
    (Setting.session ⟨input', env', context'⟩) position
  exact ⟨ends.symm.trans, ends.trans⟩

/-- A definition of nested brackets that reports every pair. -/
def reportedBrackets : Grammar bracketNames Char :=
  fun _ => .ok ((brackets.instantiate (.deferred 0 ())).traced "pair")

/-- The first bracket is not closed. -/
theorem reportedBrackets_do_not_matter :
    let input : Input bracketNames Char := ⟨#['[', '[', ']'], bracketGrammar, .off⟩
    let input' : Input bracketNames Char := ⟨#['[', '[', ']'], reportedBrackets, .trace⟩
    let rule : Rule bracketNames Char [] Nat := (deferred 0 ()).path "list"
    let rule' : Rule bracketNames Char [] Nat := (traced "whole" (deferred 0 ())).path "list"
    let message := outOfRange 3 3
    input'.grammar.untraced = input.grammar.untraced ∧ input.grammar.Within .blind ∧
      rule'.untraced = rule.untraced ∧ rule.Within .blind ∧
      rule'.Yields ⟨input', .nil, ⟨#["file"]⟩⟩ 0
        (.rejected (.single ⟨["list"], message, 3⟩)) := by
  intro input input' rule rule' message
  have sameSource : input'.source = input.source := rfl
  have sameGrammar : input'.grammar.untraced = input.grammar.untraced := rfl
  have grammarWithin : input.grammar.Within .blind := by
    rintro name found ⟨⟩
    exact within_enclose Fragment.lenient_blind (fun _ _ _ _ => rfl) (fun _ _ _ _ => rfl)
      ⟨fun _ _ _ _ => rfl, trivial⟩
  have same : rule'.untraced = rule.untraced := rfl
  have within : rule.Within .blind := trivial
  have nested : (recursive brackets).Yields ⟨input, .nil, ⟨#["list"]⟩⟩ 0
      (.rejected (.single (.bare message 3))) := yields_iff_apply.mpr ⟨8, _, rfl⟩
  have defined : input.grammar () = .ok (brackets.instantiate (.deferred 0 ())) := rfl
  have named : rule.Yields ⟨input, .nil, ∅⟩ 0 (.rejected (.single ⟨["list"], message, 3⟩)) :=
    yields_path_iff.mpr ⟨_, (yields_deferred_iff defined).mpr
      ((yields_recursive_iff_definition defined).mp nested), rfl⟩
  have outcomes := (traces_do_not_matter sameSource sameGrammar grammarWithin .nil .nil trivial
    same within).2
  exact ⟨sameGrammar, grammarWithin, same, within, (outcomes ∅ ⟨#["file"]⟩ 0 _).mpr named⟩

end Rule

end Rulebook
