/-
# Statements about all rules of a fragment

A fragment says what rules may be made of: which leaves, and whether they may
be traced and ask for spans. A relation between matchers that every combination
keeps holds between any two applications of a rule of the fragment, however
deeply references and deferred rules are followed. The induction over rules and
steps is done here once; what remains for each relation is one fact for every
combination.

Frames and cells only say where built rules are kept, so the two applications
may differ in them.
-/

import Rulebook.Proofs.Leaf
import Rulebook.Proofs.Matcher
import Rulebook.Rule.Apply

namespace Rulebook

/-- What rules may be made of. -/
structure Fragment (ε : Type) where
  leaf : {α : Type} → Leaf ε α → Prop
  traced : Prop
  spanned : Prop

namespace Fragment

variable {ε : Type}

/-- Everything is allowed. -/
def all : Fragment ε := ⟨fun _ => True, True, True⟩

/-- Everything but leaves written by hand. -/
def standard : Fragment ε := ⟨Leaf.Standard, True, True⟩

/-- No leaves written by hand, and no reports in the trace. -/
def untraced : Fragment ε := ⟨Leaf.Standard, False, True⟩

end Fragment

variable {N : Nonterminals} {ε : Type}

/-- The rule is made of what the fragment allows, whatever values the
continuations in it are given. -/
def Rule.Within (fragment : Fragment ε) :
    {Γ : List Type} → {α : Type} → Rule N ε Γ α → Prop
  | _, _, .leaf part => fragment.leaf part
  | _, _, .unfinished rule => rule.Within fragment
  | _, _, .map _ rule => rule.Within fragment
  | _, _, .flatMap rule next =>
    rule.Within fragment ∧ ∀ value, (next value).Within fragment
  | _, _, .thenWith _ rule next => rule.Within fragment ∧ next.Within fragment
  | _, _, .nonEmpty rule => rule.Within fragment
  | _, _, .path _ rule => rule.Within fragment
  | _, _, .traced _ rule => fragment.traced ∧ rule.Within fragment
  | _, _, .orElse rule other => rule.Within fragment ∧ other.Within fragment
  | _, _, .slice rule => rule.Within fragment
  | _, _, .spanned rule => fragment.spanned ∧ rule.Within fragment
  | _, _, .repeated _ separator item _ _ =>
    separator.Within fragment ∧ item.Within fragment
  | _, _, .deferred _ _ => True
  | _, _, .delayed _ rule => rule.Within fragment
  | _, _, .fresh rule => rule.Within fragment
  | _, _, .reference _ => True
  | _, _, .recursive body => body.Within fragment

/-- All definitions that are valid rules belong to the fragment. -/
def Grammar.Within (fragment : Fragment ε) (grammar : Grammar N ε) : Prop :=
  ∀ name rule, grammar name = .ok rule → rule.Within fragment

/-- The recursive rules around belong to the fragment. -/
def Env.Within (fragment : Fragment ε) : {Γ : List Type} → Env N ε Γ → Prop
  | _, .nil => True
  | _, .cons slot _ rest =>
    (∀ body, slot = .defined body → body.Within fragment) ∧ rest.Within fragment

theorem Rule.within_all : {Γ : List Type} → {α : Type} → (rule : Rule N ε Γ α) →
    rule.Within .all
  | _, _, .leaf _ | _, _, .deferred _ _ | _, _, .reference _ => trivial
  | _, _, .unfinished rule | _, _, .map _ rule | _, _, .nonEmpty rule
  | _, _, .path _ rule | _, _, .slice rule | _, _, .delayed _ rule | _, _, .fresh rule
  | _, _, .recursive rule => within_all rule
  | _, _, .traced _ rule | _, _, .spanned rule => ⟨trivial, within_all rule⟩
  | _, _, .flatMap rule next => ⟨within_all rule, fun value => within_all (next value)⟩
  | _, _, .thenWith _ rule next => ⟨within_all rule, within_all next⟩
  | _, _, .orElse rule other => ⟨within_all rule, within_all other⟩
  | _, _, .repeated _ separator item _ _ => ⟨within_all separator, within_all item⟩

theorem Env.within_all : {Γ : List Type} → (env : Env N ε Γ) → env.Within .all
  | _, .nil => trivial
  | _, .cons _ _ rest => ⟨fun body _ => Rule.within_all body, within_all rest⟩

/-- The recursive rules around are the same. Their frames may differ. -/
inductive Env.Alike : {Γ : List Type} → Env N ε Γ → Env N ε Γ → Prop
  | nil : Alike .nil .nil
  | cons {Γ : List Type} {α : Type} {rest rest' : Env N ε Γ}
      (slot : Slot N ε Γ α) (frame frame' : Nat) (alike : rest.Alike rest') :
      Alike (.cons slot frame rest) (.cons slot frame' rest')

theorem Env.Alike.refl : {Γ : List Type} → (env : Env N ε Γ) → env.Alike env
  | _, .nil => .nil
  | _, .cons slot frame rest => .cons slot frame frame (.refl rest)

/-- Alike surroundings give a reference the same meaning. -/
theorem Env.Alike.lookup {fragment : Fragment ε} {Γ : List Type}
    {env env' : Env N ε Γ} (alike : env.Alike env') (within : env.Within fragment)
    {α : Type} (place : Member α Γ) :
    (env.lookup place = .undefined ∧ env'.lookup place = .undefined) ∨
    (env.lookup place = .dropped ∧ env'.lookup place = .dropped) ∨
    ∃ (Δ : List Type) (body : Rule N ε Δ α) (inner inner' : Env N ε Δ)
      (frame frame' : Nat),
      env.lookup place = .rule body inner frame ∧
        env'.lookup place = .rule body inner' frame' ∧
        body.Within fragment ∧ inner.Within fragment ∧ inner.Alike inner' := by
  induction alike with
  | nil => nomatch place
  | @cons Γ β rest rest' slot frame frame' alike ih =>
      cases place with
      | there place =>
          cases slot <;> exact ih within.2 place
      | here =>
          cases slot with
          | undefined => exact .inl ⟨rfl, rfl⟩
          | dropped => exact .inr (.inl ⟨rfl, rfl⟩)
          | defined body =>
              exact .inr (.inr ⟨_, body, _, _, frame, frame', rfl, rfl,
                within.1 body rfl, within, .cons _ _ _ alike⟩)

namespace Matcher

/-- A relation that every combination of matchers keeps. Left and right may
have different sources, verbosities and allowances of steps. -/
structure Congruence (fragment : Fragment ε) (input input' : Input N ε)
    (steps steps' : Nat) (R : {α : Type} → Matcher α → Matcher α → Prop) :
    Prop where
  halted {α : Type} (cause : Halt) : R (α := α) (.halted cause) (.halted cause)
  refuse {α : Type} (message : String) :
    R (α := α) (.refuse message) (.refuse message)
  leaf {α : Type} (part : Leaf ε α) (allowed : fragment.leaf part) :
    R (.leaf input.source part) (.leaf input'.source part)
  unfinished {α : Type} {matcher matcher' : Matcher α} (kept : R matcher matcher') :
    R (matcher.unfinished input.source.size) (matcher'.unfinished input'.source.size)
  map {α β : Type} (f : α → β) {matcher matcher' : Matcher α}
    (kept : R matcher matcher') : R (matcher.map f) (matcher'.map f)
  flatMap {α β : Type} {matcher matcher' : Matcher α} {next next' : α → Matcher β}
    (kept : R matcher matcher') (keptNext : ∀ value, R (next value) (next' value)) :
    R (matcher.flatMap next) (matcher'.flatMap next')
  nonEmpty {α : Type} {matcher matcher' : Matcher α} (kept : R matcher matcher') :
    R matcher.nonEmpty matcher'.nonEmpty
  path {α : Type} (label : String) {matcher matcher' : Matcher α}
    (kept : R matcher matcher') : R (matcher.path label) (matcher'.path label)
  traced {α : Type} (allowed : fragment.traced) (label : String)
    {matcher matcher' : Matcher α} (kept : R matcher matcher') :
    R (matcher.traced input.verbosity label) (matcher'.traced input'.verbosity label)
  orElse {α : Type} {matcher matcher' other other' : Matcher α}
    (kept : R matcher matcher') (keptOther : R other other') :
    R (matcher.orElse other) (matcher'.orElse other')
  slice {α : Type} {matcher matcher' : Matcher α} (kept : R matcher matcher') :
    R (matcher.slice input.source) (matcher'.slice input'.source)
  spanned {α : Type} (allowed : fragment.spanned) {matcher matcher' : Matcher α}
    (kept : R matcher matcher') : R matcher.spanned matcher'.spanned
  repeated {α β : Type} (bounds : Bounds) {separator separator' : Matcher Unit}
    {item item' : Matcher α} (init : β) (fold : β → α → β)
    (keptSeparator : R separator separator') (keptItem : R item item') :
    R (Matcher.repeated bounds separator item init fold steps)
      (Matcher.repeated bounds separator' item' init fold steps')
  framed {α : Type} (choose choose' : Cells → Nat × Cells)
    {matcher matcher' : Nat → Matcher α}
    (kept : ∀ frame frame', R (matcher frame) (matcher' frame')) :
    R (Matcher.framed choose matcher) (Matcher.framed choose' matcher')

end Matcher

/-- A deferred rule without a valid definition is never applied. -/
theorem Interpretation.deferred_eq_halted (again : Interpretation N ε)
    {grammar : Grammar N ε} {name : N.Name} {cause : DefinitionError}
    (found : grammar name = .error cause) (cell : Cell) :
    again.deferred grammar cell name = .halted (.malformed cause) := by
  rw [deferred, found]

/-- A deferred rule is applied in the frame of its cell. -/
theorem Interpretation.deferred_eq_framed (again : Interpretation N ε)
    {grammar : Grammar N ε} {name : N.Name} {rule : Rule N ε [] (N.Value name)}
    (found : grammar name = .ok rule) (cell : Cell) :
    again.deferred grammar cell name =
      .framed (Cells.frameOf cell) (again rule .nil) := by
  rw [deferred, found]

namespace Rule

open Matcher

/-- The step of the induction: what holds for the rules that references and
names lead to holds for the rules that mention them. -/
theorem interpret_related {fragment : Fragment ε} {input input' : Input N ε}
    {steps steps' : Nat} {R : {α : Type} → Matcher α → Matcher α → Prop}
    (congruence : Congruence fragment input input' steps steps' R)
    (sameGrammar : input'.grammar = input.grammar)
    (grammarWithin : input.grammar.Within fragment)
    {again again' : Interpretation N ε}
    (related : ∀ {Γ : List Type} {α : Type} (rule : Rule N ε Γ α)
      (env env' : Env N ε Γ) (frame frame' : Nat), rule.Within fragment →
      env.Within fragment → env.Alike env' →
      R (again rule env frame) (again' rule env' frame'))
    {Γ : List Type} {α : Type} (rule : Rule N ε Γ α) (env env' : Env N ε Γ)
    (frame frame' : Nat) (within : rule.Within fragment)
    (envWithin : env.Within fragment) (alike : env.Alike env') :
    R (rule.interpret input again steps env frame)
      (rule.interpret input' again' steps' env' frame') := by
  induction rule generalizing frame frame' with
  | leaf part => exact congruence.leaf part within
  | unfinished rule ih =>
      exact congruence.unfinished (ih _ _ _ _ within envWithin alike)
  | map f rule ih => exact congruence.map f (ih _ _ _ _ within envWithin alike)
  | flatMap rule next ih ihNext =>
      exact congruence.flatMap (ih _ _ _ _ within.1 envWithin alike)
        fun value => ihNext value _ _ _ _ (within.2 value) envWithin alike
  | thenWith combine rule next ih ihNext =>
      show R (Matcher.thenWith combine _ _) (Matcher.thenWith combine _ _)
      rw [thenWith_eq_flatMap, thenWith_eq_flatMap]
      exact congruence.flatMap (ih _ _ _ _ within.1 envWithin alike)
        fun value => congruence.map _ (ihNext _ _ _ _ within.2 envWithin alike)
  | nonEmpty rule ih => exact congruence.nonEmpty (ih _ _ _ _ within envWithin alike)
  | path label rule ih =>
      exact congruence.path label (ih _ _ _ _ within envWithin alike)
  | traced label rule ih =>
      exact congruence.traced within.1 label (ih _ _ _ _ within.2 envWithin alike)
  | orElse rule other ih ihOther =>
      exact congruence.orElse (ih _ _ _ _ within.1 envWithin alike)
        (ihOther _ _ _ _ within.2 envWithin alike)
  | slice rule ih => exact congruence.slice (ih _ _ _ _ within envWithin alike)
  | spanned rule ih =>
      exact congruence.spanned within.1 (ih _ _ _ _ within.2 envWithin alike)
  | repeated bounds separator item init fold ihSeparator ihItem =>
      exact congruence.repeated bounds init fold
        (ihSeparator _ _ _ _ within.1 envWithin alike)
        (ihItem _ _ _ _ within.2 envWithin alike)
  | deferred number name =>
      show R (again.deferred input.grammar _ name) (again'.deferred input'.grammar _ name)
      rw [sameGrammar]
      cases found : input.grammar name with
      | error cause =>
          rw [Interpretation.deferred_eq_halted _ found,
            Interpretation.deferred_eq_halted _ found]
          exact congruence.halted _
      | ok rule =>
          rw [Interpretation.deferred_eq_framed _ found,
            Interpretation.deferred_eq_framed _ found]
          exact congruence.framed _ _ fun frame frame' =>
            related rule .nil .nil frame frame' (grammarWithin name rule found)
              trivial .nil
  | delayed number rule ih =>
      exact congruence.framed _ _ fun _ _ => ih _ _ frame frame' within envWithin alike
  | fresh rule ih =>
      exact congruence.framed Cells.openFrame Cells.openFrame fun frame frame' =>
        ih _ _ frame frame' within envWithin alike
  | reference place =>
      show R (again.reference env place) (again'.reference env' place)
      unfold Interpretation.reference
      obtain ⟨found, found'⟩ | ⟨found, found'⟩ |
        ⟨_, body, inner, inner', frame, frame', found, found', bodyWithin,
          innerWithin, innerAlike⟩ := alike.lookup envWithin place
      · rw [found, found']
        exact congruence.refuse _
      · rw [found, found']
        exact congruence.refuse _
      · rw [found, found']
        exact related body inner inner' frame frame' bodyWithin innerWithin innerAlike
  | recursive body ih =>
      refine ih _ _ _ _ within ⟨?_, envWithin⟩ (.cons _ _ _ alike)
      intro found defined
      cases defined
      exact within

/-- A relation that every combination keeps holds between two applications of
a rule with the same allowance. -/
theorem apply_related {fragment : Fragment ε} {input input' : Input N ε}
    {R : {α : Type} → Matcher α → Matcher α → Prop}
    (congruence : ∀ steps, Congruence fragment input input' steps steps R)
    (sameGrammar : input'.grammar = input.grammar)
    (grammarWithin : input.grammar.Within fragment) (steps : Nat)
    {Γ : List Type} {α : Type} (rule : Rule N ε Γ α) (env env' : Env N ε Γ)
    (frame frame' : Nat) (within : rule.Within fragment)
    (envWithin : env.Within fragment) (alike : env.Alike env') :
    R (apply input steps rule env frame) (apply input' steps rule env' frame') := by
  induction steps generalizing Γ α frame frame' with
  | zero => exact (congruence 0).halted .exhausted
  | succ steps ih =>
      exact interpret_related (congruence (steps + 1)) sameGrammar grammarWithin
        (fun rule env env' frame frame' within envWithin alike =>
          ih rule env env' frame frame' within envWithin alike)
        rule env env' frame frame' within envWithin alike

end Rule

end Rulebook
