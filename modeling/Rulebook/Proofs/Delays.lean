/-
# Delays do not matter

A rule can be built together with the rule it is a part of, or be delayed until it is applied
for the first time. Until then nothing is known of it but what it mentions, be it a recursive
rule around it that is still being defined, or another part that is built on first use. Here
the delays are taken out, of a rule, of the definitions that names stand for and of the
recursive rules around, and the rule comes to the same outcomes as before.

Both interpretations take the same steps one after the other. Only the cells differ, and cells
do not matter to outcomes. So the comparison is that of a rule with itself, but for one case.
-/

import Rulebook.Proofs.Courses
import Rulebook.Proofs.Unrolling

namespace Rulebook

variable {N : Nonterminals} {ε : Type} {Γ : List Type} {α β : Type}

/-! ## Taking the delays out -/

/-- The rule with all its parts built at once. -/
def Rule.prompt : {Γ : List Type} → {α : Type} → Rule N ε Γ α → Rule N ε Γ α
  | _, _, .leaf part => .leaf part
  | _, _, .unfinished rule => .unfinished rule.prompt
  | _, _, .map f rule => .map f rule.prompt
  | _, _, .flatMap rule next => .flatMap rule.prompt fun value => (next value).prompt
  | _, _, .thenWith combine rule next => .thenWith combine rule.prompt next.prompt
  | _, _, .nonEmpty rule => .nonEmpty rule.prompt
  | _, _, .path label rule => .path label rule.prompt
  | _, _, .traced label rule => .traced label rule.prompt
  | _, _, .orElse rule other => .orElse rule.prompt other.prompt
  | _, _, .slice rule => .slice rule.prompt
  | _, _, .spanned rule => .spanned rule.prompt
  | _, _, .repeated bounds separator item init fold =>
    .repeated bounds separator.prompt item.prompt init fold
  | _, _, .deferred number name => .deferred number name
  | _, _, .delayed _ rule => rule.prompt
  | _, _, .fresh rule => .fresh rule.prompt
  | _, _, .reference place => .reference place
  | _, _, .recursive body => .recursive body.prompt

/-- Nothing is delayed in the definitions either. -/
def Grammar.prompt (grammar : Grammar N ε) : Grammar N ε :=
  fun name => (grammar name).map Rule.prompt

def Input.prompt (input : Input N ε) : Input N ε :=
  { input with grammar := input.grammar.prompt }

def Slot.prompt : Slot N ε Γ α → Slot N ε Γ α
  | .undefined => .undefined
  | .defined body => .defined body.prompt
  | .dropped => .dropped

def Env.prompt : {Γ : List Type} → Env N ε Γ → Env N ε Γ
  | _, .nil => .nil
  | _, .cons slot frame rest => .cons slot.prompt frame rest.prompt

def Target.prompt : Target N ε α → Target N ε α
  | .undefined => .undefined
  | .rule body env frame => .rule body.prompt env.prompt frame
  | .dropped => .dropped

/-- Nothing is delayed in whatever an application reads. -/
def Setting.prompt (setting : Setting N ε Γ) : Setting N ε Γ where
  input := setting.input.prompt
  env := setting.env.prompt
  context := setting.context

/-- References lead to the same places. -/
theorem Env.lookup_prompt (env : Env N ε Γ) (place : Member α Γ) :
    env.prompt.lookup place = (env.lookup place).prompt := by
  induction env with
  | nil => nomatch place
  | cons slot frame rest ih =>
      cases place with
      | here => cases slot <;> rfl
      | there place => cases slot <;> exact ih place

/-! ## The comparison -/

namespace Matcher

/-- From sessions with the same labels the two matchers have the same outcomes. -/
def SettlesBoth (matcher matcher' : Matcher α) : Prop :=
  matcher.Settles matcher' ∧ matcher'.Settles matcher

/-- What every combination keeps from the left to the right and from the right to the left, it
keeps both ways. -/
theorem settlesBoth_congruence {input input' : Input N ε}
    (sameSource : input'.source = input.source) (steps : Nat) :
    Congruence .all input input' steps steps SettlesBoth :=
  have forth := settles_congruence sameSource (Nat.le_refl steps)
  have back := settles_congruence sameSource.symm (Nat.le_refl steps)
  { halted := fun cause => ⟨forth.halted cause, back.halted cause⟩
    refuse := fun message => ⟨forth.refuse message, back.refuse message⟩
    leaf := fun part allowed => ⟨forth.leaf part allowed, back.leaf part allowed⟩
    unfinished := fun kept => ⟨forth.unfinished kept.1, back.unfinished kept.2⟩
    map := fun f _ _ kept => ⟨forth.map f kept.1, back.map f kept.2⟩
    flatMap := fun kept keptNext =>
      ⟨forth.flatMap kept.1 fun value => (keptNext value).1,
        back.flatMap kept.2 fun value => (keptNext value).2⟩
    nonEmpty := fun kept => ⟨forth.nonEmpty kept.1, back.nonEmpty kept.2⟩
    path := fun label _ _ kept => ⟨forth.path label kept.1, back.path label kept.2⟩
    traced := fun allowed label _ _ kept =>
      ⟨forth.traced allowed label kept.1, back.traced allowed label kept.2⟩
    orElse := fun kept keptOther =>
      ⟨forth.orElse kept.1 keptOther.1, back.orElse kept.2 keptOther.2⟩
    slice := fun kept => ⟨forth.slice kept.1, back.slice kept.2⟩
    spanned := fun allowed _ _ kept => ⟨forth.spanned allowed kept.1, back.spanned allowed kept.2⟩
    repeated := fun bounds _ _ _ _ init fold keptSeparator keptItem =>
      ⟨forth.repeated bounds init fold keptSeparator.1 keptItem.1,
        back.repeated bounds init fold keptSeparator.2 keptItem.2⟩
    framed := fun choose choose' _ _ kept =>
      ⟨forth.framed choose choose' fun frame frame' => (kept frame frame').1,
        back.framed choose' choose fun frame frame' => (kept frame' frame).2⟩ }

end Matcher

namespace Rule

variable {input : Input N ε}

/-- One step of the comparison: if what references and names lead to does not depend on delays,
neither does the rule. -/
theorem interpret_prompt {steps : Nat} {again again' : Interpretation N ε}
    (settle : ∀ {Γ : List Type} {α : Type} (rule : Rule N ε Γ α) (env env' : Env N ε Γ)
      (frame frame' : Nat), env.prompt.Alike env' →
      (again rule env frame).SettlesBoth (again' rule.prompt env' frame'))
    (rule : Rule N ε Γ α) (env env' : Env N ε Γ) (frame frame' : Nat)
    (alike : env.prompt.Alike env') :
    (rule.interpret input again steps env frame).SettlesBoth
      (rule.prompt.interpret input.prompt again' steps env' frame') := by
  have sameSource : input.prompt.source = input.source := rfl
  have congruence := Matcher.settlesBoth_congruence sameSource steps
  induction rule generalizing frame frame' with
  | leaf part => exact congruence.leaf part trivial
  | unfinished rule ih => exact congruence.unfinished (ih _ _ _ _ alike)
  | map f rule ih => exact congruence.map f (ih _ _ _ _ alike)
  | flatMap rule next ih ihNext =>
      exact congruence.flatMap (ih _ _ _ _ alike) fun value => ihNext value _ _ _ _ alike
  | thenWith combine rule next ih ihNext =>
      show (Matcher.thenWith combine _ _).SettlesBoth (Matcher.thenWith combine _ _)
      rw [Matcher.thenWith_eq_flatMap, Matcher.thenWith_eq_flatMap]
      exact congruence.flatMap (ih _ _ _ _ alike)
        fun value => congruence.map _ (ihNext _ _ _ _ alike)
  | nonEmpty rule ih => exact congruence.nonEmpty (ih _ _ _ _ alike)
  | path label rule ih => exact congruence.path label (ih _ _ _ _ alike)
  | traced label rule ih => exact congruence.traced trivial label (ih _ _ _ _ alike)
  | orElse rule other ih ihOther =>
      exact congruence.orElse (ih _ _ _ _ alike) (ihOther _ _ _ _ alike)
  | slice rule ih => exact congruence.slice (ih _ _ _ _ alike)
  | spanned rule ih => exact congruence.spanned trivial (ih _ _ _ _ alike)
  | repeated bounds separator item init fold ihSeparator ihItem =>
      exact congruence.repeated bounds init fold (ihSeparator _ _ _ _ alike)
        (ihItem _ _ _ _ alike)
  | deferred number name =>
      show Matcher.SettlesBoth (again.deferred input.grammar _ name)
        (again'.deferred input.grammar.prompt _ name)
      cases found : input.grammar name with
      | error cause =>
          have found' : input.grammar.prompt name = .error cause := by
            rw [Grammar.prompt, found]
            rfl
          rw [Interpretation.deferred_eq_halted _ found,
            Interpretation.deferred_eq_halted _ found']
          exact congruence.halted _
      | ok rule =>
          have found' : input.grammar.prompt name = .ok rule.prompt := by
            rw [Grammar.prompt, found]
            rfl
          rw [Interpretation.deferred_eq_framed _ found,
            Interpretation.deferred_eq_framed _ found']
          exact congruence.framed _ _ fun frame frame' => settle rule .nil .nil frame frame' .nil
  | delayed number rule ih =>
      -- The cell is looked up on the left side only.
      obtain ⟨settles, settled⟩ := ih env env' frame frame' alike
      exact ⟨.framed_left _ fun _ => settles, .framed_right _ fun _ => settled⟩
  | fresh rule ih =>
      exact congruence.framed Cells.openFrame Cells.openFrame fun frame frame' =>
        ih _ _ frame frame' alike
  | reference place =>
      show Matcher.SettlesBoth (again.reference env place) (again'.reference env' place)
      have leads := env.lookup_prompt place
      unfold Interpretation.reference
      cases target : env.lookup place with
      | undefined =>
          rw [target] at leads
          rw [alike.lookup_undefined leads]
          exact congruence.refuse _
      | dropped =>
          rw [target] at leads
          rw [alike.lookup_dropped leads]
          exact congruence.refuse _
      | rule body inner outer =>
          rw [target] at leads
          obtain ⟨inner', outer', found', innerAlike⟩ := alike.lookup_rule leads
          rw [found']
          exact settle body inner inner' outer outer' innerAlike
  | recursive body ih => exact ih _ _ frame frame' (.cons (.defined body.prompt) _ _ alike)

theorem apply_prompt (steps : Nat) (rule : Rule N ε Γ α) (env env' : Env N ε Γ)
    (frame frame' : Nat) (alike : env.prompt.Alike env') :
    (apply input steps rule env frame).SettlesBoth
      (apply input.prompt steps rule.prompt env' frame') := by
  induction steps generalizing Γ α frame frame' with
  | zero => exact ⟨.halted .exhausted, .halted .exhausted⟩
  | succ steps ih =>
      exact interpret_prompt
        (fun rule env env' frame frame' alike => ih rule env env' frame frame' alike)
        rule env env' frame frame' alike

/-! ## Outcomes without delays -/

/-- Delays do not matter: a rule comes to the same outcomes if all its parts, all definitions
and all recursive rules around are built at once. -/
theorem yields_prompt_iff {setting : Setting N ε Γ} {rule : Rule N ε Γ α} {position : Nat}
    {outcome : Outcome α} :
    rule.prompt.Yields setting.prompt position outcome ↔
      rule.Yields setting position outcome := by
  have same (steps : Nat) : (apply setting.input steps rule setting.env 0).SettlesBoth
      (apply setting.prompt.input steps rule.prompt setting.prompt.env 0) :=
    apply_prompt steps rule _ _ 0 0 (.refl _)
  simp only [yields_iff_apply]
  refine exists_congr fun steps => ⟨fun holds => ?_, fun holds => ?_⟩
  · obtain ⟨after, applied⟩ := holds
    obtain ⟨_, after', applied', _⟩ := (same (steps + 1)).2 rfl applied
    exact ⟨after', applied'⟩
  · obtain ⟨after, applied⟩ := holds
    obtain ⟨_, after', applied', _⟩ := (same (steps + 1)).1 rfl applied
    exact ⟨after', applied'⟩

/-- So rules that differ only in what is delayed may take the place of each other, as parts of a
recursive rule that they refer to as well. -/
theorem equivalent_of_prompt_eq {rule other : Rule N ε Γ α}
    (same : rule.prompt = other.prompt) : rule.Equivalent other := fun setting _ _ => by
  rw [← yields_prompt_iff, same, yields_prompt_iff]

/-- The body of a recursive rule may be delayed. It captures the reference then. -/
example (body : Rule N ε (α :: Γ) α) (number : Nat) :
    (recursive (body.delayed number)).Equivalent (recursive body) :=
  equivalent_of_prompt_eq rfl

end Rule

end Rulebook
