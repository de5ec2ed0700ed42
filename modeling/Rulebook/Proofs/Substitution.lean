/-
# Rules in place of references

A reference to a recursive rule around can be replaced by a rule. The rule that is
put in its place may come to stand inside of further recursive rules, so that its
own references have to be renamed to reach past these.

Renaming does not change what a rule does, as long as the new names lead to the
same. For replacements the central statement compares two of them at once: if each
rule that is put in by the first settles to the one put in by the second, then so do
the results. References themselves are replacements too, and replacing every
reference by itself changes nothing; the statement therefore also covers the
comparison of a rule with one in which its references have been replaced.

Behind a nested recursive rule the references to it lead to two different bodies on
the two sides, in which the same replacements were made. What holds of them is known
only for fewer steps, and this is why the induction is over steps first.
-/

import Rulebook.Proofs.Yields

namespace Rulebook

variable {N : Nonterminals} {ε : Type}

/-- For every place among some recursive rules a place among others. -/
abbrev Renaming (Γ Δ : List Type) : Type 1 :=
  ⦃α : Type⦄ → Member α Γ → Member α Δ

/-- Under one more recursive rule, which keeps its place. -/
def Renaming.lift {Γ Δ : List Type} {β : Type} (ρ : Renaming Γ Δ) :
    Renaming (β :: Γ) (β :: Δ)
  | _, .here => .here
  | _, .there place => .there (ρ place)

/-- Let the references of a rule lead to other places. -/
def Rule.rename : {Γ Δ : List Type} → {α : Type} → Renaming Γ Δ → Rule N ε Γ α →
    Rule N ε Δ α
  | _, _, _, _, .leaf part => .leaf part
  | _, _, _, ρ, .unfinished rule => .unfinished (rule.rename ρ)
  | _, _, _, ρ, .map f rule => .map f (rule.rename ρ)
  | _, _, _, ρ, .flatMap rule next =>
    .flatMap (rule.rename ρ) fun value => (next value).rename ρ
  | _, _, _, ρ, .thenWith combine rule next =>
    .thenWith combine (rule.rename ρ) (next.rename ρ)
  | _, _, _, ρ, .nonEmpty rule => .nonEmpty (rule.rename ρ)
  | _, _, _, ρ, .path label rule => .path label (rule.rename ρ)
  | _, _, _, ρ, .traced label rule => .traced label (rule.rename ρ)
  | _, _, _, ρ, .orElse rule other => .orElse (rule.rename ρ) (other.rename ρ)
  | _, _, _, ρ, .slice rule => .slice (rule.rename ρ)
  | _, _, _, ρ, .spanned rule => .spanned (rule.rename ρ)
  | _, _, _, ρ, .repeated bounds separator item init fold =>
    .repeated bounds (separator.rename ρ) (item.rename ρ) init fold
  | _, _, _, _, .deferred number name => .deferred number name
  | _, _, _, ρ, .delayed number rule => .delayed number (rule.rename ρ)
  | _, _, _, ρ, .fresh rule => .fresh (rule.rename ρ)
  | _, _, _, ρ, .reference place => .reference (ρ place)
  | _, _, _, ρ, .recursive body => .recursive (body.rename ρ.lift)

/-- For every place among some recursive rules a rule inside of others. -/
abbrev Substitution (N : Nonterminals) (ε : Type) (Γ Δ : List Type) : Type 1 :=
  ⦃α : Type⦄ → Member α Γ → Rule N ε Δ α

/-- Under one more recursive rule, to which references stay. -/
def Substitution.lift {Γ Δ : List Type} {β : Type} (σ : Substitution N ε Γ Δ) :
    Substitution N ε (β :: Γ) (β :: Δ)
  | _, .here => .reference .here
  | _, .there place => (σ place).rename fun _ => .there

/-- Put rules in place of the references of a rule. -/
def Rule.subst : {Γ Δ : List Type} → {α : Type} → Substitution N ε Γ Δ → Rule N ε Γ α →
    Rule N ε Δ α
  | _, _, _, _, .leaf part => .leaf part
  | _, _, _, σ, .unfinished rule => .unfinished (rule.subst σ)
  | _, _, _, σ, .map f rule => .map f (rule.subst σ)
  | _, _, _, σ, .flatMap rule next =>
    .flatMap (rule.subst σ) fun value => (next value).subst σ
  | _, _, _, σ, .thenWith combine rule next =>
    .thenWith combine (rule.subst σ) (next.subst σ)
  | _, _, _, σ, .nonEmpty rule => .nonEmpty (rule.subst σ)
  | _, _, _, σ, .path label rule => .path label (rule.subst σ)
  | _, _, _, σ, .traced label rule => .traced label (rule.subst σ)
  | _, _, _, σ, .orElse rule other => .orElse (rule.subst σ) (other.subst σ)
  | _, _, _, σ, .slice rule => .slice (rule.subst σ)
  | _, _, _, σ, .spanned rule => .spanned (rule.subst σ)
  | _, _, _, σ, .repeated bounds separator item init fold =>
    .repeated bounds (separator.subst σ) (item.subst σ) init fold
  | _, _, _, _, .deferred number name => .deferred number name
  | _, _, _, σ, .delayed number rule => .delayed number (rule.subst σ)
  | _, _, _, σ, .fresh rule => .fresh (rule.subst σ)
  | _, _, _, σ, .reference place => σ place
  | _, _, _, σ, .recursive body => .recursive (body.subst σ.lift)

/-- Replace every reference by itself. -/
def Substitution.identity {Γ : List Type} : Substitution N ε Γ Γ :=
  fun _ place => .reference place

theorem Substitution.lift_identity {Γ : List Type} {β : Type} :
    (identity : Substitution N ε Γ Γ).lift = (identity : Substitution N ε (β :: Γ) _) := by
  funext α place
  cases place <;> rfl

theorem Rule.subst_identity {Γ : List Type} {α : Type} (rule : Rule N ε Γ α) :
    rule.subst .identity = rule := by
  induction rule with
  | leaf | deferred | reference => rfl
  | unfinished _ ih | map _ _ ih | nonEmpty _ ih | path _ _ ih | traced _ _ ih | slice _ ih
  | spanned _ ih | delayed _ _ ih | fresh _ ih => rw [subst, ih]
  | flatMap _ _ ih ihNext => simp only [subst, ih, ihNext]
  | thenWith _ _ _ ih ihNext => rw [subst, ih, ihNext]
  | orElse _ _ ih ihOther => rw [subst, ih, ihOther]
  | repeated _ _ _ _ _ ihSeparator ihItem => rw [subst, ihSeparator, ihItem]
  | recursive body ih => rw [subst, Substitution.lift_identity, ih]

namespace Rule

variable {input : Input N ε}

/-! ## Renaming -/

/-- With an allowance of steps, references lead to the same before and after they are
renamed. -/
def SameReferences (input : Input N ε) {Γ Δ : List Type} (ρ : Renaming Γ Δ)
    (env : Env N ε Γ) (env' : Env N ε Δ) (steps : Nat) : Prop :=
  ∀ ⦃α : Type⦄ (place : Member α Γ),
    Interpretation.reference (apply input steps) env' (ρ place) =
      Interpretation.reference (apply input steps) env place

/-- A renamed rule does what it did, if its references lead to the same with fewer
steps. -/
theorem apply_rename (steps : Nat) {Γ Δ : List Type} (ρ : Renaming Γ Δ) (env : Env N ε Γ)
    (env' : Env N ε Δ) (same : ∀ fewer < steps, SameReferences input ρ env env' fewer)
    {α : Type} (rule : Rule N ε Γ α) (frame : Nat) :
    apply input steps (rule.rename ρ) env' frame = apply input steps rule env frame := by
  induction steps using Nat.strongRecOn generalizing Γ Δ α frame with
  | ind steps again =>
      cases steps with
      | zero => rfl
      | succ steps =>
          show (rule.rename ρ).interpret input (apply input steps) (steps + 1) env' frame =
            rule.interpret input (apply input steps) (steps + 1) env frame
          induction rule generalizing Δ frame with
          | leaf part => rfl
          | deferred number name => rfl
          | reference place => exact same steps (Nat.lt_succ_self steps) place
          | unfinished rule ih =>
              exact congrArg (Matcher.unfinished _) (ih ρ env env' frame same)
          | map f rule ih => exact congrArg (Matcher.map f) (ih ρ env env' frame same)
          | flatMap rule next ih ihNext =>
              show Matcher.flatMap _ _ = Matcher.flatMap _ _
              rw [ih ρ env env' frame same]
              exact congrArg _ (funext fun value => ihNext value ρ env env' frame same)
          | thenWith combine rule next ih ihNext =>
              show Matcher.thenWith combine _ _ = Matcher.thenWith combine _ _
              rw [ih ρ env env' frame same, ihNext ρ env env' frame same]
          | nonEmpty rule ih => exact congrArg Matcher.nonEmpty (ih ρ env env' frame same)
          | path label rule ih =>
              exact congrArg (Matcher.path label) (ih ρ env env' frame same)
          | traced label rule ih =>
              exact congrArg (Matcher.traced _ label) (ih ρ env env' frame same)
          | orElse rule other ih ihOther =>
              show Matcher.orElse _ _ = Matcher.orElse _ _
              rw [ih ρ env env' frame same, ihOther ρ env env' frame same]
          | slice rule ih =>
              exact congrArg (Matcher.slice _) (ih ρ env env' frame same)
          | spanned rule ih => exact congrArg Matcher.spanned (ih ρ env env' frame same)
          | repeated bounds separator item init fold ihSeparator ihItem =>
              show Matcher.repeated bounds _ _ init fold _ =
                Matcher.repeated bounds _ _ init fold _
              rw [ihSeparator ρ env env' frame same, ihItem ρ env env' frame same]
          | delayed number rule ih =>
              exact congrArg (Matcher.framed _) (funext fun _ => ih ρ env env' frame same)
          | fresh rule ih =>
              exact congrArg (Matcher.framed Cells.openFrame)
                (funext fun frame => ih ρ env env' frame same)
          | @recursive Γ β body ih =>
              refine ih ρ.lift _ _ frame ?_
              -- References to the nested rule itself lead to its body and the renamed
              -- one, which do the same with fewer steps.
              intro fewer
              induction fewer using Nat.strongRecOn with
              | ind fewer earlier =>
                  intro below α place
                  cases place with
                  | there place => exact same fewer below place
                  | here =>
                      exact again fewer below ρ.lift _ _
                        (fun less smaller => earlier less smaller (by omega)) body frame

/-- Under one more recursive rule a rule does what it did. -/
theorem apply_rename_there (steps : Nat) {Γ : List Type} {α β : Type} (rule : Rule N ε Γ α)
    (env : Env N ε Γ) (body : Rule N ε (β :: Γ) β) (outer frame : Nat) :
    apply input steps (rule.rename fun _ => .there) (.cons (.defined body) outer env) frame =
      apply input steps rule env frame :=
  apply_rename steps (fun _ => .there) env _ (fun _ _ _ _ => rfl) rule frame

/-! ## Replacement -/

/-- If the rules put in by a replacement settle to those put in by another one, then
the results do. The right side may need `extra` steps. -/
theorem subst_settles (extra steps : Nat) {Γ Δ Δ' : List Type} (σ : Substitution N ε Γ Δ)
    (σ' : Substitution N ε Γ Δ') (env : Env N ε Δ) (env' : Env N ε Δ')
    (settles : ∀ fewer ≤ steps, ∀ ⦃α : Type⦄ (place : Member α Γ) (frame frame' : Nat),
      (apply input fewer (σ place) env frame).Settles
        (apply input (extra + fewer) (σ' place) env' frame'))
    {α : Type} (rule : Rule N ε Γ α) (frame frame' : Nat) :
    (apply input steps (rule.subst σ) env frame).Settles
      (apply input (extra + steps) (rule.subst σ') env' frame') := by
  induction steps using Nat.strongRecOn generalizing Γ Δ Δ' α frame frame' with
  | ind steps again =>
      cases steps with
      | zero => exact .halted .exhausted
      | succ steps =>
          have congruence :
              Matcher.Congruence .all input input (steps + 1) (extra + steps + 1)
                Matcher.Settles :=
            Matcher.settles_congruence rfl (by omega)
          show ((rule.subst σ).interpret input (apply input steps) (steps + 1) env
              frame).Settles
            ((rule.subst σ').interpret input (apply input (extra + steps))
              (extra + steps + 1) env' frame')
          induction rule generalizing Δ Δ' frame frame' with
          | leaf part => exact congruence.leaf part trivial
          | reference place => exact settles (steps + 1) (Nat.le_refl _) place frame frame'
          | deferred number name =>
              -- What a name stands for does not depend on the recursive rules around.
              have closed : (apply input (steps + 1) (.deferred number name) .nil
                  frame).Settles
                  (apply input (extra + (steps + 1)) (.deferred number name) .nil frame') :=
                apply_settles (Nat.le_add_left (steps + 1) extra) _ .nil frame frame'
              exact closed
          | unfinished rule ih => exact congruence.unfinished (ih _ _ _ _ _ _ settles)
          | map f rule ih => exact congruence.map f (ih _ _ _ _ _ _ settles)
          | flatMap rule next ih ihNext =>
              exact congruence.flatMap (ih _ _ _ _ _ _ settles)
                fun value => ihNext value _ _ _ _ _ _ settles
          | thenWith combine rule next ih ihNext =>
              show (Matcher.thenWith combine _ _).Settles (Matcher.thenWith combine _ _)
              rw [Matcher.thenWith_eq_flatMap, Matcher.thenWith_eq_flatMap]
              exact congruence.flatMap (ih _ _ _ _ _ _ settles)
                fun value => congruence.map _ (ihNext _ _ _ _ _ _ settles)
          | nonEmpty rule ih => exact congruence.nonEmpty (ih _ _ _ _ _ _ settles)
          | path label rule ih => exact congruence.path label (ih _ _ _ _ _ _ settles)
          | traced label rule ih =>
              exact congruence.traced trivial label (ih _ _ _ _ _ _ settles)
          | orElse rule other ih ihOther =>
              exact congruence.orElse (ih _ _ _ _ _ _ settles)
                (ihOther _ _ _ _ _ _ settles)
          | slice rule ih => exact congruence.slice (ih _ _ _ _ _ _ settles)
          | spanned rule ih => exact congruence.spanned trivial (ih _ _ _ _ _ _ settles)
          | repeated bounds separator item init fold ihSeparator ihItem =>
              exact congruence.repeated bounds init fold
                (ihSeparator _ _ _ _ _ _ settles) (ihItem _ _ _ _ _ _ settles)
          | delayed number rule ih =>
              exact congruence.framed _ _ fun _ _ => ih _ _ _ _ frame frame' settles
          | fresh rule ih =>
              exact congruence.framed Cells.openFrame Cells.openFrame fun frame frame' =>
                ih _ _ _ _ frame frame' settles
          | @recursive Γ β body ih =>
              refine ih σ.lift σ'.lift _ _ frame frame' ?_
              intro fewer
              induction fewer using Nat.strongRecOn with
              | ind fewer earlier =>
                  intro below α place inner inner'
                  cases place with
                  | there place =>
                      have reached := settles fewer below place inner inner'
                      simp only [Substitution.lift, apply_rename_there]
                      exact reached
                  | here =>
                      cases fewer with
                      | zero => exact .halted .exhausted
                      | succ fewer =>
                          exact again fewer (by omega) σ.lift σ'.lift _ _
                            (fun less small => earlier less (by omega) (by omega))
                            body frame frame'

end Rule

end Rulebook
