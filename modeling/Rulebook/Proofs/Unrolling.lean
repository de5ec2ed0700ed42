/-
# Ways to tie the knot

A recursive rule can be had in three ways: it refers to itself, its body is unrolled
once with the rule itself in place of the references, or a definition mentions its own
name, and the deferred rule of that name stands in place of the references. All three
come to the same outcomes.

The three differ in what a reference costs. The recursive rule follows one with a step,
the unrolled rule goes on with the recursive rule at once, and the definition spends its
step on the cell of the name. So one allowance may have to be a step larger than the
other, but which outcomes there are does not depend on that.
-/

import Rulebook.Proofs.Substitution
import Rulebook.Rule.Chain
import Rulebook.Rule.Repetition

namespace Rulebook

variable {N : Nonterminals} {ε : Type} {Γ Δ : List Type} {α β : Type}

/-- One rule in place of the references to the innermost recursive rule around. -/
def Substitution.innermost (replacement : Rule N ε Γ α) : Substitution N ε (α :: Γ) Γ
  | _, .here => replacement
  | _, .there place => .reference place

/-- The body of a recursive rule with a rule in place of the references to it. -/
def Rule.instantiate (body : Rule N ε (α :: Γ) β) (replacement : Rule N ε Γ α) :
    Rule N ε Γ β :=
  body.subst (.innermost replacement)

namespace Matcher

variable {matcher : Matcher α} {framed : Nat → Matcher α}

/-- It does not matter in which frame the left matcher is applied. -/
theorem Settles.framed_left (choose : Cells → Nat × Cells)
    (settles : ∀ frame, (framed frame).Settles matcher) :
    (Matcher.framed choose framed).Settles matcher := by
  intro session session' position outcome after same applied
  exact @settles (choose session.cells).1 { session with cells := (choose session.cells).2 }
    session' position outcome after same applied

/-- It does not matter in which frame the right matcher is applied. -/
theorem Settles.framed_right (choose : Cells → Nat × Cells)
    (settles : ∀ frame, matcher.Settles (framed frame)) :
    matcher.Settles (Matcher.framed choose framed) := by
  intro session session' position outcome after same applied
  exact @settles (choose session'.cells).1 session
    { session' with cells := (choose session'.cells).2 } position outcome after same applied

end Matcher

namespace Rule

variable {input : Input N ε}

/-- What a rule comes to, a rule that it settles to comes to as well. -/
theorem Yields.of_settles {env : Env N ε Γ} {env' : Env N ε Δ} {context : Context}
    {rule : Rule N ε Γ α} {rule' : Rule N ε Δ α} {position : Nat} {outcome : Outcome α}
    (extra : Nat)
    (settles : ∀ steps, (apply input steps rule env 0).Settles
      (apply input (extra + steps) rule' env' 0))
    (yields : rule.Yields ⟨input, env, context⟩ position outcome) :
    rule'.Yields ⟨input, env', context⟩ position outcome := by
  obtain ⟨steps, after, applied⟩ := yields_iff_apply.mp yields
  obtain ⟨_, after', applied', _⟩ := settles (steps + 1) rfl applied
  exact yields_of_apply rfl applied'

/-! ## References and names cost a step -/

theorem apply_recursive (steps : Nat) (body : Rule N ε (α :: Γ) α) (env : Env N ε Γ)
    (frame : Nat) :
    apply input steps (.recursive body) env frame =
      apply input steps body (.cons (.defined body) frame env) frame := by
  cases steps <;> rfl

/-- In the body of a recursive rule every reference may be replaced by itself. -/
theorem apply_recursive_eq_subst (steps : Nat) (body : Rule N ε (α :: Γ) α)
    (env : Env N ε Γ) (frame : Nat) :
    apply input steps (.recursive body) env frame =
      apply input steps (body.subst .identity) (.cons (.defined body) frame env) frame := by
  rw [subst_identity, apply_recursive]

/-- A reference goes on, with a step less, as the recursive rule it leads to. -/
theorem apply_reference_here (steps : Nat) (body : Rule N ε (α :: Γ) α) (env : Env N ε Γ)
    (outer frame : Nat) :
    apply input (steps + 1) (.reference .here) (.cons (.defined body) outer env) frame =
      apply input steps (.recursive body) env outer :=
  (apply_recursive steps body env outer).symm

/-- References to the recursive rules further out do not see the innermost one. -/
theorem apply_reference_there (steps : Nat) (place : Member β Γ) (slot : Slot N ε Γ α)
    (env : Env N ε Γ) (outer frame : Nat) :
    apply input steps (.reference (.there place)) (.cons slot outer env) frame =
      apply input steps (.reference place) env frame := by
  cases steps <;> cases slot <;> rfl

/-- A name goes on, with a step less, as what the grammar gives for it. -/
theorem apply_deferred {name : N.Name} {definition : Rule N ε [] (N.Value name)}
    (defined : input.grammar name = .ok definition) (steps number : Nat)
    (env : Env N ε Γ) (frame : Nat) :
    apply input (steps + 1) (.deferred number name) env frame =
      .framed (Cells.frameOf ⟨frame, number⟩) (apply input steps definition .nil) :=
  Interpretation.deferred_eq_framed (apply input steps) defined ⟨frame, number⟩

section Yields

variable {env : Env N ε Γ} {context : Context} {position : Nat} {outcome : Outcome α}
  {body : Rule N ε (α :: Γ) α}

/-- A recursive rule comes to what its body comes to among the recursive rules around. -/
theorem yields_recursive_iff :
    (recursive body).Yields ⟨input, env, context⟩ position outcome ↔
      body.Yields ⟨input, .cons (.defined body) 0 env, context⟩ position outcome := by
  simp only [yields_iff_apply, apply_recursive]
  rfl

/-- A reference comes to what the recursive rule it leads to comes to. -/
theorem yields_reference_here_iff :
    (reference .here).Yields ⟨input, .cons (.defined body) 0 env, context⟩ position outcome ↔
      (recursive body).Yields ⟨input, env, context⟩ position outcome := by
  refine ⟨fun yields => ?_, fun yields => ?_⟩
  · obtain ⟨steps, after, applied⟩ := yields_iff_apply.mp yields
    rw [apply_reference_here] at applied
    exact yields_of_apply rfl applied
  · obtain ⟨steps, after, applied⟩ := yields_iff_apply.mp yields
    refine yields_iff_apply.mpr ⟨steps + 1, after, ?_⟩
    rw [apply_reference_here]
    exact applied

end Yields

/-- A name comes to what the grammar gives for it. -/
theorem yields_deferred_iff {setting : Setting N ε Γ} {name : N.Name}
    {definition : Rule N ε [] (N.Value name)}
    (defined : setting.input.grammar name = .ok definition) {number position : Nat}
    {outcome : Outcome (N.Value name)} :
    (deferred number name).Yields setting position outcome ↔
      definition.Yields ⟨setting.input, .nil, setting.context⟩ position outcome := by
  refine ⟨fun yields => ?_, fun yields => ?_⟩
  · obtain ⟨steps, after, applied⟩ := yields_iff_apply.mp yields
    rw [apply_deferred defined] at applied
    exact yields_of_apply rfl applied
  · obtain ⟨enough, run⟩ := yields
    obtain ⟨after, applied, _⟩ := run enough (Nat.le_refl enough)
      (Cells.frameOf ⟨0, number⟩ setting.session.cells).1
      { setting.session with
        cells := (Cells.frameOf ⟨0, number⟩ setting.session.cells).2 } rfl
    refine yields_iff_apply.mpr ⟨enough, after, ?_⟩
    rw [apply_deferred defined]
    exact applied

/-! ## A rule in place of the references -/

section Replacement

variable {slot : Slot N ε Γ α} {outer : Nat} {env : Env N ε Γ} {replacement : Rule N ε Γ α}

/-- If a reference settles to a rule, then rules that mention the reference settle to
themselves with that rule in its place. -/
theorem settles_instantiate (extra : Nat)
    (settles : ∀ steps frame frame',
      (apply input steps (.reference .here) (.cons slot outer env) frame).Settles
        (apply input (extra + steps) replacement env frame'))
    (rule : Rule N ε (α :: Γ) β) (steps frame frame' : Nat) :
    (apply input steps rule (.cons slot outer env) frame).Settles
      (apply input (extra + steps) (rule.instantiate replacement) env frame') := by
  have replaced : (apply input steps (rule.subst .identity) (.cons slot outer env) frame).Settles
      (apply input (extra + steps) (rule.instantiate replacement) env frame') := by
    refine subst_settles extra steps .identity (.innermost replacement) _ env
      (fun fewer _ _ place inner inner' => ?_) rule frame frame'
    cases place with
    | here => exact settles fewer inner inner'
    | there place =>
        show (apply input fewer (.reference (.there place)) _ inner).Settles _
        rw [apply_reference_there]
        exact apply_settles (by omega) (.reference place) (.refl env) inner inner'
  rwa [subst_identity] at replaced

/-- The same the other way round. -/
theorem instantiate_settles (extra : Nat)
    (settles : ∀ steps frame frame', (apply input steps replacement env frame).Settles
      (apply input (extra + steps) (.reference .here) (.cons slot outer env) frame'))
    (rule : Rule N ε (α :: Γ) β) (steps frame frame' : Nat) :
    (apply input steps (rule.instantiate replacement) env frame).Settles
      (apply input (extra + steps) rule (.cons slot outer env) frame') := by
  have replaced : (apply input steps (rule.instantiate replacement) env frame).Settles
      (apply input (extra + steps) (rule.subst .identity) (.cons slot outer env) frame') := by
    refine subst_settles extra steps (.innermost replacement) .identity env _
      (fun fewer _ _ place inner inner' => ?_) rule frame frame'
    cases place with
    | here => exact settles fewer inner inner'
    | there place =>
        show Matcher.Settles _ (apply input (extra + fewer) (.reference (.there place)) _ inner')
        rw [apply_reference_there]
        exact apply_settles (by omega) (.reference place) (.refl env) inner inner'
  rwa [subst_identity] at replaced

end Replacement

/-! ## Unrolling once -/

variable {body : Rule N ε (α :: Γ) α} {env : Env N ε Γ}

/-- Following a reference takes one more step than going on with the recursive rule. -/
theorem reference_settles_recursive (outer steps frame frame' : Nat) :
    (apply input steps (.reference .here) (.cons (.defined body) outer env) frame).Settles
      (apply input (0 + steps) (.recursive body) env frame') := by
  cases steps with
  | zero => exact .halted .exhausted
  | succ steps =>
      rw [apply_reference_here]
      exact apply_settles (by omega) (.recursive body) (.refl env) outer frame'

theorem recursive_settles_reference (outer steps frame frame' : Nat) :
    (apply input steps (.recursive body) env frame).Settles
      (apply input (1 + steps) (.reference .here) (.cons (.defined body) outer env) frame') := by
  rw [Nat.add_comm, apply_reference_here]
  exact apply_settles (Nat.le_refl steps) (.recursive body) (.refl env) frame outer

/-- The unrolled rule needs no more steps than the recursive one. -/
theorem recursive_settles_unrolled (steps frame frame' : Nat) :
    (apply input steps (.recursive body) env frame).Settles
      (apply input (0 + steps) (body.instantiate (.recursive body)) env frame') := by
  rw [apply_recursive]
  exact settles_instantiate 0 (reference_settles_recursive frame) body steps frame frame'

/-- The unrolled rule has saved the step to the reference, which the recursive rule
needs in addition. -/
theorem unrolled_settles_recursive (steps frame frame' : Nat) :
    (apply input steps (body.instantiate (.recursive body)) env frame).Settles
      (apply input (1 + steps) (.recursive body) env frame') := by
  rw [apply_recursive]
  exact instantiate_settles 1 (recursive_settles_reference frame') body steps frame frame'

/-- A recursive rule comes to the same as its body with the rule itself in place of the
references to it. -/
theorem yields_recursive_iff_unrolled {setting : Setting N ε Γ} {position : Nat}
    {outcome : Outcome α} :
    (recursive body).Yields setting position outcome ↔
      (body.instantiate (.recursive body)).Yields setting position outcome :=
  ⟨.of_settles 0 fun steps => recursive_settles_unrolled steps 0 0,
    .of_settles 1 fun steps => unrolled_settles_recursive steps 0 0⟩

/-! ## Definitions that mention their own name -/

section Definition

variable {name : N.Name} {number : Nat} {body : Rule N ε [N.Value name] (N.Value name)}

/-- Step by step the recursive rule and the definition go the same way, one through its
reference and the other through the cell of the name. -/
theorem recursive_settles_definition
    (defined : input.grammar name = .ok (body.instantiate (.deferred number name)))
    (steps frame frame' : Nat) :
    (apply input steps (.recursive body) .nil frame).Settles
      (apply input (0 + steps) (body.instantiate (.deferred number name)) .nil frame') := by
  induction steps using Nat.strongRecOn generalizing frame frame' with
  | ind steps again =>
      rw [apply_recursive_eq_subst]
      refine subst_settles 0 steps .identity (.innermost (.deferred number name)) _ .nil
        (fun fewer enough _ place inner inner' => ?_) body frame frame'
      cases fewer with
      | zero => exact .halted .exhausted
      | succ fewer =>
          cases place with
          | there place => nomatch place
          | here =>
              show (apply input (fewer + 1) (.reference .here) _ inner).Settles
                (apply input (0 + fewer + 1) (.deferred number name) .nil inner')
              rw [apply_reference_here, apply_deferred defined]
              exact .framed_right _ fun opened => again fewer enough frame opened

/-- The same the other way round. -/
theorem definition_settles_recursive
    (defined : input.grammar name = .ok (body.instantiate (.deferred number name)))
    (steps frame frame' : Nat) :
    (apply input steps (body.instantiate (.deferred number name)) .nil frame).Settles
      (apply input (0 + steps) (.recursive body) .nil frame') := by
  induction steps using Nat.strongRecOn generalizing frame frame' with
  | ind steps again =>
      rw [apply_recursive_eq_subst]
      refine subst_settles 0 steps (.innermost (.deferred number name)) .identity .nil _
        (fun fewer enough _ place inner inner' => ?_) body frame frame'
      cases fewer with
      | zero => exact .halted .exhausted
      | succ fewer =>
          cases place with
          | there place => nomatch place
          | here =>
              show (apply input (fewer + 1) (.deferred number name) .nil inner).Settles
                (apply input (0 + fewer + 1) (.reference .here) _ inner')
              rw [apply_reference_here, apply_deferred defined]
              exact .framed_left _ fun opened => again fewer enough opened frame'

/-- A recursive rule comes to the same as a definition that has its own name in place of
the references. -/
theorem yields_recursive_iff_definition {setting : Setting N ε []} {position : Nat}
    {outcome : Outcome (N.Value name)}
    (defined : setting.input.grammar name = .ok (body.instantiate (.deferred number name))) :
    (recursive body).Yields setting position outcome ↔
      (body.instantiate (.deferred number name)).Yields setting position outcome := by
  obtain ⟨input, env, context⟩ := setting
  cases env
  exact ⟨.of_settles 0 fun steps => recursive_settles_definition defined steps 0 0,
    .of_settles 0 fun steps => definition_settles_recursive defined steps 0 0⟩

end Definition

/-- A recursive rule, its body unrolled once, and the definition that mentions its own
name have the same outcomes. -/
theorem recursive_is_fixpoint :
    (∀ {Γ : List Type} {α : Type} (setting : Setting N ε Γ) (body : Rule N ε (α :: Γ) α)
      (position : Nat) (outcome : Outcome α),
      (recursive body).Yields setting position outcome ↔
        (body.instantiate (.recursive body)).Yields setting position outcome) ∧
    ∀ (setting : Setting N ε []) (name : N.Name) (number : Nat)
      (body : Rule N ε [N.Value name] (N.Value name)),
      setting.input.grammar name = .ok (body.instantiate (.deferred number name)) →
      ∀ (position : Nat) (outcome : Outcome (N.Value name)),
        (recursive body).Yields setting position outcome ↔
          (body.instantiate (.deferred number name)).Yields setting position outcome :=
  ⟨fun _ _ _ _ => yields_recursive_iff_unrolled,
    fun _ _ _ _ defined _ _ => yields_recursive_iff_definition defined⟩

/-- How deeply brackets are nested. -/
def brackets : Rule N Char [Nat] Nat :=
  (enclose (nextIf (· = '[')) (nextIf (· = ']')) (collect .any (.reference .here))).map
    fun depths => 1 + depths.foldl max 0

/-- The one name of a grammar for nested brackets. -/
def bracketNames : Nonterminals := ⟨Unit, fun _ => Nat⟩

/-- Nested brackets by a definition that mentions its own name. -/
def bracketGrammar : Grammar bracketNames Char :=
  fun _ => .ok (brackets.instantiate (.deferred 0 ()))

/-- Three pairs, one of them around the others. -/
theorem brackets_is_fixpoint :
    let setting : Setting bracketNames Char [] :=
      ⟨⟨#['[', '[', ']', '[', ']', ']'], bracketGrammar, .off⟩, .nil, ∅⟩
    setting.input.grammar () = .ok (brackets.instantiate (.deferred 0 ())) ∧
      (recursive brackets).Yields setting 0 (.accepted (2 : Nat) 6) ∧
      (brackets.instantiate (.recursive brackets)).Yields setting 0 (.accepted 2 6) ∧
      (brackets.instantiate (.deferred 0 ())).Yields setting 0 (.accepted (2 : Nat) 6) := by
  intro setting
  have nested : (recursive brackets).Yields setting 0 (.accepted (2 : Nat) 6) :=
    yields_iff_apply.mpr ⟨8, _, rfl⟩
  exact ⟨rfl, nested, (recursive_is_fixpoint.1 setting brackets 0 _).mp nested,
    (recursive_is_fixpoint.2 setting () 0 brackets rfl 0 _).mp nested⟩

end Rule

end Rulebook
