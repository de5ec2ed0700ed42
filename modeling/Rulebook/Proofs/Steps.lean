/-
# Chains step by step

A chain is put together from steps, each a rule whose value is kept or dropped. However the
steps are split between chains that are finished and continued, the chain applies them in
their order, each where the one before it stopped, until one rejects. This is said here of a
plain list of steps, with the kept values in a plain list too, and the chain is shown to
come to what the list says: to the tuple of just these values, or to the failures of the
first step that rejects. The steps behind that one are not applied, whatever they are.
-/

import Mathlib.Data.List.Induction
import Rulebook.Proofs.Elements

namespace Rulebook

/-- A value together with its type. -/
abbrev Item : Type 1 := (α : Type) × α

namespace Tuple

/-- The values in order. -/
def toList : {types : List Type} → Tuple types → List Item
  | [], _ => []
  | α :: _, (value, rest) => ⟨α, value⟩ :: rest.toList

@[simp]
theorem toList_append {β : Type} : {types : List Type} → (values : Tuple types) →
    (last : β) → (values.append last).toList = values.toList ++ [⟨β, last⟩]
  | [], _, _ => rfl
  | _ :: _, (_, rest), last => congrArg (List.cons _) (rest.toList_append last)

end Tuple

/-- A step of a sequence. -/
structure Step (N : Nonterminals) (ε : Type) (Γ : List Type) : Type 1 where
  {Value : Type}
  rule : Rule N ε Γ Value
  /-- Whether the value is kept. -/
  pushed : Bool

variable {N : Nonterminals} {ε : Type} {Γ types : List Type} {α β γ : Type}

namespace Step

/-- The values that are kept of a step. -/
def keep (step : Step N ε Γ) (value : step.Value) : List Item :=
  if step.pushed then [⟨step.Value, value⟩] else []

/-- The steps accept in turn, each where the one before it stopped. The values that are kept
are listed in the order of the steps. -/
inductive AcceptInTurn (setting : Setting N ε Γ) :
    List (Step N ε Γ) → Nat → List Item → Nat → Prop
  | nil {position : Nat} : AcceptInTurn setting [] position [] position
  | cons {step : Step N ε Γ} {later : List (Step N ε Γ)} {value : step.Value}
      {values : List Item} {position middle stop : Nat}
      (accepts : step.rule.Yields setting position (.accepted value middle))
      (rest : AcceptInTurn setting later middle values stop) :
      AcceptInTurn setting (step :: later) position (step.keep value ++ values) stop

/-- A step rejects with the failures after all steps before it accepted in turn. -/
def FirstRejects (setting : Setting N ε Γ) (steps : List (Step N ε Γ)) (position : Nat)
    (failures : Failures) : Prop :=
  ∃ before step later values middle, steps = before ++ step :: later ∧
    AcceptInTurn setting before position values middle ∧
    step.rule.Yields setting middle (.rejected failures)

variable {setting : Setting N ε Γ} {steps more : List (Step N ε Γ)} {step : Step N ε Γ}
  {values : List Item} {position stop : Nat} {failures : Failures}

theorem acceptInTurn_nil_iff :
    AcceptInTurn setting [] position values stop ↔ values = [] ∧ position = stop := by
  refine ⟨fun accept => ?_, ?_⟩
  · cases accept
    exact ⟨rfl, rfl⟩
  · rintro ⟨rfl, rfl⟩
    exact .nil

/-- The steps go on where those before them stopped. -/
theorem acceptInTurn_append_iff :
    AcceptInTurn setting (steps ++ more) position values stop ↔
      ∃ front middle back, AcceptInTurn setting steps position front middle ∧
        AcceptInTurn setting more middle back stop ∧ values = front ++ back := by
  induction steps generalizing position values with
  | nil =>
      simp only [List.nil_append, acceptInTurn_nil_iff]
      refine ⟨fun accept => ⟨[], position, values, ⟨rfl, rfl⟩, accept, rfl⟩, ?_⟩
      rintro ⟨_, _, _, ⟨rfl, rfl⟩, accept, rfl⟩
      exact accept
  | cons step steps ih =>
      refine ⟨fun accept => ?_, fun holds => ?_⟩
      · obtain _ | ⟨accepts, rest⟩ := accept
        obtain ⟨front, middle, back, first, second, rfl⟩ := ih.mp rest
        exact ⟨_, middle, back, .cons accepts first, second, (List.append_assoc ..).symm⟩
      · obtain ⟨_, middle, back, _ | ⟨accepts, first⟩, second, rfl⟩ := holds
        rw [List.append_assoc]
        exact .cons accepts (ih.mpr ⟨_, middle, back, first, second, rfl⟩)

theorem acceptInTurn_concat_iff :
    AcceptInTurn setting (steps ++ [step]) position values stop ↔
      ∃ front middle value, AcceptInTurn setting steps position front middle ∧
        step.rule.Yields setting middle (.accepted value stop) ∧
        values = front ++ step.keep value := by
  rw [acceptInTurn_append_iff]
  refine ⟨fun holds => ?_, fun holds => ?_⟩
  · obtain ⟨front, middle, _, first, _ | ⟨accepts, _ | _⟩, rfl⟩ := holds
    exact ⟨front, middle, _, first, accepts, by rw [List.append_nil]⟩
  · obtain ⟨front, middle, value, first, accepts, rfl⟩ := holds
    exact ⟨front, middle, _, first, .cons accepts .nil, by rw [List.append_nil]⟩

/-- Another step at the end matters only if all steps before it accept. -/
theorem firstRejects_concat_iff :
    FirstRejects setting (steps ++ [step]) position failures ↔
      FirstRejects setting steps position failures ∨
      ∃ values middle, AcceptInTurn setting steps position values middle ∧
        step.rule.Yields setting middle (.rejected failures) := by
  refine ⟨fun holds => ?_, fun holds => ?_⟩
  · obtain ⟨before, rejecting, later, values, middle, split, accept, rejects⟩ := holds
    rcases List.eq_nil_or_concat later with rfl | ⟨others, last, rfl⟩
    · obtain ⟨rfl, same⟩ := List.append_inj' split rfl
      cases same
      exact .inr ⟨values, middle, accept, rejects⟩
    · rw [List.concat_eq_append, ← List.cons_append, ← List.append_assoc] at split
      obtain ⟨rfl, -⟩ := List.append_inj' split rfl
      exact .inl ⟨before, rejecting, others, values, middle, rfl, accept, rejects⟩
  · obtain ⟨before, rejecting, later, values, middle, rfl, accept, rejects⟩ |
      ⟨values, middle, accept, rejects⟩ := holds
    · exact ⟨before, rejecting, later ++ [step], values, middle, by simp, accept, rejects⟩
    · exact ⟨steps, step, [], values, middle, rfl, accept, rejects⟩

end Step

namespace Rule

variable {combine : α → β → γ} {rule : Rule N ε Γ α} {next : Rule N ε Γ β}

/-- A sequence is a continuation that maps. -/
theorem apply_thenWith_eq_flatMap (input : Input N ε) (allowance : Nat)
    (combine : α → β → γ) (rule : Rule N ε Γ α) (next : Rule N ε Γ β) (env : Env N ε Γ)
    (frame : Nat) :
    apply input allowance (rule.thenWith combine next) env frame =
      apply input allowance (rule.flatMap fun value => next.map (combine value)) env frame := by
  cases allowance with
  | zero => rfl
  | succ allowance => exact Matcher.thenWith_eq_flatMap ..

/-- Behind a rejection the second rule of a sequence is not applied. -/
theorem apply_thenWith_of_rejected {input : Input N ε} {allowance frame position : Nat}
    {env : Env N ε Γ} {session after : Session} {failures : Failures}
    (rejected : apply input allowance rule env frame session position =
      .ok (.rejected failures, after)) :
    apply input allowance (rule.thenWith combine next) env frame session position =
      .ok (.rejected failures, after) := by
  rw [apply_thenWith_eq_flatMap]
  cases allowance with
  | zero => cases rejected
  | succ allowance => exact Matcher.flatMap_eq_ok_iff.mpr (.inr ⟨failures, rejected, rfl⟩)

/-- A sequence comes to an end if both of its rules do. -/
theorem Terminates.thenWith {setting : Setting N ε Γ} {position : Nat}
    (terminates : rule.Terminates setting position)
    (terminatesNext : ∀ middle, next.Terminates setting middle) :
    (rule.thenWith combine next).Terminates setting position := by
  obtain ⟨⟨value, middle⟩ | failures, yields⟩ := terminates
  · obtain ⟨found, yieldsNext⟩ := terminatesNext middle
    exact ⟨_, yields_thenWith_iff.mpr (.inl ⟨value, middle, found, yields, yieldsNext, rfl⟩)⟩
  · exact ⟨_, yields_thenWith_iff.mpr (.inr ⟨failures, yields, rfl⟩)⟩

end Rule

/-- How a chain is put together. -/
inductive Assembly (N : Nonterminals) (ε : Type) (Γ : List Type) : List Type → Type 1
  | empty : Assembly N ε Γ []
  | push {types : List Type} {α : Type} (before : Assembly N ε Γ types)
      (rule : Rule N ε Γ α) : Assembly N ε Γ (types ++ [α])
  | skip {types : List Type} {α : Type} (before : Assembly N ε Γ types)
      (rule : Rule N ε Γ α) : Assembly N ε Γ types
  /-- The chain so far is finished, and another one goes on from its rule. -/
  | resume {types : List Type} (before : Assembly N ε Γ types) : Assembly N ε Γ types

namespace Assembly

/-- The chain that is put together. -/
def chain : {types : List Type} → Assembly N ε Γ types → Chain N ε Γ types
  | _, .empty => .empty
  | _, .push before rule => before.chain.push rule
  | _, .skip before rule => before.chain.skip rule
  | _, .resume before => .ofRule before.chain.done

/-- The steps in order, wherever the chain was cut. -/
def steps : {types : List Type} → Assembly N ε Γ types → List (Step N ε Γ)
  | _, .empty => []
  | _, .push before rule => before.steps ++ [⟨rule, true⟩]
  | _, .skip before rule => before.steps ++ [⟨rule, false⟩]
  | _, .resume before => before.steps

variable {setting : Setting N ε Γ} {position stop : Nat} {failures : Failures}

/-- Whatever a list of steps is, a chain can be put together from it. -/
theorem exists_steps_eq (steps : List (Step N ε Γ)) :
    ∃ types, ∃ assembly : Assembly N ε Γ types, assembly.steps = steps := by
  induction steps using List.reverseRecOn with
  | nil => exact ⟨[], .empty, rfl⟩
  | append_singleton steps step ih =>
      obtain ⟨types, assembly, rfl⟩ := ih
      obtain ⟨rule, _ | _⟩ := step
      · exact ⟨types, assembly.skip rule, rfl⟩
      · exact ⟨_, assembly.push rule, rfl⟩

/-- If the steps accept in turn, the chain accepts with the tuple of the kept values, and
otherwise it does not accept. -/
theorem acceptInTurn_iff (assembly : Assembly N ε Γ types) {values : List Item} :
    Step.AcceptInTurn setting assembly.steps position values stop ↔
      ∃ tuple : Tuple types, tuple.toList = values ∧
        assembly.chain.done.Yields setting position (.accepted tuple stop) := by
  induction assembly generalizing values stop with
  | empty =>
      simp only [steps, Step.acceptInTurn_nil_iff]
      refine ⟨?_, ?_⟩
      · rintro ⟨rfl, rfl⟩
        exact ⟨.empty, rfl, Chain.yields_empty_iff.mpr rfl⟩
      · rintro ⟨tuple, rfl, yields⟩
        cases Chain.yields_empty_iff.mp yields
        exact ⟨rfl, rfl⟩
  | push before rule ih =>
      simp only [steps, Step.acceptInTurn_concat_iff, ih]
      refine ⟨?_, ?_⟩
      · rintro ⟨_, middle, value, ⟨kept, rfl, yields⟩, accepts, rfl⟩
        exact ⟨kept.append value, kept.toList_append value,
          Chain.yields_push_accepted_iff.mpr ⟨kept, middle, value, yields, accepts, rfl⟩⟩
      · rintro ⟨_, rfl, yields⟩
        obtain ⟨kept, middle, value, first, accepts, rfl⟩ :=
          Chain.yields_push_accepted_iff.mp yields
        exact ⟨_, middle, value, ⟨kept, rfl, first⟩, accepts, kept.toList_append value⟩
  | skip before rule ih =>
      simp only [steps, Step.acceptInTurn_concat_iff, ih]
      refine ⟨?_, ?_⟩
      · rintro ⟨_, middle, value, ⟨kept, rfl, yields⟩, accepts, rfl⟩
        exact ⟨kept, (List.append_nil _).symm,
          Chain.yields_skip_accepted_iff.mpr ⟨middle, value, yields, accepts⟩⟩
      · rintro ⟨kept, rfl, yields⟩
        obtain ⟨middle, value, first, accepts⟩ := Chain.yields_skip_accepted_iff.mp yields
        exact ⟨_, middle, value, ⟨kept, rfl, first⟩, accepts, (List.append_nil _).symm⟩
  | resume before ih => exact ih

/-- A rule rejects behind the chain if it does so behind the steps. -/
theorem rejects_behind_iff (assembly : Assembly N ε Γ types) {rule : Rule N ε Γ α} :
    (∃ tuple middle, assembly.chain.done.Yields setting position (.accepted tuple middle) ∧
      rule.Yields setting middle (.rejected failures)) ↔
      ∃ values middle, Step.AcceptInTurn setting assembly.steps position values middle ∧
        rule.Yields setting middle (.rejected failures) := by
  simp only [acceptInTurn_iff]
  refine ⟨?_, ?_⟩
  · rintro ⟨tuple, middle, yields, rejects⟩
    exact ⟨_, middle, ⟨tuple, rfl, yields⟩, rejects⟩
  · rintro ⟨_, middle, ⟨tuple, _, yields⟩, rejects⟩
    exact ⟨tuple, middle, yields, rejects⟩

/-- The chain is rejected as the first step to reject is. -/
theorem rejected_iff_firstRejects (assembly : Assembly N ε Γ types) :
    assembly.chain.done.Yields setting position (.rejected failures) ↔
      Step.FirstRejects setting assembly.steps position failures := by
  induction assembly with
  | empty =>
      refine ⟨fun yields => ?_, ?_⟩
      · cases Chain.yields_empty_iff.mp yields
      · rintro ⟨before, _, _, _, _, split, _⟩
        simp [steps] at split
  | push before rule ih =>
      rw [steps, Step.firstRejects_concat_iff, ← ih, ← before.rejects_behind_iff]
      exact Chain.yields_push_rejected_iff
  | skip before rule ih =>
      rw [steps, Step.firstRejects_concat_iff, ← ih, ← before.rejects_behind_iff]
      exact Chain.yields_skip_rejected_iff
  | resume before ih => exact ih

/-- A chain of steps that all come to an end comes to an end. -/
theorem terminates (assembly : Assembly N ε Γ types)
    (ending : ∀ step ∈ assembly.steps, ∀ middle, step.rule.Terminates setting middle) :
    assembly.chain.done.Terminates setting position := by
  induction assembly with
  | empty => exact ⟨_, Chain.yields_empty_iff.mpr rfl⟩
  | push before rule ih | skip before rule ih =>
      rw [steps, List.forall_mem_append, List.forall_mem_singleton] at ending
      exact (ih ending.1).thenWith ending.2
  | resume before ih => exact ih ending

/-- The first value of the chain is the first that is kept. -/
theorem first_accepted_iff (assembly : Assembly N ε Γ (α :: types)) {value : α} :
    assembly.chain.done.first.Yields setting position (.accepted value stop) ↔
      ∃ values, Step.AcceptInTurn setting assembly.steps position (⟨α, value⟩ :: values)
        stop := by
  rw [Rule.first, Rule.yields_map_accepted_iff]
  simp only [acceptInTurn_iff]
  refine ⟨?_, ?_⟩
  · rintro ⟨tuple, yields, rfl⟩
    exact ⟨_, tuple, rfl, yields⟩
  · rintro ⟨_, tuple, listed, yields⟩
    obtain ⟨same, -⟩ := List.cons.inj listed
    cases same
    exact ⟨tuple, yields, rfl⟩

end Assembly

namespace Chain

/-- The chain with a further step, and the types of its values. -/
def extend : (types : List Type) × Chain N ε Γ types → Step N ε Γ →
    (types : List Type) × Chain N ε Γ types
  | ⟨_, chain⟩, ⟨rule, true⟩ => ⟨_, chain.push rule⟩
  | ⟨_, chain⟩, ⟨rule, false⟩ => ⟨_, chain.skip rule⟩

/-- Where a chain was cut does not matter: it is determined by the steps. -/
theorem assembly_eq_foldl (assembly : Assembly N ε Γ types) :
    (⟨types, assembly.chain⟩ : (types : List Type) × Chain N ε Γ types) =
      assembly.steps.foldl extend ⟨[], .empty⟩ := by
  induction assembly with
  | empty => rfl
  | push before rule ih | skip before rule ih =>
      rw [Assembly.steps, List.foldl_append, ← ih]
      rfl
  | resume before ih => exact ih

section Apply

variable {input : Input N ε} {allowance frame position : Nat} {env : Env N ε Γ}
  {session after : Session} {failures : Failures}

/-- Behind a rejection nothing is applied. The session is not touched again, and it does not
matter what the further steps would do. -/
theorem apply_foldl_extend (chain : (types : List Type) × Chain N ε Γ types)
    (rejected : Rule.apply input allowance chain.2.done env frame session position =
      .ok (.rejected failures, after)) (later : List (Step N ε Γ)) :
    Rule.apply input allowance (later.foldl extend chain).2.done env frame session position =
      .ok (.rejected failures, after) := by
  induction later generalizing chain with
  | nil => exact rejected
  | cons step later ih =>
      refine ih (extend chain step) ?_
      obtain ⟨types, chain⟩ := chain
      obtain ⟨rule, _ | _⟩ := step
      · exact Rule.apply_thenWith_of_rejected rejected
      · exact Rule.apply_thenWith_of_rejected rejected

end Apply

/-- A chain applies its steps in turn, each where the one before it stopped. If all accept,
it accepts where the last one stopped, with just the values of the steps that are pushed, in
their order, and the first of these is the first value of the chain. Otherwise it is
rejected with the failures of the first step that rejects, and nothing is applied behind
that step: the same application of any longer chain ends in the same way and leaves the same
session, whatever its further steps are. Where the chain was cut on the way does not matter,
and each step is a continuation that maps. -/
theorem chain_applies_steps_in_turn :
    (∀ steps : List (Step N ε Γ),
      ∃ types, ∃ assembly : Assembly N ε Γ types, assembly.steps = steps) ∧
    (∀ {types : List Type} (assembly : Assembly N ε Γ types) (setting : Setting N ε Γ)
      (position : Nat),
      (∀ values stop, Step.AcceptInTurn setting assembly.steps position values stop ↔
        ∃ tuple : Tuple types, tuple.toList = values ∧
          assembly.chain.done.Yields setting position (.accepted tuple stop)) ∧
      (∀ failures, assembly.chain.done.Yields setting position (.rejected failures) ↔
        Step.FirstRejects setting assembly.steps position failures) ∧
      ((∀ step ∈ assembly.steps, ∀ middle, step.rule.Terminates setting middle) →
        assembly.chain.done.Terminates setting position)) ∧
    (∀ {α : Type} {types : List Type} (assembly : Assembly N ε Γ (α :: types))
      (setting : Setting N ε Γ) (position : Nat) (value : α) (stop : Nat),
      assembly.chain.done.first.Yields setting position (.accepted value stop) ↔
        ∃ values, Step.AcceptInTurn setting assembly.steps position (⟨α, value⟩ :: values)
          stop) ∧
    (∀ {types types' : List Type} (assembly : Assembly N ε Γ types)
      (longer : Assembly N ε Γ types') (later : List (Step N ε Γ)),
      longer.steps = assembly.steps ++ later →
      ∀ (input : Input N ε) (allowance : Nat) (env : Env N ε Γ) (frame : Nat)
        (session : Session) (position : Nat) (failures : Failures) (after : Session),
        Rule.apply input allowance assembly.chain.done env frame session position =
            .ok (.rejected failures, after) →
          Rule.apply input allowance longer.chain.done env frame session position =
            .ok (.rejected failures, after)) ∧
    (∀ {types types' : List Type} (assembly : Assembly N ε Γ types)
      (other : Assembly N ε Γ types'), assembly.steps = other.steps →
      (⟨types, assembly.chain⟩ : (types : List Type) × Chain N ε Γ types) =
        ⟨types', other.chain⟩) ∧
    ∀ {types : List Type} {α : Type} (chain : Chain N ε Γ types) (rule : Rule N ε Γ α)
      (input : Input N ε) (allowance : Nat) (env : Env N ε Γ) (frame : Nat),
      Rule.apply input allowance (chain.push rule).done env frame =
        Rule.apply input allowance
          (chain.done.flatMap fun values => rule.map values.append) env frame ∧
      Rule.apply input allowance (chain.skip rule).done env frame =
        Rule.apply input allowance
          (chain.done.flatMap fun values => rule.map fun _ => values) env frame := by
  refine ⟨Assembly.exists_steps_eq,
    fun assembly setting position => ⟨fun values stop => assembly.acceptInTurn_iff,
      fun failures => assembly.rejected_iff_firstRejects, assembly.terminates⟩,
    fun assembly setting position value stop => assembly.first_accepted_iff, ?_, ?_,
    fun chain rule input allowance env frame => ⟨Rule.apply_thenWith_eq_flatMap ..,
      Rule.apply_thenWith_eq_flatMap ..⟩⟩
  · intro types types' assembly longer later split input allowance env frame session position
      failures after rejected
    have goesOn := apply_foldl_extend ⟨types, assembly.chain⟩ rejected later
    rwa [assembly_eq_foldl assembly, ← List.foldl_append, ← split,
      ← assembly_eq_foldl longer] at goesOn
  · intro types types' assembly other same
    rw [assembly_eq_foldl, assembly_eq_foldl, same]

/-- Two numbers around a zero, put together in two chains. Where the zero is missing, a step
that never ends is not applied behind it. -/
theorem parted_numbers_applied_in_turn :
    let number : Rule .none Int [] Int := .nextIf (0 < ·)
    let zero : Rule .none Int [] Int := .nextIf (· = 0)
    let cut := ((Assembly.empty.push number).skip zero).resume.push number
    let whole := ((Assembly.empty.push number).skip zero).push number
    let longer := cut.skip (.recursive (.reference .here) : Rule .none Int [] Int)
    let setting : Setting .none Int [] := ⟨⟨#[3, 0, 5], .empty, .off⟩, .nil, ∅⟩
    let missing : Setting .none Int [] := ⟨⟨#[3, 1, 5], .empty, .off⟩, .nil, ∅⟩
    cut.chain.done.Terminates setting 0 ∧
      Step.AcceptInTurn setting cut.steps 0 [⟨Int, 3⟩, ⟨Int, 5⟩] 3 ∧
      cut.chain.done.first.Yields setting 0 (.accepted 3 3) ∧
      (∃ failures, Step.FirstRejects missing cut.steps 0 failures ∧
        longer.chain.done.Yields missing 0 (.rejected failures)) ∧
      (⟨_, cut.chain⟩ : (types : List Type) × Chain .none Int [] types) = ⟨_, whole.chain⟩ := by
  intro number zero cut whole longer setting missing
  obtain ⟨-, comesTo, firstOf, goesOn, uncut, -⟩ :=
    chain_applies_steps_in_turn (N := .none) (ε := Int) (Γ := [])
  have reads : Step.AcceptInTurn setting cut.steps 0 [⟨Int, 3⟩, ⟨Int, 5⟩] 3 :=
    ((comesTo cut setting 0).1 _ _).mpr ⟨((3, 5, ()) : Int × Int × Unit), rfl,
      Rule.yields_iff_apply.mpr ⟨0, _, rfl⟩⟩
  refine ⟨(comesTo cut setting 0).2.2 fun step member middle => ?_, reads,
    (firstOf cut setting 0 3 3).mpr ⟨_, reads⟩, ?_, uncut cut whole rfl⟩
  · have fits : setting.size ≤ lastPosition := by decide
    have spelled : step = ⟨number, true⟩ ∨ step = ⟨zero, false⟩ ∨ step = ⟨number, true⟩ := by
      simpa [cut, Assembly.steps] using member
    obtain rfl | rfl | rfl := spelled
    · exact Rule.nextAs_terminates fits _
    · exact Rule.nextAs_terminates fits _
    · exact Rule.nextAs_terminates fits _
  · obtain ⟨failures, after, rejected⟩ : ∃ failures after,
        Rule.apply missing.input 1 cut.chain.done .nil 0 missing.session 0 =
          .ok (.rejected failures, after) := ⟨_, _, rfl⟩
    have behind := goesOn cut longer [⟨_, false⟩] rfl missing.input 1 .nil 0 missing.session 0
      failures after rejected
    exact ⟨failures, ((comesTo cut missing 0).2.1 failures).mp
      (Rule.yields_iff_apply.mpr ⟨0, after, rejected⟩),
      Rule.yields_iff_apply.mpr ⟨0, after, behind⟩⟩

end Chain

end Rulebook
