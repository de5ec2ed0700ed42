/-
# Loops in steps

How often the search for an element to be kept goes on, and how often a repetition does, is
up to the source. Neither may use up the call stack, so both are computations in steps: a
round of the loop says what it comes to, or which round is the next one. In this form the
loops are written down here, and running them is shown to come to the same as the recursions
that leaves and rules are interpreted by.

A run takes the steps one at a time and stops at the first computation that is done. The
number of steps is what the loop does: a search takes one for every element it skips, a
repetition one for every value it folds. A repetition of an item that has to consume
therefore takes no more steps than there are elements left.
-/

import Mathlib.Logic.Function.Iterate
import Rulebook.Proofs.Effort
import Rulebook.Trampoline

namespace Rulebook

variable {N : Nonterminals} {ε : Type} {Γ : List Type} {α β : Type}

namespace Trampoline

/-- How many steps are left. -/
def steps : Trampoline α → Nat
  | done _ => 0
  | more step => (step ()).steps + 1

/-- Take the next step, if there is one. -/
def advance : Trampoline α → Trampoline α
  | done result => done result
  | more step => step ()

/-- The loop of a run: one step after the other leads to the result. -/
theorem iterate_advance_steps (computation : Trampoline α) :
    advance^[computation.steps] computation = done computation.run := by
  induction computation with
  | done result => rfl
  | more step ih => exact ih ()

/-- The loop does not stop before all steps are taken, and then it has stopped. -/
theorem isDone_iterate_advance_iff (computation : Trampoline α) (count : Nat) :
    (advance^[count] computation).isDone ↔ computation.steps ≤ count := by
  induction computation generalizing count with
  | done result =>
      have stays : advance^[count] (done result) = done result :=
        Function.iterate_fixed rfl count
      simp [stays, steps, isDone]
  | more step ih =>
      cases count with
      | zero => simp [steps, isDone]
      | succ count =>
          rw [Function.iterate_succ_apply]
          exact (ih () count).trans Nat.succ_le_succ_iff.symm

/-- What is visited is the computation after any number of steps up to all of them. -/
theorem foldSteps_eq_foldl (see : β → Trampoline α → β) (init : β)
    (computation : Trampoline α) :
    computation.foldSteps see init =
      ((List.range (computation.steps + 1)).map (advance^[·] computation)).foldl see init := by
  induction computation generalizing init with
  | done result => rfl
  | more step ih =>
      rw [foldSteps, ih]
      simp only [steps, List.range_succ_eq_map, List.map_cons, List.map_map, List.foldl_cons]
      rfl

end Trampoline

namespace Leaf

/-- The search for the first element to be kept, with a step for every skipped one. -/
def scanInSteps (source : Array ε) (skips : ε → Bool) (position : Nat) :
    Trampoline (Except Halt Nat) :=
  if h : position < source.size then
    if skips source[position] then
      if position < lastPosition then
        .more fun _ => scanInSteps source skips (position + 1)
      else .done (.error .overflow)
    else .done (.ok position)
  else .done (.ok position)
termination_by source.size - position

/-- Running the steps is the search. -/
theorem run_scanInSteps (source : Array ε) (skips : ε → Bool) (position : Nat) :
    (scanInSteps source skips position).run = scan source skips position := by
  fun_induction scan source skips position with
  | case1 position inside skipped representable ih =>
      rw [scanInSteps, dif_pos inside, if_pos skipped, if_pos representable, Trampoline.run_more,
        ih]
  | case2 position inside skipped last =>
      rw [scanInSteps, dif_pos inside, if_pos skipped, if_neg last, Trampoline.run_done]
  | case3 position inside kept =>
      rw [scanInSteps, dif_pos inside, if_neg kept, Trampoline.run_done]
  | case4 position behind =>
      rw [scanInSteps, dif_neg behind, Trampoline.run_done]

/-- A search takes as many steps as it skips elements. -/
theorem add_steps_scanInSteps {source : Array ε} {skips : ε → Bool} {position stop : Nat}
    (scanned : scan source skips position = .ok stop) :
    position + (scanInSteps source skips position).steps = stop := by
  fun_induction scan source skips position with
  | case1 position inside skipped representable ih =>
      rw [scanInSteps, dif_pos inside, if_pos skipped, if_pos representable, Trampoline.steps,
        ← ih scanned]
      omega
  | case2 => cases scanned
  | case3 position inside kept =>
      cases scanned
      rw [scanInSteps, dif_pos inside, if_neg kept]
      rfl
  | case4 position behind =>
      cases scanned
      rw [scanInSteps, dif_neg behind]
      rfl

end Leaf

namespace Matcher

/-- The loop of a repetition, with a step from every match to the next attempt. -/
def repeatInSteps (bounds : Bounds) (item next : Matcher α) (fold : β → α → β) :
    (steps count : Nat) → (acc : β) → Session → Nat →
      Trampoline (Except Halt (Outcome β × Session))
  | 0, _, _, _, _ => .done (.error .exhausted)
  | steps + 1, count, acc, session, position =>
    if bounds.ceiling = some count then .done (.ok (.accepted acc position, session))
    else
      match (if count = 0 then item else next) session position with
      | .error cause => .done (.error cause)
      | .ok (.accepted value stop, session) =>
        .more fun _ =>
          repeatInSteps bounds item next fold steps (count + 1) (fold acc value) session stop
      | .ok (.rejected failures, session) =>
        if count < bounds.floor then .done (.ok (.rejected failures, session))
        else .done (.ok (.accepted acc position, session))

variable {bounds : Bounds} {item next : Matcher α} {fold : β → α → β}

/-- Running the steps is the loop. -/
theorem run_repeatInSteps (steps count : Nat) (acc : β) (session : Session)
    (position : Nat) :
    (repeatInSteps bounds item next fold steps count acc session position).run =
      repeatFrom bounds item next fold steps count acc session position := by
  induction steps generalizing count acc session position with
  | zero => rfl
  | succ steps ih =>
      simp only [repeatInSteps, repeatFrom]
      by_cases full : bounds.ceiling = some count
      · simp only [if_pos full, Trampoline.run_done]
      · simp only [if_neg full]
        cases (if count = 0 then item else next) session position with
        | error cause => rfl
        | ok reached =>
            obtain ⟨⟨value, stop⟩ | failures, between⟩ := reached
            · exact ih ..
            · by_cases below : count < bounds.floor
              · simp only [if_pos below, Trampoline.run_done]
              · simp only [if_neg below, Trampoline.run_done]

/-- The loop takes as many steps as it folds values. -/
theorem folds_add_steps_repeatInSteps {steps count : Nat} {acc : β} {effort spent : Effort}
    {session : Session} {position : Nat} {reached : Outcome β × Session}
    (counted : repeatCounted bounds item next fold steps count acc effort session position =
      .ok (reached, spent)) :
    effort.folds +
        (repeatInSteps bounds item next fold steps count acc session position).steps =
      spent.folds := by
  induction steps generalizing count acc effort session position with
  | zero => cases counted
  | succ steps ih =>
      simp only [repeatInSteps]
      rw [repeatCounted] at counted
      by_cases full : bounds.ceiling = some count
      · simp only [if_pos full] at counted ⊢
        cases counted
        rfl
      simp only [if_neg full] at counted ⊢
      generalize (if count = 0 then item else next) session position = attempted at counted ⊢
      obtain cause | ⟨⟨value, stop⟩ | failures, between⟩ := attempted
      · cases counted
      · rw [Trampoline.steps, ← ih counted]
        exact (Nat.succ_add_eq_add_succ ..).symm
      · by_cases below : count < bounds.floor
        · simp only [if_pos below] at counted ⊢
          cases counted
          rfl
        · simp only [if_neg below] at counted ⊢
          cases counted
          rfl

/-- Whatever the loop comes to, it comes to at some effort. -/
theorem exists_repeatCounted_eq {steps count : Nat} {acc : β} {session : Session}
    {position : Nat} {reached : Outcome β × Session} (effort : Effort)
    (repeated : repeatFrom bounds item next fold steps count acc session position =
      .ok reached) :
    ∃ spent, repeatCounted bounds item next fold steps count acc effort session position =
      .ok (reached, spent) := by
  rw [← fst_repeatCounted bounds item next fold steps count acc effort] at repeated
  cases counted : repeatCounted bounds item next fold steps count acc effort session position
  with
  | error cause =>
      rw [counted] at repeated
      cases repeated
  | ok both =>
      rw [counted] at repeated
      cases repeated
      exact ⟨both.2, rfl⟩

end Matcher

namespace Rule

/-- The repetition of a rule from a position on, in steps. -/
def foldManyInSteps (setting : Setting N ε Γ) (repetition : Repetition N ε Γ) (init : β)
    (fold : β → α → β) (rule : Rule N ε Γ α) (steps frame : Nat) (session : Session)
    (position : Nat) : Trampoline (Except Halt (Outcome β × Session)) :=
  Matcher.repeatInSteps repetition.bounds
    (apply setting.input steps rule setting.env frame)
    (apply setting.input steps (repetition.laterAttempt rule) setting.env frame) fold
    steps 0 init session position

variable {setting : Setting N ε Γ} {repetition : Repetition N ε Γ} {init : β}
  {fold : β → α → β}

/-- To apply a repetition is to run its steps. -/
theorem apply_foldMany_eq_run (rule : Rule N ε Γ α) (steps frame : Nat)
    (session : Session) (position : Nat) :
    apply setting.input (steps + 1) (rule.foldMany repetition init fold) setting.env frame
        session position =
      (rule.foldManyInSteps setting repetition init fold (steps + 1) frame session
        position).run :=
  (Matcher.run_repeatInSteps ..).symm

/-- A repetition of an item that has to consume takes no more steps than there are elements
left. -/
theorem steps_foldManyInSteps_le {item : Rule N ε Γ α} {start steps frame : Nat}
    {session after : Session} {outcome : Outcome β}
    (itemWithin : item.StaysWithin setting (· ≤ setting.size))
    (separatorInside : ∀ separator ∈ repetition.separator, separator.StaysInside setting)
    (inside : start ≤ setting.size) (active : session.context = setting.context)
    (applied : apply setting.input (steps + 1) (item.nonEmpty.foldMany repetition init fold)
      setting.env frame session start = .ok (outcome, after)) :
    (item.nonEmpty.foldManyInSteps setting repetition init fold (steps + 1) frame session
      start).steps ≤ setting.size - start := by
  obtain ⟨spent, counted⟩ : ∃ spent, item.nonEmpty.foldManyCounted setting repetition init
      fold (steps + 1) frame session start = .ok ((outcome, after), spent) :=
    Matcher.exists_repeatCounted_eq ⟨0, 0⟩ applied
  have folded : 0 + (item.nonEmpty.foldManyInSteps setting repetition init fold (steps + 1)
      frame session start).steps = spent.folds :=
    Matcher.folds_add_steps_repeatInSteps counted
  obtain ⟨values, stop, successes, folds, _⟩ :=
    Repetition.effort_of_spends ⟨steps + 1, frame, session, _, _, active, counted⟩
  obtain ⟨consumed, before⟩ := successes.add_length_le itemWithin separatorInside inside
  omega

end Rule

end Rulebook
