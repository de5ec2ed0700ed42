/-
# Every course is a run

A course says what is applied and reported without mentioning steps, cells and sessions. It
says no more than what happens: a task with a course comes to the outcome of that course as
soon as enough steps are allowed, from every session with the same active labels, and the
records of the course are added to the trace. So there is one course at most to be seen in
a trace, and whatever a course says of an application inside of another one is true of that
application done alone.
-/

import Rulebook.Proofs.Reports

namespace Rulebook

variable {N : Nonterminals} {ε : Type} {Γ Δ : List Type} {α β : Type}

/-- How a task is done. Rounds bound how often a repetition goes on. -/
def Task.matcher (input : Input N ε) (steps rounds : Nat) :
    {Γ : List Type} → {α : Type} → Task N ε Γ α → Env N ε Γ → (frame : Nat) → Matcher α
  | _, _, .apply rule, env, frame => Rule.apply input (steps + 1) rule env frame
  | _, _, .goOn bounds separator item fold count acc, env, frame =>
    .repeatFrom bounds (Rule.apply input (steps + 1) item env frame)
      (Rule.apply input (steps + 1) (separator.thenWith (fun _ value => value) item) env frame)
      fold (rounds + 1) count acc

/-- The task comes to the outcome, and the records are added to the trace. Frames and what
has been built before do not matter. -/
def Task.RunsWith (steps rounds : Nat) (setting : Setting N ε Γ) (task : Task N ε Γ α)
    (position : Nat) (outcome : Outcome α) (log : List Record) : Prop :=
  ∀ ⦃env : Env N ε Γ⦄, setting.env.Alike env →
    ∀ (frame : Nat) ⦃session : Session⦄, session.context = setting.context →
      ∃ after, task.matcher setting.input steps rounds env frame session position =
          .ok (outcome, after) ∧
        session.Extended setting.input.verbosity after log

/-- The task runs like this as soon as enough steps and rounds are allowed. -/
def Task.Runs (setting : Setting N ε Γ) (task : Task N ε Γ α) (position : Nat)
    (outcome : Outcome α) (log : List Record) : Prop :=
  ∃ enough, ∀ steps rounds, enough ≤ steps → enough ≤ rounds →
    task.RunsWith steps rounds setting position outcome log

namespace Task

variable {setting : Setting N ε Γ} {task : Task N ε Γ α} {part : Task N ε Γ β}
  {position : Nat} {outcome : Outcome α} {found : Outcome β} {log : List Record}

/-- A task that consists of another one runs as that one does. -/
theorem Runs.of_part (runs : part.Runs setting position found log)
    (applied : ∀ steps rounds env frame session after,
      part.matcher setting.input steps rounds env frame session position =
          .ok (found, after) →
        task.matcher setting.input steps rounds env frame session position =
          .ok (outcome, after)) :
    task.Runs setting position outcome log := by
  obtain ⟨enough, run⟩ := runs
  refine ⟨enough, fun steps rounds large largeRounds env alike frame session active => ?_⟩
  obtain ⟨after, first, extended⟩ := run steps rounds large largeRounds alike frame active
  exact ⟨after, applied _ _ _ _ _ _ first, extended⟩

/-- A task that consists of two others runs as they do, one after the other. A round may be
used up between them. -/
theorem Runs.of_parts {γ : Type} {other : Task N ε Γ γ} {middle : Nat} {last : Outcome γ}
    {more : List Record} (runs : part.Runs setting position found log)
    (runsOther : other.Runs setting middle last more)
    (applied : ∀ steps rounds env frame session between after,
      part.matcher setting.input steps (rounds + 1) env frame session position =
          .ok (found, between) →
        other.matcher setting.input steps rounds env frame between middle =
          .ok (last, after) →
        task.matcher setting.input steps (rounds + 1) env frame session position =
          .ok (outcome, after)) :
    task.Runs setting position outcome (log ++ more) := by
  obtain ⟨enough, run⟩ := runs
  obtain ⟨enoughOther, runOther⟩ := runsOther
  refine ⟨max enough enoughOther + 1,
    fun steps rounds large largeRounds env alike frame session active => ?_⟩
  obtain ⟨rounds, rfl⟩ : ∃ fewer, rounds = fewer + 1 := ⟨rounds - 1, by omega⟩
  obtain ⟨between, first, extended⟩ :=
    run steps (rounds + 1) (by omega) (by omega) alike frame active
  obtain ⟨after, second, extended'⟩ :=
    runOther steps rounds (by omega) (by omega) alike frame (extended.context.trans active)
  exact ⟨after, applied _ _ _ _ _ _ _ first second, extended.trans extended'⟩

/-- Another look at acceptances reports nothing. -/
theorem Runs.of_revised {γ : Type} {rule : Rule N ε Γ β} {look : Rule N ε Γ γ}
    {judge : Nat → β → Nat → Outcome γ}
    (runs : (Task.apply rule).Runs setting position found log)
    (revises : ∀ steps env frame, Rule.apply setting.input (steps + 1) look env frame =
      (Rule.apply setting.input (steps + 1) rule env frame).revised judge) :
    (Task.apply look).Runs setting position (found.revise (judge position)) log := by
  refine runs.of_part fun steps rounds env frame session after first => ?_
  rw [Task.matcher, revises]
  exact Matcher.revised_eq_ok_iff.mpr ⟨found, first, rfl⟩

/-- A rule may be applied in any frame, be it one that is opened for it or the one around
a cell that is looked up. -/
theorem RunsWith.framed {rule : Rule N ε Γ α} {steps rounds : Nat} {env : Env N ε Γ}
    {session : Session}
    (run : (Task.apply rule).RunsWith steps rounds setting position outcome log)
    (choose : Cells → Nat × Cells) (inner : Nat → Nat) (alike : setting.env.Alike env)
    (active : session.context = setting.context) :
    ∃ after, Matcher.framed choose
          (fun frame => Rule.apply setting.input (steps + 1) rule env (inner frame)) session
          position = .ok (outcome, after) ∧
        session.Extended setting.input.verbosity after log := by
  let chosen : Session := { session with cells := (choose session.cells).2 }
  have same : chosen.context = setting.context := active
  obtain ⟨after, applied, extended⟩ := run alike (inner (choose session.cells).1) same
  exact ⟨after, applied, extended.context, extended.trace⟩

end Task

section Lookup

variable {env env' : Env N ε Γ} {place : Member α Γ} (alike : env.Alike env')

include alike

theorem Env.Alike.lookup_undefined (found : env.lookup place = .undefined) :
    env'.lookup place = .undefined := by
  obtain ⟨_, found'⟩ | ⟨other, _⟩ | ⟨_, _, _, _, _, _, other, _⟩ :=
    alike.lookup (Env.within_all env) place
  · exact found'
  · cases found.symm.trans other
  · cases found.symm.trans other

theorem Env.Alike.lookup_dropped (found : env.lookup place = .dropped) :
    env'.lookup place = .dropped := by
  obtain ⟨other, _⟩ | ⟨_, found'⟩ | ⟨_, _, _, _, _, _, other, _⟩ :=
    alike.lookup (Env.within_all env) place
  · cases found.symm.trans other
  · exact found'
  · cases found.symm.trans other

theorem Env.Alike.lookup_rule {rule : Rule N ε Δ α} {inner : Env N ε Δ} {frame : Nat}
    (found : env.lookup place = .rule rule inner frame) :
    ∃ inner' frame', env'.lookup place = .rule rule inner' frame' ∧ inner.Alike inner' := by
  obtain ⟨other, _⟩ | ⟨other, _⟩ | ⟨_, _, _, inner', _, frame', other, found', _, _, alike'⟩ :=
    alike.lookup (Env.within_all env) place
  · cases found.symm.trans other
  · cases found.symm.trans other
  · cases found.symm.trans other
    exact ⟨inner', frame', found', alike'⟩

end Lookup

/-- A label is put on the stack of a session as on that of a setting. -/
theorem Setting.context_entered (setting : Setting N ε Γ) {session : Session}
    (active : session.context = setting.context) (label : String) :
    (session.enter label).2.context = (setting.entered label).context := by
  have same : session.context = setting.session.context := active
  exact Session.context_enter_congr same label

/-- The attempts of a repetition are those of its matcher. -/
theorem Rule.apply_attempt (input : Input N ε) (steps : Nat) (separator : Rule N ε Γ Unit)
    (item : Rule N ε Γ α) (count : Nat) (env : Env N ε Γ) (frame : Nat) :
    apply input steps (attempt separator item count) env frame =
      if count = 0 then apply input steps item env frame
      else apply input steps (separator.thenWith (fun _ value => value) item) env frame := by
  unfold attempt
  split <;> rfl

namespace Reports

open Matcher

variable {setting : Setting N ε Γ} {task : Task N ε Γ α} {position : Nat}
  {outcome outcome' : Outcome α} {log log' : List Record}

/-- Every step of a course is a step of a run. -/
theorem runs (reports : Reports setting task position outcome log) :
    task.Runs setting position outcome log := by
  induction reports with
  | leaf applied =>
      refine ⟨0, fun steps rounds _ _ env _ frame session active => ?_⟩
      exact ⟨session, leaf_eq_ok_iff.mpr ⟨active ▸ applied, rfl⟩, .refl session⟩
  | behind behind =>
      refine ⟨0, fun steps rounds _ _ env _ frame session active => ?_⟩
      exact ⟨session, unfinished_eq_ok_iff.mpr (.inr ⟨behind, rfl, rfl⟩), .refl session⟩
  | unfinished inside _ ih =>
      exact ih.of_part fun _ _ _ _ _ _ first =>
        unfinished_eq_ok_iff.mpr (.inl ⟨inside, first⟩)
  | @map _ _ _ setting rule position outcome log f _ ih =>
      have revises (steps : Nat) (env : Env N ε _) (frame : Nat) :
          Rule.apply setting.input (steps + 1) (rule.map f) env frame =
            (Rule.apply setting.input (steps + 1) rule env frame).revised
              fun _ value stop => .accepted (f value) stop :=
        map_eq_revised f _
      rw [← Outcome.revise_eq_map]
      exact ih.of_revised revises
  | flatMap _ _ ihFirst ihSecond =>
      exact ihFirst.of_parts ihSecond fun _ _ _ _ _ _ _ first second =>
        flatMap_eq_ok_iff.mpr (.inl ⟨_, _, _, first, second⟩)
  | flatMapRejected _ ih =>
      exact ih.of_part fun _ _ _ _ _ _ first => flatMap_eq_ok_iff.mpr (.inr ⟨_, first, rfl⟩)
  | thenWith combine _ _ ihFirst ihSecond =>
      refine ihFirst.of_parts ihSecond fun _ _ _ _ _ _ _ first second => ?_
      rw [Task.matcher, Rule.apply_thenWith, thenWith_eq_flatMap]
      refine flatMap_eq_ok_iff.mpr (.inl ⟨_, _, _, first, ?_⟩)
      rw [map_eq_revised]
      exact revised_eq_ok_iff.mpr ⟨_, second, (Outcome.revise_eq_map _ _).symm⟩
  | thenWithRejected combine _ ih =>
      exact ih.of_part fun _ _ _ _ _ _ first => flatMap_eq_ok_iff.mpr (.inr ⟨_, first, rfl⟩)
  | nonEmpty _ ih => exact ih.of_revised fun _ _ _ => nonEmpty_eq_revised _
  | @path _ _ setting rule position outcome log label _ ih =>
      obtain ⟨enough, run⟩ := ih
      refine ⟨enough, fun steps rounds large largeRounds env alike frame session active => ?_⟩
      have inside := setting.context_entered active label
      obtain ⟨after, first, extended⟩ := run steps rounds large largeRounds alike frame inside
      exact ⟨_, path_eq_ok_iff.mpr ⟨outcome, after, first, rfl, rfl⟩, extended.release_enter⟩
  | @traced _ _ setting rule position outcome log label _ ih =>
      obtain ⟨enough, run⟩ := ih
      refine ⟨enough, fun steps rounds large largeRounds env alike frame session active => ?_⟩
      let entry : Record := .trying (session.enter label).2.context.path position
      have inside : ((session.enter label).2.record setting.input.verbosity entry).context =
          (setting.entered label).context :=
        (Session.context_record _ _ entry).trans (setting.context_entered active label)
      obtain ⟨after, first, extended⟩ := run steps rounds large largeRounds alike frame inside
      have bracketed := ((Session.extended_record _ entry).trans extended).trans
        (Session.extended_record _ (closing label position outcome))
      have path : (session.enter label).2.context.path = setting.context.path ++ [label] := by
        rw [← active]
        exact Context.path_enter session.context label
      simp only [entry, path] at bracketed
      exact ⟨_, traced_eq_ok_iff.mpr ⟨after, first, rfl⟩, bracketed.release_enter⟩
  | orElse _ _ ihFirst ihSecond =>
      exact ihFirst.of_parts ihSecond fun _ _ _ _ _ _ _ first second =>
        orElse_eq_ok_iff.mpr ⟨_, _, _, first, second, rfl⟩
  | slice _ ih => exact ih.of_revised fun _ _ _ => slice_eq_revised _ _
  | @spanned _ _ setting rule position outcome log _ ih =>
      have revises (steps : Nat) (env : Env N ε _) (frame : Nat) :
          Rule.apply setting.input (steps + 1) rule.spanned env frame =
            (Rule.apply setting.input (steps + 1) rule env frame).revised
              fun position value stop => .accepted ⟨value, position, stop⟩ stop :=
        spanned_eq_revised _
      exact ih.of_revised revises
  | repeated _ ih =>
      obtain ⟨enough, run⟩ := ih
      refine ⟨enough, fun steps rounds large _ env alike frame session active => ?_⟩
      exact run steps steps large large alike frame active
  | full full =>
      refine ⟨0, fun steps rounds _ _ env _ frame session active => ?_⟩
      exact ⟨session, repeatFrom_succ_eq_ok_iff.mpr (.inl ⟨full, rfl, rfl⟩), .refl session⟩
  | attempted unfilled _ _ ihFirst ihRest =>
      refine ihFirst.of_parts ihRest fun _ _ _ _ _ _ _ first rest => ?_
      rw [Task.matcher, Rule.apply_attempt] at first
      exact repeatFrom_succ_eq_ok_iff.mpr (.inr ⟨unfilled, .inl ⟨_, _, _, first, rest⟩⟩)
  | ended unfilled _ ih =>
      refine ih.of_part fun _ _ _ _ _ _ last => ?_
      rw [Task.matcher, Rule.apply_attempt] at last
      exact repeatFrom_succ_eq_ok_iff.mpr (.inr ⟨unfilled, .inr ⟨_, last, rfl⟩⟩)
  | deferred number defined _ ih =>
      obtain ⟨enough, run⟩ := ih
      -- A name costs a step, and so does a reference.
      refine ⟨enough + 1, fun steps rounds large _ env _ frame session active => ?_⟩
      obtain ⟨steps, rfl⟩ : ∃ fewer, steps = fewer + 1 := ⟨steps - 1, by omega⟩
      have fewer : enough ≤ steps := Nat.le_of_succ_le_succ large
      show ∃ after, Interpretation.deferred _ _ _ _ _ _ = _ ∧ _
      rw [Interpretation.deferred_eq_framed _ defined]
      exact (run steps steps fewer fewer).framed _ id .nil active
  | delayed number _ ih =>
      obtain ⟨enough, run⟩ := ih
      refine ⟨enough, fun steps rounds large largeRounds env alike frame session active => ?_⟩
      exact (run steps rounds large largeRounds).framed (Cells.frameOf ⟨frame, number⟩)
        (fun _ => frame) alike active
  | fresh _ ih =>
      obtain ⟨enough, run⟩ := ih
      refine ⟨enough, fun steps rounds large largeRounds env alike frame session active => ?_⟩
      exact (run steps rounds large largeRounds).framed Cells.openFrame id alike active
  | undefined found =>
      refine ⟨0, fun steps rounds _ _ env alike frame session active => ?_⟩
      refine ⟨session, ?_, .refl session⟩
      show Interpretation.reference _ _ _ _ _ = _
      rw [Interpretation.reference, alike.lookup_undefined found]
      rfl
  | dropped found =>
      refine ⟨0, fun steps rounds _ _ env alike frame session active => ?_⟩
      refine ⟨session, ?_, .refl session⟩
      show Interpretation.reference _ _ _ _ _ = _
      rw [Interpretation.reference, alike.lookup_dropped found]
      rfl
  | reference found _ ih =>
      obtain ⟨enough, run⟩ := ih
      refine ⟨enough + 1, fun steps rounds large _ env alike frame session active => ?_⟩
      obtain ⟨steps, rfl⟩ : ∃ fewer, steps = fewer + 1 := ⟨steps - 1, by omega⟩
      have fewer : enough ≤ steps := Nat.le_of_succ_le_succ large
      obtain ⟨inner, frame', found', innerAlike⟩ := alike.lookup_rule found
      show ∃ after, Interpretation.reference _ _ _ _ _ = _ ∧ _
      rw [Interpretation.reference, found']
      exact run steps steps fewer fewer innerAlike frame' active
  | recursive frame _ ih =>
      obtain ⟨enough, run⟩ := ih
      refine ⟨enough, fun steps rounds large largeRounds env alike frame' session active => ?_⟩
      exact run steps rounds large largeRounds (.cons _ _ _ alike) frame' active

/-- In the course of an application every part comes to what it comes to by itself. -/
theorem yields {rule : Rule N ε Γ α}
    (reports : Reports setting (.apply rule) position outcome log) :
    rule.Yields setting position outcome := by
  obtain ⟨enough, run⟩ := reports.runs
  have active : setting.session.context = setting.context := rfl
  obtain ⟨after, applied, _⟩ :=
    run enough enough (Nat.le_refl enough) (Nat.le_refl enough) (.refl setting.env) 0 active
  exact Rule.yields_of_apply active applied

/-- Whatever is reported for debugging, there is only one course with it. -/
theorem unique (debugs : setting.input.verbosity.debugs)
    (reports : Reports setting task position outcome log)
    (reports' : Reports setting task position outcome' log') :
    outcome' = outcome ∧ log' = log := by
  obtain ⟨enough, run⟩ := reports.runs
  obtain ⟨enough', run'⟩ := reports'.runs
  have large : enough ≤ max enough enough' := Nat.le_max_left _ _
  have large' : enough' ≤ max enough enough' := Nat.le_max_right _ _
  have active : setting.session.context = setting.context := rfl
  obtain ⟨after, applied, extended⟩ := run _ _ large large (.refl setting.env) 0 active
  obtain ⟨after', applied', extended'⟩ := run' _ _ large' large' (.refl setting.env) 0 active
  cases applied.symm.trans applied'
  have same := extended'.trace.symm.trans extended.trace
  simp only [Verbosity.kept, if_pos debugs, Array.append_right_inj] at same
  exact ⟨rfl, List.toArray_inj same⟩

end Reports

end Rulebook
