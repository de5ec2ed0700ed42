/-
# What an application reports

Only traced rules report anything, and what they report depends on nothing but the course
of the application: which rules are applied in which order, at which positions, with which
outcomes and below which labels. This course is written down here as a relation, without
steps, cells and traces. It says of every form of rule which parts are applied, what the
rule makes of their outcomes, and that it reports what they report, one after the other.
That holds for alternatives that lose and for attempts that a repetition gives back as well.

An application with an outcome has such a course, and if the verbosity includes debugging,
then what it adds to the trace is what is reported in that course. Otherwise it adds nothing.
-/

import Rulebook.Proofs.Yields

namespace Rulebook

/-- What there is to do: apply a rule, or go on with a repetition that has some matches. -/
inductive Task (N : Nonterminals) (ε : Type) : List Type → Type → Type 1
  | apply {Γ : List Type} {α : Type} (rule : Rule N ε Γ α) : Task N ε Γ α
  | goOn {Γ : List Type} {α β : Type} (bounds : Bounds) (separator : Rule N ε Γ Unit)
      (item : Rule N ε Γ α) (fold : β → α → β) (count : Nat) (acc : β) : Task N ε Γ β

/-- The next attempt of a repetition. After the first match a separator comes before the
item. -/
def Rule.attempt {N : Nonterminals} {ε : Type} {Γ : List Type} {α : Type}
    (separator : Rule N ε Γ Unit) (item : Rule N ε Γ α) (count : Nat) : Rule N ε Γ α :=
  if count = 0 then item else separator.thenWith (fun _ value => value) item

/-- Within other recursive rules. -/
def Setting.inside {N : Nonterminals} {ε : Type} {Γ Δ : List Type} (setting : Setting N ε Γ)
    (env : Env N ε Δ) : Setting N ε Δ :=
  ⟨setting.input, env, setting.context⟩

/-- Done at a position, the task comes to an outcome and reports some records. -/
inductive Reports {N : Nonterminals} {ε : Type} : {Γ : List Type} → {α : Type} →
    Setting N ε Γ → Task N ε Γ α → Nat → Outcome α → List Record → Prop
  | leaf {Γ : List Type} {α : Type} {setting : Setting N ε Γ} {part : Leaf ε α}
      {position : Nat} {outcome : Outcome α}
      (applied : part.apply setting.input.source setting.context position = .ok outcome) :
      Reports setting (.apply (.leaf part)) position outcome []
  /-- No element is left, and the rule is not applied. -/
  | behind {Γ : List Type} {α : Type} {setting : Setting N ε Γ} {rule : Rule N ε Γ α}
      {position : Nat} (behind : setting.size ≤ position) :
      Reports setting (.apply rule.unfinished) position
        (.reject (outOfRange setting.size position) position) []
  | unfinished {Γ : List Type} {α : Type} {setting : Setting N ε Γ} {rule : Rule N ε Γ α}
      {position : Nat} {outcome : Outcome α} {log : List Record}
      (inside : position < setting.size)
      (reports : Reports setting (.apply rule) position outcome log) :
      Reports setting (.apply rule.unfinished) position outcome log
  | map {Γ : List Type} {α β : Type} {setting : Setting N ε Γ} {rule : Rule N ε Γ α}
      {position : Nat} {outcome : Outcome α} {log : List Record} (f : α → β)
      (reports : Reports setting (.apply rule) position outcome log) :
      Reports setting (.apply (rule.map f)) position (outcome.map f) log
  | flatMap {Γ : List Type} {α β : Type} {setting : Setting N ε Γ} {rule : Rule N ε Γ α}
      {next : α → Rule N ε Γ β} {position middle : Nat} {value : α} {outcome : Outcome β}
      {log more : List Record}
      (first : Reports setting (.apply rule) position (.accepted value middle) log)
      (second : Reports setting (.apply (next value)) middle outcome more) :
      Reports setting (.apply (rule.flatMap next)) position outcome (log ++ more)
  /-- The continuation is not applied. -/
  | flatMapRejected {Γ : List Type} {α β : Type} {setting : Setting N ε Γ}
      {rule : Rule N ε Γ α} {next : α → Rule N ε Γ β} {position : Nat} {failures : Failures}
      {log : List Record}
      (first : Reports setting (.apply rule) position (.rejected failures) log) :
      Reports setting (.apply (rule.flatMap next)) position (.rejected failures) log
  | thenWith {Γ : List Type} {α β γ : Type} {setting : Setting N ε Γ} {rule : Rule N ε Γ α}
      {next : Rule N ε Γ β} {position middle : Nat} {value : α} {outcome : Outcome β}
      {log more : List Record} (combine : α → β → γ)
      (first : Reports setting (.apply rule) position (.accepted value middle) log)
      (second : Reports setting (.apply next) middle outcome more) :
      Reports setting (.apply (rule.thenWith combine next)) position
        (outcome.map (combine value)) (log ++ more)
  /-- The second rule is not applied. -/
  | thenWithRejected {Γ : List Type} {α β γ : Type} {setting : Setting N ε Γ}
      {rule : Rule N ε Γ α} {next : Rule N ε Γ β} {position : Nat} {failures : Failures}
      {log : List Record} (combine : α → β → γ)
      (first : Reports setting (.apply rule) position (.rejected failures) log) :
      Reports setting (.apply (rule.thenWith combine next)) position (.rejected failures) log
  | nonEmpty {Γ : List Type} {α : Type} {setting : Setting N ε Γ} {rule : Rule N ε Γ α}
      {position : Nat} {outcome : Outcome α} {log : List Record}
      (reports : Reports setting (.apply rule) position outcome log) :
      Reports setting (.apply rule.nonEmpty) position
        (outcome.revise (Matcher.judgeNonEmpty position)) log
  /-- The label is active meanwhile. -/
  | path {Γ : List Type} {α : Type} {setting : Setting N ε Γ} {rule : Rule N ε Γ α}
      {position : Nat} {outcome : Outcome α} {log : List Record} {label : String}
      (reports : Reports (setting.entered label) (.apply rule) position outcome log) :
      Reports setting (.apply (rule.path label)) position (outcome.withPath label) log
  /-- The label is active meanwhile. What is reported stands between the record of the
  attempt and the one of its outcome. -/
  | traced {Γ : List Type} {α : Type} {setting : Setting N ε Γ} {rule : Rule N ε Γ α}
      {position : Nat} {outcome : Outcome α} {log : List Record} {label : String}
      (reports : Reports (setting.entered label) (.apply rule) position outcome log) :
      Reports setting (.apply (rule.traced label)) position outcome
        (.trying (setting.context.path ++ [label]) position ::
          (log ++ [Matcher.closing label position outcome]))
  /-- Both alternatives are applied. -/
  | orElse {Γ : List Type} {α : Type} {setting : Setting N ε Γ} {rule other : Rule N ε Γ α}
      {position : Nat} {kept candidate : Outcome α} {log more : List Record}
      (first : Reports setting (.apply rule) position kept log)
      (second : Reports setting (.apply other) position candidate more) :
      Reports setting (.apply (rule.orElse other)) position (kept.best candidate)
        (log ++ more)
  | slice {Γ : List Type} {α : Type} {setting : Setting N ε Γ} {rule : Rule N ε Γ α}
      {position : Nat} {outcome : Outcome α} {log : List Record}
      (reports : Reports setting (.apply rule) position outcome log) :
      Reports setting (.apply rule.slice) position
        (outcome.revise (Matcher.judgeSlice setting.input.source position)) log
  | spanned {Γ : List Type} {α : Type} {setting : Setting N ε Γ} {rule : Rule N ε Γ α}
      {position : Nat} {outcome : Outcome α} {log : List Record}
      (reports : Reports setting (.apply rule) position outcome log) :
      Reports setting (.apply rule.spanned) position
        (outcome.revise fun value stop => .accepted ⟨value, position, stop⟩ stop) log
  | repeated {Γ : List Type} {α β : Type} {setting : Setting N ε Γ} {bounds : Bounds}
      {separator : Rule N ε Γ Unit} {item : Rule N ε Γ α} {init : β} {fold : β → α → β}
      {position : Nat} {outcome : Outcome β} {log : List Record}
      (reports : Reports setting (.goOn bounds separator item fold 0 init) position outcome
        log) :
      Reports setting (.apply (.repeated bounds separator item init fold)) position outcome log
  /-- At the ceiling nothing is attempted. -/
  | full {Γ : List Type} {α β : Type} {setting : Setting N ε Γ} {bounds : Bounds}
      {separator : Rule N ε Γ Unit} {item : Rule N ε Γ α} {fold : β → α → β} {count : Nat}
      {acc : β} {position : Nat} (full : bounds.ceiling = some count) :
      Reports setting (.goOn bounds separator item fold count acc) position
        (.accepted acc position) []
  | attempted {Γ : List Type} {α β : Type} {setting : Setting N ε Γ} {bounds : Bounds}
      {separator : Rule N ε Γ Unit} {item : Rule N ε Γ α} {fold : β → α → β} {count : Nat}
      {acc : β} {position stop : Nat} {value : α} {outcome : Outcome β}
      {log more : List Record} (unfilled : bounds.ceiling ≠ some count)
      (first : Reports setting (.apply (Rule.attempt separator item count)) position
        (.accepted value stop) log)
      (rest : Reports setting (.goOn bounds separator item fold (count + 1) (fold acc value))
        stop outcome more) :
      Reports setting (.goOn bounds separator item fold count acc) position outcome
        (log ++ more)
  /-- A failing attempt is reported, whether it is given back or not. -/
  | ended {Γ : List Type} {α β : Type} {setting : Setting N ε Γ} {bounds : Bounds}
      {separator : Rule N ε Γ Unit} {item : Rule N ε Γ α} {fold : β → α → β} {count : Nat}
      {acc : β} {position : Nat} {failures : Failures} {log : List Record}
      (unfilled : bounds.ceiling ≠ some count)
      (last : Reports setting (.apply (Rule.attempt separator item count)) position
        (.rejected failures) log) :
      Reports setting (.goOn bounds separator item fold count acc) position
        (if count < bounds.floor then .rejected failures else .accepted acc position) log
  | deferred {Γ : List Type} {setting : Setting N ε Γ} {name : N.Name}
      {rule : Rule N ε [] (N.Value name)} {position : Nat} {outcome : Outcome (N.Value name)}
      {log : List Record} (number : Nat) (defined : setting.input.grammar name = .ok rule)
      (reports : Reports (setting.inside .nil) (.apply rule) position outcome log) :
      Reports setting (.apply (.deferred number name)) position outcome log
  | delayed {Γ : List Type} {α : Type} {setting : Setting N ε Γ} {rule : Rule N ε Γ α}
      {position : Nat} {outcome : Outcome α} {log : List Record} (number : Nat)
      (reports : Reports setting (.apply rule) position outcome log) :
      Reports setting (.apply (.delayed number rule)) position outcome log
  | fresh {Γ : List Type} {α : Type} {setting : Setting N ε Γ} {rule : Rule N ε Γ α}
      {position : Nat} {outcome : Outcome α} {log : List Record}
      (reports : Reports setting (.apply rule) position outcome log) :
      Reports setting (.apply rule.fresh) position outcome log
  | undefined {Γ : List Type} {α : Type} {setting : Setting N ε Γ} {place : Member α Γ}
      {position : Nat} (found : setting.env.lookup place = .undefined) :
      Reports setting (.apply (.reference place)) position
        (.reject "recursive rule used before it was defined" position) []
  | dropped {Γ : List Type} {α : Type} {setting : Setting N ε Γ} {place : Member α Γ}
      {position : Nat} (found : setting.env.lookup place = .dropped) :
      Reports setting (.apply (.reference place)) position
        (.reject "recursive rule used after it was dropped" position) []
  | reference {Γ Δ : List Type} {α : Type} {setting : Setting N ε Γ} {place : Member α Γ}
      {rule : Rule N ε Δ α} {env : Env N ε Δ} {frame position : Nat} {outcome : Outcome α}
      {log : List Record} (found : setting.env.lookup place = .rule rule env frame)
      (reports : Reports (setting.inside env) (.apply rule) position outcome log) :
      Reports setting (.apply (.reference place)) position outcome log
  | recursive {Γ : List Type} {α : Type} {setting : Setting N ε Γ} {body : Rule N ε (α :: Γ) α}
      {position : Nat} {outcome : Outcome α} {log : List Record} (frame : Nat)
      (reports : Reports (setting.inside (.cons (.defined body) frame setting.env))
        (.apply body) position outcome log) :
      Reports setting (.apply (.recursive body)) position outcome log

/-- The records that are kept at a verbosity. -/
def Verbosity.kept (verbosity : Verbosity) (log : List Record) : Array Record :=
  if verbosity.debugs then log.toArray else #[]

@[simp]
theorem Verbosity.kept_nil (verbosity : Verbosity) : verbosity.kept [] = #[] := by
  simp [kept]

@[simp]
theorem Verbosity.kept_append (verbosity : Verbosity) (log more : List Record) :
    verbosity.kept (log ++ more) = verbosity.kept log ++ verbosity.kept more := by
  unfold kept
  split <;> simp

namespace Session

/-- The active labels are the same as before, and the records of a log that are kept were
added to the trace. -/
structure Extended (verbosity : Verbosity) (before after : Session) (log : List Record) :
    Prop where
  context : after.context = before.context
  trace : after.trace = before.trace ++ verbosity.kept log

variable {verbosity : Verbosity} {before between after : Session} {log more : List Record}

theorem Extended.refl (session : Session) : Extended verbosity session session [] where
  context := rfl
  trace := by simp

theorem Extended.trans (first : Extended verbosity before between log)
    (second : Extended verbosity between after more) :
    Extended verbosity before after (log ++ more) where
  context := second.context.trans first.context
  trace := by rw [second.trace, first.trace, Verbosity.kept_append, Array.append_assoc]

theorem extended_record (session : Session) (entry : Record) :
    Extended verbosity session (session.record verbosity entry) [entry] where
  context := context_record session verbosity entry
  trace := by
    unfold record Verbosity.kept
    split <;> simp

/-- A label that is taken off again leaves only what was added meanwhile. -/
theorem Extended.release_enter {label : String}
    (extended : Extended verbosity (before.enter label).2 after log) :
    Extended verbosity before (after.release (before.enter label).1) log where
  context := context_release_enter extended.context
  trace := extended.trace

end Session

variable {N : Nonterminals} {ε : Type} {Γ : List Type} {α β : Type}

/-- Whatever the matcher comes to, the task comes to it, and what the task reports is added
to the trace. -/
def Matcher.Reporting (input : Input N ε) (env : Env N ε Γ) (task : Task N ε Γ α)
    (matcher : Matcher α) : Prop :=
  ∀ ⦃session position outcome after⦄, matcher session position = .ok (outcome, after) →
    ∃ log, Reports ⟨input, env, session.context⟩ task position outcome log ∧
      session.Extended input.verbosity after log

namespace Matcher

variable {input : Input N ε} {env : Env N ε Γ} {matcher : Matcher α} {task : Task N ε Γ α}

/-- Another look at acceptances reports nothing. -/
theorem Reporting.revised {judge : Nat → α → Nat → Outcome β} {task' : Task N ε Γ β}
    (reporting : matcher.Reporting input env task)
    (judged : ∀ {context position outcome log},
      Reports ⟨input, env, context⟩ task position outcome log →
      Reports ⟨input, env, context⟩ task' position (outcome.revise (judge position)) log) :
    (matcher.revised judge).Reporting input env task' := by
  intro session position outcome after applied
  obtain ⟨found, first, rfl⟩ := revised_eq_ok_iff.mp applied
  obtain ⟨log, reports, extended⟩ := reporting first
  exact ⟨log, judged reports, extended⟩

theorem Reporting.thenWith {γ : Type} {rule : Rule N ε Γ α} {next : Rule N ε Γ β}
    {nextMatcher : Matcher β} (reporting : matcher.Reporting input env (.apply rule))
    (reportingNext : nextMatcher.Reporting input env (.apply next))
    (combine : α → β → γ) :
    (matcher.thenWith combine nextMatcher).Reporting input env
      (.apply (rule.thenWith combine next)) := by
  intro session position outcome after applied
  rw [thenWith_eq_flatMap] at applied
  obtain ⟨value, middle, between, first, second⟩ | ⟨failures, first, rfl⟩ :=
    flatMap_eq_ok_iff.mp applied
  · rw [map_eq_revised] at second
    obtain ⟨found, last, rfl⟩ := revised_eq_ok_iff.mp second
    obtain ⟨log, reports, extended⟩ := reporting first
    obtain ⟨more, reports', extended'⟩ := reportingNext last
    rw [extended.context] at reports'
    rw [Outcome.revise_eq_map]
    exact ⟨log ++ more, .thenWith combine reports reports', extended.trans extended'⟩
  · obtain ⟨log, reports, extended⟩ := reporting first
    exact ⟨log, .thenWithRejected combine reports, extended⟩

/-- A repetition reports what its attempts report. -/
theorem Reporting.repeatFrom {bounds : Bounds} {separator : Rule N ε Γ Unit}
    {item : Rule N ε Γ α} {nextMatcher : Matcher α}
    (reporting : matcher.Reporting input env (.apply item))
    (reportingNext : nextMatcher.Reporting input env
      (.apply (separator.thenWith (fun _ value => value) item)))
    (fold : β → α → β) (steps count : Nat) (acc : β) :
    (repeatFrom bounds matcher nextMatcher fold steps count acc).Reporting input env
      (.goOn bounds separator item fold count acc) := by
  induction steps generalizing count acc with
  | zero =>
      intro session position outcome after applied
      cases applied
  | succ steps ih =>
      intro session position outcome after applied
      have attempt : (if count = 0 then matcher else nextMatcher).Reporting input env
          (.apply (Rule.attempt separator item count)) := by
        unfold Rule.attempt
        split <;> assumption
      obtain ⟨full, rfl, rfl⟩ | ⟨unfilled, ⟨value, stop, between, first, goesOn⟩ |
        ⟨failures, last, rfl⟩⟩ := repeatFrom_succ_eq_ok_iff.mp applied
      · exact ⟨[], .full full, .refl _⟩
      · obtain ⟨log, reports, extended⟩ := attempt first
        obtain ⟨more, rest, extended'⟩ := ih (count + 1) (fold acc value) goesOn
        rw [extended.context] at rest
        exact ⟨log ++ more, .attempted unfilled reports rest, extended.trans extended'⟩
      · obtain ⟨log, reports, extended⟩ := attempt last
        exact ⟨log, .ended unfilled reports, extended⟩

end Matcher

namespace Rule

open Matcher

/-- The step of the induction: what holds for the rules that references and names lead to
holds for the rules that mention them. -/
theorem reporting_interpret {input : Input N ε} {again : Interpretation N ε}
    (reporting : ∀ {Γ : List Type} {α : Type} (rule : Rule N ε Γ α) (env : Env N ε Γ)
      (frame : Nat), (again rule env frame).Reporting input env (.apply rule))
    (steps : Nat) (rule : Rule N ε Γ α) (env : Env N ε Γ) (frame : Nat) :
    (rule.interpret input again steps env frame).Reporting input env (.apply rule) := by
  induction rule generalizing frame with
  | leaf part =>
      intro session position outcome after applied
      obtain ⟨judged, rfl⟩ := leaf_eq_ok_iff.mp applied
      exact ⟨[], .leaf judged, .refl _⟩
  | unfinished rule ih =>
      intro session position outcome after applied
      obtain ⟨inside, first⟩ | ⟨behind, rfl, rfl⟩ := unfinished_eq_ok_iff.mp applied
      · obtain ⟨log, reports, extended⟩ := ih env frame first
        exact ⟨log, .unfinished inside reports, extended⟩
      · exact ⟨[], .behind behind, .refl _⟩
  | map f rule ih =>
      show Reporting _ _ _ (Matcher.map f _)
      rw [map_eq_revised]
      refine (ih env frame).revised fun reports => ?_
      rw [Outcome.revise_eq_map]
      exact .map f reports
  | flatMap rule next ih ihNext =>
      intro session position outcome after applied
      obtain ⟨value, middle, between, first, second⟩ | ⟨failures, first, rfl⟩ :=
        flatMap_eq_ok_iff.mp applied
      · obtain ⟨log, reports, extended⟩ := ih env frame first
        obtain ⟨more, reports', extended'⟩ := ihNext value env frame second
        rw [extended.context] at reports'
        exact ⟨log ++ more, .flatMap reports reports', extended.trans extended'⟩
      · obtain ⟨log, reports, extended⟩ := ih env frame first
        exact ⟨log, .flatMapRejected reports, extended⟩
  | thenWith combine rule next ih ihNext =>
      exact (ih env frame).thenWith (ihNext env frame) combine
  | nonEmpty rule ih =>
      show Reporting _ _ _ (Matcher.nonEmpty _)
      rw [nonEmpty_eq_revised]
      exact (ih env frame).revised .nonEmpty
  | path label rule ih =>
      intro session position outcome after applied
      obtain ⟨found, inner, first, rfl, rfl⟩ := path_eq_ok_iff.mp applied
      obtain ⟨log, reports, extended⟩ := ih env frame first
      exact ⟨log, .path reports, extended.release_enter⟩
  | traced label rule ih =>
      intro session position outcome after applied
      obtain ⟨inner, first, rfl⟩ := traced_eq_ok_iff.mp applied
      obtain ⟨log, reports, extended⟩ := ih env frame first
      rw [Session.context_record] at reports
      rw [Session.enter, Context.path_enter] at extended
      have bracketed := ((Session.extended_record _ _).trans extended).trans
        (Session.extended_record _ (closing label position outcome))
      exact ⟨_, .traced reports, bracketed.release_enter⟩
  | orElse rule other ih ihOther =>
      intro session position outcome after applied
      obtain ⟨kept, between, candidate, first, second, rfl⟩ := orElse_eq_ok_iff.mp applied
      obtain ⟨log, reports, extended⟩ := ih env frame first
      obtain ⟨more, reports', extended'⟩ := ihOther env frame second
      rw [extended.context] at reports'
      exact ⟨log ++ more, .orElse reports reports', extended.trans extended'⟩
  | slice rule ih =>
      show Reporting _ _ _ (Matcher.slice _ _)
      rw [slice_eq_revised]
      exact (ih env frame).revised .slice
  | spanned rule ih =>
      show Reporting _ _ _ (Matcher.spanned _)
      rw [spanned_eq_revised]
      exact (ih env frame).revised .spanned
  | repeated bounds separator item init fold ihSeparator ihItem =>
      have next := (ihSeparator env frame).thenWith (ihItem env frame) fun _ value => value
      intro session position outcome after applied
      obtain ⟨log, reports, extended⟩ :=
        (ihItem env frame).repeatFrom next fold steps 0 init applied
      exact ⟨log, .repeated reports, extended⟩
  | deferred number name =>
      show Reporting _ _ _ (again.deferred _ _ _)
      cases found : input.grammar name with
      | error cause =>
          rw [Interpretation.deferred_eq_halted _ found]
          intro session position outcome after applied
          cases applied
      | ok rule =>
          rw [Interpretation.deferred_eq_framed _ found]
          intro session position outcome after applied
          obtain ⟨log, reports, extended⟩ := reporting rule .nil _ applied
          exact ⟨log, .deferred number found reports, extended.context, extended.trace⟩
  | delayed number rule ih =>
      intro session position outcome after applied
      obtain ⟨log, reports, extended⟩ := ih env frame applied
      exact ⟨log, .delayed number reports, extended.context, extended.trace⟩
  | fresh rule ih =>
      intro session position outcome after applied
      obtain ⟨log, reports, extended⟩ := ih env session.cells.openFrame.1 applied
      exact ⟨log, .fresh reports, extended.context, extended.trace⟩
  | reference place =>
      intro session position outcome after applied
      have applied : again.reference env place session position = .ok (outcome, after) :=
        applied
      unfold Interpretation.reference at applied
      cases found : env.lookup place with
      | undefined =>
          rw [found] at applied
          cases applied
          exact ⟨[], .undefined found, .refl _⟩
      | dropped =>
          rw [found] at applied
          cases applied
          exact ⟨[], .dropped found, .refl _⟩
      | rule body inner frame =>
          rw [found] at applied
          obtain ⟨log, reports, extended⟩ := reporting body inner frame applied
          exact ⟨log, .reference found reports, extended⟩
  | recursive body ih =>
      intro session position outcome after applied
      obtain ⟨log, reports, extended⟩ := ih _ frame applied
      exact ⟨log, .recursive frame reports, extended⟩

/-- What an application adds to the trace is what is reported in its course. -/
theorem apply_reporting (input : Input N ε) (steps : Nat) (rule : Rule N ε Γ α)
    (env : Env N ε Γ) (frame : Nat) :
    (apply input steps rule env frame).Reporting input env (.apply rule) := by
  induction steps generalizing Γ α frame with
  | zero =>
      intro session position outcome after applied
      cases applied
  | succ steps ih => exact reporting_interpret ih (steps + 1) rule env frame

end Rule

end Rulebook
