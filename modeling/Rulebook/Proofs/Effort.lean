/-
# How much a repetition attempts

The loop of a repetition has no check of its own that it comes to an end. Two things make
it end. An item that may not match without consuming anything uses up the source, so there
are no more matches than elements left, and one attempt more at most. A ceiling ends any
repetition, wherever its item and its separator move the cursor, and there are no more
attempts than the ceiling allows.

To speak of attempts the loop is run with a count of them. Without the count it is the
loop.
-/

import Rulebook.Proofs.Guarded
import Rulebook.Proofs.Tokenizer

namespace Rulebook

/-- How often a repetition attempted a match, and how many values it folded. -/
structure Effort where
  attempts : Nat
  folds : Nat
  deriving DecidableEq, Repr

/-- The loop of a repetition with a count of what it does. -/
def Matcher.repeatCounted {α β : Type} (bounds : Bounds) (item next : Matcher α)
    (fold : β → α → β) : (steps count : Nat) → (acc : β) → (effort : Effort) → Session →
      Nat → Except Halt ((Outcome β × Session) × Effort)
  | 0, _, _, _, _, _ => .error .exhausted
  | steps + 1, count, acc, ⟨attempts, folds⟩, session, position =>
    if bounds.ceiling = some count then
      .ok ((.accepted acc position, session), ⟨attempts, folds⟩)
    else
      match (if count = 0 then item else next) session position with
      | .error cause => .error cause
      | .ok (.accepted value stop, session) =>
        repeatCounted bounds item next fold steps (count + 1) (fold acc value)
          ⟨attempts + 1, folds + 1⟩ session stop
      | .ok (.rejected failures, session) =>
        if count < bounds.floor then
          .ok ((.rejected failures, session), ⟨attempts + 1, folds⟩)
        else .ok ((.accepted acc position, session), ⟨attempts + 1, folds⟩)

/-- Without the count it is the loop. -/
theorem Matcher.fst_repeatCounted {α β : Type} (bounds : Bounds) (item next : Matcher α)
    (fold : β → α → β) (steps count : Nat) (acc : β) (effort : Effort) (session : Session)
    (position : Nat) :
    (repeatCounted bounds item next fold steps count acc effort session position).map
        Prod.fst =
      repeatFrom bounds item next fold steps count acc session position := by
  induction steps generalizing count acc effort session position with
  | zero => rfl
  | succ steps ih =>
      simp only [repeatCounted, repeatFrom]
      by_cases full : bounds.ceiling = some count
      · simp only [if_pos full]
        rfl
      · simp only [if_neg full]
        cases (if count = 0 then item else next) session position with
        | error cause => rfl
        | ok reached =>
            obtain ⟨⟨value, stop⟩ | failures, between⟩ := reached
            · exact ih ..
            · by_cases below : count < bounds.floor
              · simp only [if_pos below]
                rfl
              · simp only [if_neg below]
                rfl

variable {N : Nonterminals} {ε : Type} {Γ : List Type} {α β : Type}

namespace Rule

/-- Started in a region of cursors, the rule terminates, and where it accepts it stops in
the region again. -/
def StaysWithin (setting : Setting N ε Γ) (region : Nat → Prop) (rule : Rule N ε Γ α) :
    Prop :=
  ∀ position, region position → rule.Terminates setting position ∧
    ∀ value stop, rule.Yields setting position (.accepted value stop) → region stop

variable {setting : Setting N ε Γ} {region : Nat → Prop} {rule : Rule N ε Γ α}

theorem StaysInside.staysWithin (inside : rule.StaysInside setting) :
    rule.StaysWithin setting (· ≤ setting.size) := fun position between =>
  ⟨(inside position between).1,
    fun value stop accepts => ((inside position between).2 value stop accepts).2⟩

/-- The check for progress takes acceptances away and adds none. -/
theorem StaysWithin.nonEmpty (within : rule.StaysWithin setting region) :
    rule.nonEmpty.StaysWithin setting region := by
  intro position inside
  obtain ⟨⟨outcome, yields⟩, stays⟩ := within position inside
  refine ⟨⟨_, yields_nonEmpty_iff.mpr ⟨outcome, yields, rfl⟩⟩, ?_⟩
  intro value stop accepts
  exact stays value stop (yields_nonEmpty_accepted_iff.mp accepts).1

/-- Apply the repetition of a rule and count what is done. -/
def foldManyCounted (setting : Setting N ε Γ) (repetition : Repetition N ε Γ) (init : β)
    (fold : β → α → β) (rule : Rule N ε Γ α) (steps frame : Nat) (session : Session)
    (position : Nat) : Except Halt ((Outcome β × Session) × Effort) :=
  Matcher.repeatCounted repetition.bounds
    (apply setting.input steps rule setting.env frame)
    (apply setting.input steps (repetition.laterAttempt rule) setting.env frame) fold
    steps 0 init ⟨0, 0⟩ session position

/-- From a position the repetition of the rule has an outcome at this effort. -/
def Spends (setting : Setting N ε Γ) (repetition : Repetition N ε Γ) (init : β)
    (fold : β → α → β) (rule : Rule N ε Γ α) (position : Nat) (effort : Effort) : Prop :=
  ∃ (steps frame : Nat) (session : Session) (outcome : Outcome β) (after : Session),
    session.context = setting.context ∧
      rule.foldManyCounted setting repetition init fold steps frame session position =
        .ok ((outcome, after), effort)

end Rule

namespace Repetition

variable {setting : Setting N ε Γ} {repetition : Repetition N ε Γ} {item : Rule N ε Γ α}
  {start limit : Nat} {region : Nat → Prop}

/-- Attempts in a region terminate and stay there if item and separator do. -/
theorem attempt_staysWithin (itemWithin : item.StaysWithin setting region)
    (separatorWithin : ∀ separator ∈ repetition.separator,
      separator.StaysWithin setting region)
    (index : Nat) {position : Nat} (inside : region position) :
    (∃ outcome, Attempt setting repetition item index position outcome) ∧
      ∀ value stop, Attempt setting repetition item index position (.accepted value stop) →
        region stop := by
  obtain ⟨⟨outcome, yields⟩, stays⟩ := itemWithin position inside
  refine ⟨?_, fun value stop attempt => ?_⟩
  · by_cases first : index = 0
    · exact ⟨outcome, .plain (.inl first) yields⟩
    cases required : repetition.separator with
    | none => exact ⟨outcome, .plain (.inr required) yields⟩
    | some separator =>
        obtain ⟨⟨⟨_, middle⟩ | failures, separates⟩, reaches⟩ :=
          separatorWithin separator required position inside
        · obtain ⟨⟨found, attempted⟩, _⟩ := itemWithin middle (reaches _ _ separates)
          exact ⟨found, .separated first required separates attempted⟩
        · exact ⟨_, .unseparated first required separates⟩
  · cases attempt with
    | plain _ attempted => exact stays value stop attempted
    | separated _ required separates attempted =>
        have middleInside :=
          (separatorWithin _ required position inside).2 _ _ separates
        exact (itemWithin _ middleInside).2 value stop attempted

/-- A separator does not go back, so every success of an item that has to consume moves the
cursor forward. -/
theorem Attempt.lt_stop {index position stop : Nat} {value : α}
    (separatorInside : ∀ separator ∈ repetition.separator, separator.StaysInside setting)
    (inside : position ≤ setting.size)
    (attempt : Attempt setting repetition item.nonEmpty index position
      (.accepted value stop)) :
    position < stop := by
  cases attempt with
  | plain _ attempted => exact (Rule.yields_nonEmpty_accepted_iff.mp attempted).2
  | separated _ required separates attempted =>
      have further := ((separatorInside _ required position inside).2 _ _ separates).1
      exact Nat.lt_of_le_of_lt further (Rule.yields_nonEmpty_accepted_iff.mp attempted).2

/-- There are no more successes of an item that has to consume than elements between start
and stop. -/
theorem Successes.add_length_le {values : List α} {stop : Nat}
    (itemWithin : item.StaysWithin setting (· ≤ setting.size))
    (separatorInside : ∀ separator ∈ repetition.separator, separator.StaysInside setting)
    (inside : start ≤ setting.size)
    (successes : Successes setting repetition item.nonEmpty start values stop) :
    start + values.length ≤ stop ∧ stop ≤ setting.size := by
  induction successes with
  | none => exact ⟨Nat.le_refl start, inside⟩
  | @more values position stop value successes succeeds ih =>
      obtain ⟨counted, before⟩ := ih
      have forward := succeeds.lt_stop separatorInside before
      have after := (attempt_staysWithin itemWithin.nonEmpty
        (fun separator required => (separatorInside separator required).staysWithin)
        values.length before).2 value stop succeeds
      rw [List.length_append, List.length_singleton]
      exact ⟨by omega, after⟩

/-- The count of the loop: if it goes on after the successes so far, each counted once, then
in the end each success was folded, and at most one attempt was none. -/
theorem effort_of_counted {fold : β → α → β} {allowed frame steps : Nat}
    {values : List α} {position : Nat} {acc : β} {session after : Session}
    {outcome : Outcome β} {effort : Effort}
    (successes : Successes setting repetition item start values position)
    (within : ∀ limit ∈ repetition.bounds.ceiling, values.length ≤ limit)
    (active : session.context = setting.context)
    (counted : Matcher.repeatCounted repetition.bounds
      (Rule.apply setting.input allowed item setting.env frame)
      (Rule.apply setting.input allowed (repetition.laterAttempt item) setting.env frame)
      fold steps values.length acc ⟨values.length, values.length⟩ session position =
        .ok ((outcome, after), effort)) :
    ∃ all stop, Successes setting repetition item start all stop ∧
      effort.folds = all.length ∧ effort.attempts ≤ all.length + 1 ∧
      ∀ limit ∈ repetition.bounds.ceiling, effort.attempts ≤ limit := by
  induction steps generalizing values position acc session with
  | zero => cases counted
  | succ steps ih =>
      rw [Matcher.repeatCounted] at counted
      split at counted
      · cases counted
        exact ⟨values, position, successes, rfl, Nat.le_succ _, within⟩
      · next unfilled =>
          have room := room_of_ne_ceiling within unfilled
          split at counted
          · cases counted
          · next value stop between applied =>
              obtain ⟨succeeds, active'⟩ := attempt_of_apply active applied
              have longer : values.length + 1 = (values ++ [value]).length := by simp
              rw [longer] at counted
              exact ih (successes.more succeeds) (length_le_ceiling_of_lt room) active' counted
          · -- The attempt that failed is counted, but no value.
            split at counted <;> cases counted <;>
              exact ⟨values, position, successes, rfl, Nat.le_refl _, room⟩

theorem effort_of_spends {init : β} {fold : β → α → β} {effort : Effort}
    (spends : item.Spends setting repetition init fold start effort) :
    ∃ values stop, Successes setting repetition item start values stop ∧
      effort.folds = values.length ∧ effort.attempts ≤ values.length + 1 ∧
      ∀ limit ∈ repetition.bounds.ceiling, effort.attempts ≤ limit := by
  obtain ⟨steps, frame, session, outcome, after, active, counted⟩ := spends
  exact effort_of_counted .none (fun _ _ => Nat.zero_le _) active counted

/-- A repetition terminates if item and separator terminate in a region that they do not
leave and something gets smaller with every success. -/
theorem terminates_foldMany (left : Nat → Nat → Nat) {init : β} {fold : β → α → β}
    (itemWithin : item.StaysWithin setting region)
    (separatorWithin : ∀ separator ∈ repetition.separator,
      separator.StaysWithin setting region)
    (shrinks : ∀ index position value stop,
      (∀ limit ∈ repetition.bounds.ceiling, index < limit) → region position →
        Attempt setting repetition item index position (.accepted value stop) →
          left (index + 1) stop < left index position)
    (inside : region start) :
    (item.foldMany repetition init fold).Terminates setting start := by
  have attempts (index : Nat) {position : Nat} (between : region position) :=
    attempt_staysWithin itemWithin separatorWithin index between
  obtain ⟨result, comes⟩ := Successes.none.exists_result_of_decreasing region left
    (fun index position between => (attempts index between).1)
    (fun index position value stop room between attempt =>
      ⟨(attempts index between).2 value stop attempt, shrinks _ _ _ _ room between attempt⟩)
    inside fun _ _ => Nat.zero_le _
  exact ⟨_, yields_foldMany_iff.mpr ⟨result, comes, rfl⟩⟩

end Repetition

namespace Rule

/-- A repetition ends on progress or at its ceiling. If its item has to consume, it folds no
more values than there are elements left and attempts at most one match more. With a
ceiling it ends wherever item and separator move the cursor, and never attempts more matches
than the ceiling. The count of attempts is that of the loop that is run. -/
theorem repetition_ends_on_progress_or_ceiling (setting : Setting N ε Γ)
    (repetition : Repetition N ε Γ) (item : Rule N ε Γ α) (init : β) (fold : β → α → β)
    (start : Nat) :
    (start ≤ setting.size → item.StaysWithin setting (· ≤ setting.size) →
      (∀ separator ∈ repetition.separator, separator.StaysInside setting) →
      (item.nonEmpty.foldMany repetition init fold).Terminates setting start ∧
      ∀ effort, item.nonEmpty.Spends setting repetition init fold start effort →
        effort.attempts ≤ setting.size - start + 1 ∧
          effort.folds ≤ setting.size - start) ∧
    (∀ (region : Nat → Prop) (limit : Nat), region start →
      item.StaysWithin setting region →
      (∀ separator ∈ repetition.separator, separator.StaysWithin setting region) →
      repetition.bounds.ceiling = some limit →
      (item.foldMany repetition init fold).Terminates setting start ∧
      ∀ effort, item.Spends setting repetition init fold start effort →
        effort.attempts ≤ limit) ∧
    ∀ (rule : Rule N ε Γ α) (steps frame position : Nat) (session : Session),
      (rule.foldManyCounted setting repetition init fold (steps + 1) frame session
        position).map Prod.fst =
      apply setting.input (steps + 1) (rule.foldMany repetition init fold) setting.env frame
        session position := by
  refine ⟨fun inside itemWithin separatorInside => ⟨?_, fun effort spends => ?_⟩,
    fun region limit inside itemWithin separatorWithin ceiling => ⟨?_, fun effort spends => ?_⟩,
    fun rule steps frame position session => ?_⟩
  · have within := itemWithin.nonEmpty
    have separatorWithin : ∀ separator ∈ repetition.separator,
        separator.StaysWithin setting (· ≤ setting.size) :=
      fun separator required => (separatorInside separator required).staysWithin
    -- Every success leaves less of the source.
    refine Repetition.terminates_foldMany (fun _ position => setting.size - position)
      within separatorWithin (fun index position value stop _ before attempt => ?_) inside
    have forward := attempt.lt_stop separatorInside before
    have after := (Repetition.attempt_staysWithin within separatorWithin index before).2 _ _
      attempt
    show setting.size - stop < setting.size - position
    omega
  · obtain ⟨values, stop, successes, folds, attempts, _⟩ :=
      Repetition.effort_of_spends spends
    obtain ⟨counted, before⟩ := successes.add_length_le itemWithin separatorInside inside
    omega
  · -- Every success leaves less room up to the ceiling.
    refine Repetition.terminates_foldMany (fun index _ => limit - index) itemWithin
      separatorWithin (fun index position value stop room _ _ => ?_) inside
    have below := room limit ceiling
    show limit - (index + 1) < limit - index
    omega
  · obtain ⟨_, _, _, _, _, atMost⟩ := Repetition.effort_of_spends spends
    exact atMost limit ceiling
  · exact Matcher.fst_repeatCounted ..

/-- Any number of elements for which the predicate holds, none included. -/
def runOf (holds : Int → Bool) : Rule .none Int [] Unit :=
  skipMany .any (nextIf holds)

/-- A rule that goes back as far as it went on before. -/
def backAndForth : Rule .none Int [] Unit :=
  custom fun _ _ position => .accepted () (5 - position)

/-- Two numbers with zeros behind each: item and separator may be empty, and the third
attempt fails. A rule that goes back and forth is attempted four times if that is the
ceiling. -/
theorem numbersBetweenZeros_ends :
    let setting : Setting .none Int [] := ⟨⟨#[1, 0, 2, 0, 0], .empty, .off⟩, .nil, ∅⟩
    let repetition := (Repetition.atLeast 1).separatedBy (runOf (· = 0))
    let number := runOf (0 < ·)
    number.StaysWithin setting (· ≤ setting.size) ∧
      (∀ separator ∈ repetition.separator, separator.StaysInside setting) ∧
      ((number.nonEmpty.foldMany repetition 0 fun n _ => n + 1).Terminates setting 0 ∧
        number.nonEmpty.Spends setting repetition 0 (fun n _ => n + 1) 0 ⟨3, 2⟩ ∧
        (3 ≤ 5 - 0 + 1 ∧ 2 ≤ 5 - 0)) ∧
      backAndForth.StaysWithin setting (fun _ => True) ∧
      (backAndForth.foldMany (.atMost 4) 0 fun n _ => n + 1).Terminates setting 0 ∧
        backAndForth.Spends setting (.atMost 4) 0 (fun n _ => n + 1) 0 ⟨4, 4⟩ ∧ 4 ≤ 4 := by
  intro setting repetition number
  have numberInside : number.StaysInside setting :=
    staysInside_of_isOk (Grammar.within_empty _) trivial ⟨trivial, trivial⟩ 7 (by decide)
  have separatorInside : ∀ separator ∈ repetition.separator, separator.StaysInside setting := by
    rintro separator ⟨⟩
    exact staysInside_of_isOk (Grammar.within_empty _) trivial ⟨trivial, trivial⟩ 7 (by decide)
  have anywhere : backAndForth.StaysWithin setting (fun _ => True) := fun position _ =>
    ⟨⟨_, yields_leaf_iff.mpr rfl⟩, fun _ _ _ => trivial⟩
  have spends : number.nonEmpty.Spends setting repetition 0 (fun n _ => n + 1) 0 ⟨3, 2⟩ :=
    ⟨7, 0, setting.session, _, _, rfl, rfl⟩
  have spendsAll : backAndForth.Spends setting (.atMost 4) 0 (fun n _ => n + 1) 0 ⟨4, 4⟩ :=
    ⟨5, 0, setting.session, _, _, rfl, rfl⟩
  obtain ⟨onProgress, _, _⟩ := repetition_ends_on_progress_or_ceiling setting repetition
    number 0 (fun n _ => n + 1) 0
  obtain ⟨terminates, bounded⟩ :=
    onProgress (Nat.zero_le _) numberInside.staysWithin separatorInside
  obtain ⟨_, onCeiling, _⟩ := repetition_ends_on_progress_or_ceiling setting (.atMost 4)
    backAndForth 0 (fun n _ => n + 1) 0
  obtain ⟨terminates', bounded'⟩ := onCeiling _ 4 trivial anywhere (by rintro _ ⟨⟩) rfl
  exact ⟨numberInside.staysWithin, separatorInside,
    ⟨terminates, spends, bounded _ spends⟩, anywhere, terminates', spendsAll,
    bounded' _ spendsAll⟩

end Rule

end Rulebook
