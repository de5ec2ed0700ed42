/-
# What a repetition comes to

A repetition is a sequence of attempts. The first attempt is the item alone,
every later one the separator and then the item. The attempts go on from where
the last success stopped until one fails or the ceiling is reached, and the
values of the successes are folded. A failing attempt leaves no trace but in
one case: below the floor its failures are those of the whole repetition.

Here this is said without counters and steps, as a relation on the values that
were matched, and the loop is shown to come to exactly what the relation says.
-/

import Rulebook.Proofs.Yields
import Rulebook.Rule.Repetition

namespace Rulebook

namespace Repetition

variable {N : Nonterminals} {ε : Type} {Γ : List Type} {α β : Type}

/-- What attempt number `index` of a repetition comes to at a position. -/
inductive Attempt (setting : Setting N ε Γ) (repetition : Repetition N ε Γ)
    (item : Rule N ε Γ α) (index position : Nat) : Outcome α → Prop
  | plain {outcome : Outcome α} (alone : index = 0 ∨ repetition.separator = none)
      (attempted : item.Yields setting position outcome) :
      Attempt setting repetition item index position outcome
  | separated {separator : Rule N ε Γ Unit} {middle : Nat} {outcome : Outcome α}
      (later : index ≠ 0) (required : repetition.separator = some separator)
      (separates : separator.Yields setting position (.accepted () middle))
      (attempted : item.Yields setting middle outcome) :
      Attempt setting repetition item index position outcome
  | unseparated {separator : Rule N ε Γ Unit} {failures : Failures}
      (later : index ≠ 0) (required : repetition.separator = some separator)
      (fails : separator.Yields setting position (.rejected failures)) :
      Attempt setting repetition item index position (.rejected failures)

/-- The first attempts from `start` on succeed with the given values, and the
last of them stops at a position. -/
inductive Successes (setting : Setting N ε Γ) (repetition : Repetition N ε Γ)
    (item : Rule N ε Γ α) (start : Nat) : List α → Nat → Prop
  | none : Successes setting repetition item start [] start
  | more {values : List α} {position stop : Nat} {value : α}
      (successes : Successes setting repetition item start values position)
      (succeeds : Attempt setting repetition item values.length position
        (.accepted value stop)) :
      Successes setting repetition item start (values ++ [value]) stop

/-- What a repetition should come to: the matched values and where the last one
stopped, or the failures of the attempt that ended it too early. -/
inductive Result (setting : Setting N ε Γ) (repetition : Repetition N ε Γ)
    (item : Rule N ε Γ α) (start : Nat) : Outcome (List α) → Prop
  /-- At the ceiling nothing more is attempted. -/
  | full {values : List α} {stop : Nat}
      (successes : Successes setting repetition item start values stop)
      (ceiling : repetition.bounds.ceiling = some values.length) :
      Result setting repetition item start (.accepted values stop)
  /-- The first attempt to fail does so below the floor. -/
  | short {values : List α} {position : Nat} {failures : Failures}
      (successes : Successes setting repetition item start values position)
      (room : ∀ limit ∈ repetition.bounds.ceiling, values.length < limit)
      (fails : Attempt setting repetition item values.length position
        (.rejected failures))
      (below : values.length < repetition.bounds.floor) :
      Result setting repetition item start (.rejected failures)
  /-- The first attempt to fail does so when there are matches enough. -/
  | ended {values : List α} {stop : Nat} {failures : Failures}
      (successes : Successes setting repetition item start values stop)
      (room : ∀ limit ∈ repetition.bounds.ceiling, values.length < limit)
      (fails : Attempt setting repetition item values.length stop
        (.rejected failures))
      (enough : repetition.bounds.floor ≤ values.length) :
      Result setting repetition item start (.accepted values stop)

variable {setting : Setting N ε Γ} {repetition : Repetition N ε Γ}
  {item : Rule N ε Γ α} {start : Nat}

/-- The rule of a later attempt. -/
def laterAttempt (repetition : Repetition N ε Γ) (item : Rule N ε Γ α) :
    Rule N ε Γ α :=
  (repetition.separator.getD (.accept ())).thenWith (fun _ value => value) item

theorem attempt_zero_iff {position : Nat} {outcome : Outcome α} :
    Attempt setting repetition item 0 position outcome ↔
      item.Yields setting position outcome := by
  refine ⟨fun attempt => ?_, ?_⟩
  · cases attempt with
    | plain _ attempted => exact attempted
    | separated later => exact absurd rfl later
    | unseparated later => exact absurd rfl later
  · exact .plain (.inl rfl)

/-- A later attempt is the separator followed by the item. A separator that is
not required is the rule that accepts everywhere. -/
theorem attempt_succ_iff {index position : Nat} {outcome : Outcome α} :
    Attempt setting repetition item (index + 1) position outcome ↔
      (repetition.laterAttempt item).Yields setting position outcome := by
  unfold laterAttempt
  rw [Rule.yields_thenWith_iff]
  cases required : repetition.separator with
  | none =>
      refine ⟨fun attempt => ?_, fun holds => ?_⟩
      · cases attempt with
        | plain _ attempted =>
            exact .inl ⟨(), position, outcome, Rule.yields_accept_iff.mpr rfl, attempted,
              by cases outcome <;> rfl⟩
        | separated _ present => rw [required] at present; cases present
        | unseparated _ present => rw [required] at present; cases present
      · rcases holds with ⟨_, middle, found, separates, attempted, rfl⟩ | ⟨failures, fails, _⟩
        · cases Rule.yields_accept_iff.mp separates
          refine .plain (.inr required) ?_
          cases found <;> exact attempted
        · cases Rule.yields_accept_iff.mp fails
  | some separator =>
      refine ⟨fun attempt => ?_, fun holds => ?_⟩
      · cases attempt with
        | plain alone =>
            rw [required] at alone
            simp at alone
        | separated _ present separates attempted =>
            obtain rfl := Option.some.inj (required.symm.trans present)
            exact .inl ⟨(), _, outcome, separates, attempted, by cases outcome <;> rfl⟩
        | unseparated _ present fails =>
            obtain rfl := Option.some.inj (required.symm.trans present)
            exact .inr ⟨_, fails, rfl⟩
      · rcases holds with ⟨_, middle, found, separates, attempted, rfl⟩ | ⟨failures, fails, rfl⟩
        · refine .separated (Nat.succ_ne_zero index) required separates ?_
          cases found <;> exact attempted
        · exact .unseparated (Nat.succ_ne_zero index) required fails

/-- With a given separator a later attempt is the separator and then the item. -/
theorem attempt_separatedBy_succ_iff {separator : Rule N ε Γ β} {index position : Nat}
    {outcome : Outcome α} :
    Attempt setting (repetition.separatedBy separator) item (index + 1) position outcome ↔
      (∃ value middle, separator.Yields setting position (.accepted value middle) ∧
        item.Yields setting middle outcome) ∨
      ∃ failures, separator.Yields setting position (.rejected failures) ∧
        outcome = .rejected failures := by
  have later : (repetition.separatedBy separator).laterAttempt item =
      separator.ignored.thenWith (fun _ value => value) item := rfl
  have keeps (found : Outcome α) : found.map (fun value => value) = found := by
    cases found <;> rfl
  rw [attempt_succ_iff, later, Rule.yields_thenWith_iff]
  simp only [Rule.ignored, Rule.yields_map_iff, keeps]
  refine ⟨fun holds => ?_, fun holds => ?_⟩
  · rcases holds with
      ⟨_, middle, _, ⟨⟨value, stop⟩ | failures, separates, same⟩, attempted, rfl⟩ |
      ⟨_, ⟨⟨value, stop⟩ | failures, fails, same⟩, rfl⟩
    · cases same
      exact .inl ⟨value, middle, separates, attempted⟩
    · cases same
    · cases same
    · cases same
      exact .inr ⟨_, fails, rfl⟩
  · rcases holds with ⟨value, middle, separates, attempted⟩ | ⟨failures, fails, rfl⟩
    · exact .inl ⟨(), middle, outcome, ⟨_, separates, rfl⟩, attempted, rfl⟩
    · exact .inr ⟨failures, ⟨_, fails, rfl⟩, rfl⟩

theorem Attempt.unique {index position : Nat} {outcome outcome' : Outcome α}
    (attempt : Attempt setting repetition item index position outcome)
    (attempt' : Attempt setting repetition item index position outcome') :
    outcome = outcome' := by
  cases index with
  | zero => exact (attempt_zero_iff.mp attempt).unique (attempt_zero_iff.mp attempt')
  | succ index => exact (attempt_succ_iff.mp attempt).unique (attempt_succ_iff.mp attempt')

theorem successes_nil_iff {stop : Nat} :
    Successes setting repetition item start [] stop ↔ stop = start := by
  constructor
  · intro successes
    generalize found : ([] : List α) = values at successes
    cases successes with
    | none => rfl
    | more => simp at found
  · rintro rfl
    exact .none

/-- The last success is an attempt where the ones before it stopped. -/
theorem successes_concat_iff {values : List α} {value : α} {stop : Nat} :
    Successes setting repetition item start (values ++ [value]) stop ↔
      ∃ position, Successes setting repetition item start values position ∧
        Attempt setting repetition item values.length position (.accepted value stop) := by
  constructor
  · intro successes
    generalize found : values ++ [value] = all at successes
    cases successes with
    | none => simp at found
    | more successes succeeds =>
        obtain ⟨rfl, last⟩ := List.append_inj' found rfl
        cases last
        exact ⟨_, successes, succeeds⟩
  · rintro ⟨position, successes, succeeds⟩
    exact successes.more succeeds

/-- Where every attempt terminates and every success moves on within a bound,
successes are followed by a failing attempt sooner or later. -/
theorem Successes.exists_fails {bound position : Nat} {values : List α}
    (total : ∀ index position, position ≤ bound →
      ∃ outcome, Attempt setting repetition item index position outcome)
    (progress : ∀ index position value stop, position ≤ bound →
      Attempt setting repetition item index position (.accepted value stop) →
        position < stop ∧ stop ≤ bound)
    (successes : Successes setting repetition item start values position)
    (inside : position ≤ bound) :
    ∃ values stop failures, Successes setting repetition item start values stop ∧
      stop ≤ bound ∧
      Attempt setting repetition item values.length stop (.rejected failures) := by
  -- What is left up to the bound shrinks with every success.
  induction left : bound - position using Nat.strongRecOn
    generalizing values position with
  | ind left ih =>
      obtain ⟨⟨value, stop⟩ | failures, attempt⟩ := total values.length position inside
      · obtain ⟨forward, inside'⟩ := progress _ _ _ _ inside attempt
        exact ih (bound - stop) (by omega) (successes.more attempt) inside' rfl
      · exact ⟨values, position, failures, successes, inside, attempt⟩

/-- The values of the successes are fewer than the ceiling until it is reached,
so one more attempt keeps within it. -/
theorem length_le_ceiling_of_lt {values : List α} {value : α}
    (room : ∀ limit ∈ repetition.bounds.ceiling, values.length < limit) :
    ∀ limit ∈ repetition.bounds.ceiling, (values ++ [value]).length ≤ limit := by
  intro limit present
  rw [List.length_append]
  exact room limit present

/-- Below the ceiling, not at it, there is room for another attempt. -/
theorem room_of_ne_ceiling {values : List α}
    (within : ∀ limit ∈ repetition.bounds.ceiling, values.length ≤ limit)
    (unfilled : repetition.bounds.ceiling ≠ some values.length) :
    ∀ limit ∈ repetition.bounds.ceiling, values.length < limit := by
  intro limit present
  have distinct : values.length ≠ limit := fun same => unfilled (by rw [same]; exact present)
  exact Nat.lt_of_le_of_ne (within limit present) distinct

/-- Successes lead to a result if every attempt in a region of cursors terminates and every
success stays in the region and makes something smaller. -/
theorem Successes.exists_result_of_decreasing (region : Nat → Prop)
    (left : Nat → Nat → Nat) {values : List α} {position : Nat}
    (total : ∀ index position, region position →
      ∃ outcome, Attempt setting repetition item index position outcome)
    (shrinks : ∀ index position value stop,
      (∀ limit ∈ repetition.bounds.ceiling, index < limit) → region position →
        Attempt setting repetition item index position (.accepted value stop) →
          region stop ∧ left (index + 1) stop < left index position)
    (successes : Successes setting repetition item start values position)
    (inside : region position)
    (within : ∀ limit ∈ repetition.bounds.ceiling, values.length ≤ limit) :
    ∃ result, Result setting repetition item start result := by
  induction remains : left values.length position using Nat.strongRecOn
    generalizing values position with
  | ind remains ih =>
      by_cases full : repetition.bounds.ceiling = some values.length
      · exact ⟨_, .full successes full⟩
      · have room := room_of_ne_ceiling within full
        obtain ⟨⟨value, stop⟩ | failures, attempt⟩ := total values.length position inside
        · obtain ⟨inside', smaller⟩ := shrinks _ _ _ _ room inside attempt
          refine ih _ ?_ (successes.more attempt) inside' (length_le_ceiling_of_lt room) rfl
          rw [List.length_append, List.length_singleton]
          exact remains ▸ smaller
        · by_cases short : values.length < repetition.bounds.floor
          · exact ⟨_, .short successes room attempt short⟩
          · exact ⟨_, .ended successes room attempt (Nat.not_lt.mp short)⟩

/-- The loop with the two rules it attempts, as an application with an allowance
of steps runs it. -/
def loop (setting : Setting N ε Γ) (repetition : Repetition N ε Γ)
    (item : Rule N ε Γ α) (fold : β → α → β) (allowed frame steps count : Nat)
    (acc : β) : Matcher β :=
  .repeatFrom repetition.bounds
    (Rule.apply setting.input allowed item setting.env frame)
    (Rule.apply setting.input allowed (repetition.laterAttempt item) setting.env frame)
    fold steps count acc

theorem apply_foldMany (init : β) (fold : β → α → β) (steps frame : Nat) :
    Rule.apply setting.input (steps + 1) (item.foldMany repetition init fold)
        setting.env frame =
      loop setting repetition item fold (steps + 1) frame (steps + 1) 0 init := rfl

/-- An attempt of the loop is an attempt of the repetition. -/
theorem attempt_of_apply {allowed frame count position : Nat}
    {session after : Session} {outcome : Outcome α}
    (active : session.context = setting.context)
    (applied : (if count = 0 then
        Rule.apply setting.input allowed item setting.env frame
      else Rule.apply setting.input allowed (repetition.laterAttempt item) setting.env
        frame) session position = .ok (outcome, after)) :
    Attempt setting repetition item count position outcome ∧
      after.context = setting.context := by
  cases count with
  | zero =>
      rw [if_pos rfl] at applied
      exact ⟨attempt_zero_iff.mpr (Rule.yields_of_apply active applied),
        (Rule.context_of_apply applied).trans active⟩
  | succ count =>
      rw [if_neg (Nat.succ_ne_zero count)] at applied
      exact ⟨attempt_succ_iff.mpr (Rule.yields_of_apply active applied),
        (Rule.context_of_apply applied).trans active⟩

/-- An attempt of the repetition is one of the loop, once the allowance is large
enough. -/
theorem apply_of_attempt {count position : Nat} {outcome : Outcome α}
    (attempt : Attempt setting repetition item count position outcome) :
    ∃ enough, ∀ allowed, enough ≤ allowed → ∀ (frame : Nat) (session : Session),
      session.context = setting.context →
        ∃ after, (if count = 0 then
            Rule.apply setting.input allowed item setting.env frame
          else Rule.apply setting.input allowed (repetition.laterAttempt item)
            setting.env frame) session position = .ok (outcome, after) ∧
          after.context = setting.context := by
  cases count with
  | zero => exact attempt_zero_iff.mp attempt
  | succ count => exact attempt_succ_iff.mp attempt

/-- The invariant of the loop: if it goes on after the successes so far with
their values folded, it comes to what the repetition should come to. -/
theorem result_of_loop {fold : β → α → β} {init : β} {allowed frame steps : Nat}
    {values : List α} {position : Nat} {session after : Session} {outcome : Outcome β}
    (successes : Successes setting repetition item start values position)
    (within : ∀ limit ∈ repetition.bounds.ceiling, values.length ≤ limit)
    (active : session.context = setting.context)
    (looped : loop setting repetition item fold allowed frame steps values.length
      (values.foldl fold init) session position = .ok (outcome, after)) :
    ∃ result, Result setting repetition item start result ∧
      outcome = result.map (·.foldl fold init) := by
  induction steps generalizing values position session with
  | zero => cases looped
  | succ steps ih =>
      obtain ⟨full, rfl, _⟩ | ⟨unfilled, ended⟩ :=
        Matcher.repeatFrom_succ_eq_ok_iff.mp looped
      · exact ⟨_, .full successes full, rfl⟩
      · have room := room_of_ne_ceiling within unfilled
        obtain ⟨value, stop, between, applied, goesOn⟩ | ⟨failures, applied, rfl⟩ := ended
        · obtain ⟨succeeds, active'⟩ := attempt_of_apply active applied
          refine ih (successes.more succeeds) (length_le_ceiling_of_lt room) active' ?_
          rw [List.length_append, List.foldl_append]
          exact goesOn
        · obtain ⟨fails, _⟩ := attempt_of_apply active applied
          by_cases below : values.length < repetition.bounds.floor
          · rw [if_pos below]
            exact ⟨_, .short successes room fails below, rfl⟩
          · rw [if_neg below]
            exact ⟨_, .ended successes room fails (Nat.not_lt.mp below), rfl⟩

/-- The loop runs through successes: with enough steps it goes on where the last
one stopped, with the values folded. -/
theorem Successes.loop_eq {values : List α} {position : Nat}
    (successes : Successes setting repetition item start values position)
    (within : ∀ limit ∈ repetition.bounds.ceiling, values.length ≤ limit)
    (fold : β → α → β) (init : β) :
    ∃ enough, ∀ allowed, enough ≤ allowed → ∀ (frame : Nat) (session : Session),
      session.context = setting.context →
        ∃ between, between.context = setting.context ∧ ∀ steps,
          loop setting repetition item fold allowed frame (steps + values.length) 0 init
              session start =
            loop setting repetition item fold allowed frame steps values.length
              (values.foldl fold init) between position := by
  induction successes with
  | none => exact ⟨0, fun _ _ _ session active => ⟨session, active, fun _ => rfl⟩⟩
  | @more values position stop value successes succeeds ih =>
      have room (limit : Nat) (present : limit ∈ repetition.bounds.ceiling) :
          values.length < limit := by
        have bound := within limit present
        rwa [List.length_append] at bound
      obtain ⟨enough, run⟩ := ih fun limit present => Nat.le_of_lt (room limit present)
      obtain ⟨enoughLast, runLast⟩ := apply_of_attempt succeeds
      refine ⟨max enough enoughLast, fun allowed large frame session active => ?_⟩
      obtain ⟨between, active', runs⟩ := run allowed (by omega) frame session active
      obtain ⟨after, last, active''⟩ :=
        runLast allowed (by omega) frame between active'
      have unfilled : repetition.bounds.ceiling ≠ some values.length :=
        fun full => absurd (room _ full) (Nat.lt_irrefl _)
      refine ⟨after, active'', fun steps => ?_⟩
      calc loop setting repetition item fold allowed frame
            (steps + (values ++ [value]).length) 0 init session start
          = loop setting repetition item fold allowed frame (steps + 1 + values.length) 0
              init session start := by
            rw [List.length_append, List.length_singleton, Nat.add_right_comm,
              Nat.add_assoc]
        _ = loop setting repetition item fold allowed frame (steps + 1) values.length
              (values.foldl fold init) between position := runs (steps + 1)
        _ = loop setting repetition item fold allowed frame steps (values.length + 1)
              (fold (values.foldl fold init) value) after stop := by
            simp only [loop, Matcher.repeatFrom, if_neg unfilled]
            rw [last]
        _ = loop setting repetition item fold allowed frame steps
              (values ++ [value]).length ((values ++ [value]).foldl fold init) after
              stop := by
            rw [List.length_append, List.foldl_append]
            rfl

/-- A repetition whose loop ends after the successes so far comes to that end. -/
theorem Successes.yields {values : List α} {position : Nat} {fold : β → α → β}
    {init : β} {outcome : Outcome β}
    (successes : Successes setting repetition item start values position)
    (within : ∀ limit ∈ repetition.bounds.ceiling, values.length ≤ limit)
    (ends : ∃ enough, ∀ allowed, enough ≤ allowed → ∀ (frame : Nat) (session : Session),
      session.context = setting.context → ∃ after, ∀ steps,
        loop setting repetition item fold allowed frame (steps + 1) values.length
          (values.foldl fold init) session position = .ok (outcome, after)) :
    (item.foldMany repetition init fold).Yields setting start outcome := by
  obtain ⟨enough, run⟩ := successes.loop_eq within fold init
  obtain ⟨enoughLast, runLast⟩ := ends
  let spare := max enough enoughLast
  obtain ⟨between, active, runs⟩ := run (spare + values.length + 1)
    (by omega) 0 setting.session rfl
  obtain ⟨after, last⟩ := runLast (spare + values.length + 1) (by omega) 0 between active
  refine Rule.yields_iff_apply.mpr ⟨spare + values.length, after, ?_⟩
  rw [apply_foldMany]
  have regrouped : spare + values.length + 1 = spare + 1 + values.length := by omega
  calc loop setting repetition item fold (spare + values.length + 1) 0
        (spare + values.length + 1) 0 init setting.session start
      = loop setting repetition item fold (spare + values.length + 1) 0
          (spare + 1 + values.length) 0 init setting.session start := by
        rw [← regrouped]
    _ = loop setting repetition item fold (spare + values.length + 1) 0 (spare + 1)
          values.length (values.foldl fold init) between position := runs (spare + 1)
    _ = .ok (outcome, after) := last spare

/-- A failing attempt ends the loop: with a rejection below the floor, and else
where the last success stopped. -/
theorem loop_ends_of_fails {count position : Nat} {failures : Failures}
    (fold : β → α → β) (acc : β)
    (unfilled : repetition.bounds.ceiling ≠ some count)
    (fails : Attempt setting repetition item count position (.rejected failures)) :
    ∃ enough, ∀ allowed, enough ≤ allowed → ∀ (frame : Nat) (session : Session),
      session.context = setting.context → ∃ after, ∀ steps,
        loop setting repetition item fold allowed frame (steps + 1) count acc session
          position =
        .ok (if count < repetition.bounds.floor then .rejected failures
          else .accepted acc position, after) := by
  obtain ⟨enough, run⟩ := apply_of_attempt fails
  refine ⟨enough, fun allowed large frame session active => ?_⟩
  obtain ⟨after, applied, _⟩ := run allowed large frame session active
  refine ⟨after, fun steps => ?_⟩
  simp only [loop, Matcher.repeatFrom, if_neg unfilled]
  rw [applied]
  by_cases below : count < repetition.bounds.floor
  · simp only [if_pos below]
  · simp only [if_neg below]

theorem ceiling_ne_of_room {count : Nat}
    (room : ∀ limit ∈ repetition.bounds.ceiling, count < limit) :
    repetition.bounds.ceiling ≠ some count :=
  fun full => absurd (room count full) (Nat.lt_irrefl count)

/-- A repetition comes to exactly what it should come to. -/
theorem yields_foldMany_iff {init : β} {fold : β → α → β} {outcome : Outcome β} :
    (item.foldMany repetition init fold).Yields setting start outcome ↔
      ∃ result, Result setting repetition item start result ∧
        outcome = result.map (·.foldl fold init) := by
  refine ⟨fun yields => ?_, ?_⟩
  · obtain ⟨steps, after, applied⟩ := Rule.yields_iff_apply.mp yields
    rw [apply_foldMany] at applied
    exact result_of_loop .none (fun _ _ => Nat.zero_le _) rfl applied
  · intro holds
    rcases holds with ⟨result, comes, rfl⟩
    cases comes with
    | @full values stop successes ceiling =>
        have within (limit : Nat) (present : limit ∈ repetition.bounds.ceiling) :
            values.length ≤ limit :=
          Nat.le_of_eq (Option.some.inj (ceiling.symm.trans present))
        refine successes.yields within ⟨0, fun _ _ _ session _ => ⟨session, fun steps => ?_⟩⟩
        simp only [loop, Matcher.repeatFrom, if_pos ceiling]
        rfl
    | @short values position failures successes room fails below =>
        have ends := loop_ends_of_fails fold (values.foldl fold init)
          (ceiling_ne_of_room room) fails
        simp only [if_pos below] at ends
        exact successes.yields (fun limit present => Nat.le_of_lt (room limit present)) ends
    | @ended values stop failures successes room fails enough =>
        have ends := loop_ends_of_fails fold (values.foldl fold init)
          (ceiling_ne_of_room room) fails
        simp only [if_neg (Nat.not_lt.mpr enough)] at ends
        exact successes.yields (fun limit present => Nat.le_of_lt (room limit present)) ends

theorem yields_collect_iff {outcome : Outcome (Array α)} :
    (item.collect repetition).Yields setting start outcome ↔
      ∃ result, Result setting repetition item start result ∧
        outcome = result.map List.toArray := by
  have gathers : (fun values : List α => values.foldl Array.push #[]) = List.toArray := by
    funext values
    simp
  rw [Rule.collect, yields_foldMany_iff, gathers]

/-- Where any number of matches will do, the values are those of the successes before the
first attempt to fail. -/
theorem yields_collect_any_accepted_iff (any : repetition.bounds = .any) {values : Array α}
    {stop : Nat} :
    (item.collect repetition).Yields setting start (.accepted values stop) ↔
      Successes setting repetition item start values.toList stop ∧
        ∃ failures, Attempt setting repetition item values.size stop (.rejected failures) := by
  rw [yields_collect_iff]
  constructor
  · rintro ⟨result, comes, same⟩
    cases comes with
    | full _ ceiling =>
        rw [any] at ceiling
        cases ceiling
    | short => cases same
    | ended successes _ fails _ =>
        cases same
        exact ⟨successes, _, fails⟩
  · rintro ⟨successes, failures, fails⟩
    have room : ∀ limit ∈ repetition.bounds.ceiling, values.toList.length < limit := by
      rw [any]
      rintro limit ⟨⟩
    have enough : repetition.bounds.floor ≤ values.toList.length := by
      rw [any]
      exact Nat.zero_le _
    exact ⟨_, .ended successes room fails enough, rfl⟩

end Repetition

namespace Rule

variable {N : Nonterminals} {ε : Type} {Γ : List Type} {α : Type}

end Rule

end Rulebook
