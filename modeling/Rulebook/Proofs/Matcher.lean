/-
# How combined matchers end

For every way to combine matchers, this module says when the combination has
an outcome and which one. Mapping, slicing, spans and the check for progress
only look at an acceptance again, so they are one combination with a
parameter; a sequence of two matchers is a continuation that maps. What later
modules prove about matchers goes through these statements and does not open
the combinations again.
-/

import Rulebook.Matcher

namespace Rulebook

namespace Outcome

variable {α β : Type}

/-- Look at an acceptance again. Rejections stay. -/
def revise (judge : α → Nat → Outcome β) : Outcome α → Outcome β
  | .accepted value stop => judge value stop
  | .rejected failures => .rejected failures

@[simp]
theorem revise_accepted (judge : α → Nat → Outcome β) (value : α) (stop : Nat) :
    (accepted value stop).revise judge = judge value stop := rfl

@[simp]
theorem revise_rejected (judge : α → Nat → Outcome β) (failures : Failures) :
    (rejected failures).revise judge = .rejected failures := rfl

/-- To map a value is to look at an acceptance again. -/
theorem revise_eq_map (f : α → β) (outcome : Outcome α) :
    outcome.revise (fun value stop => .accepted (f value) stop) = outcome.map f := by
  cases outcome <;> rfl

end Outcome

namespace Matcher

variable {ε α β γ : Type} {matcher other : Matcher α} {session after : Session}
  {position : Nat}

/-- Look at every acceptance again, knowing where it started. -/
def revised (judge : Nat → α → Nat → Outcome β) (matcher : Matcher α) :
    Matcher β :=
  fun session position => do
    let (outcome, session) ← matcher session position
    return (outcome.revise (judge position), session)

/-- What the check for progress makes of an acceptance. -/
def judgeNonEmpty (position : Nat) (value : α) (stop : Nat) : Outcome α :=
  if stop ≤ position then
    .reject "rule succeeded but consumed no input" position
  else .accepted value stop

/-- What a slice makes of an acceptance. -/
def judgeSlice (source : Array ε) (position : Nat) (_ : α) (stop : Nat) :
    Outcome (Array ε) :=
  match span? source position stop with
  | some elements => .accepted elements stop
  | none => .reject (outOfRange source.size stop) position

theorem map_eq_revised (f : α → β) (matcher : Matcher α) :
    matcher.map f = matcher.revised fun _ value stop => .accepted (f value) stop := by
  funext session position
  simp only [map, revised]
  cases matcher session position with
  | error cause => rfl
  | ok reached => obtain ⟨_ | _, _⟩ := reached <;> rfl

theorem nonEmpty_eq_revised (matcher : Matcher α) :
    matcher.nonEmpty = matcher.revised judgeNonEmpty := by
  funext session position
  simp only [nonEmpty, revised]
  cases matcher session position with
  | error cause => rfl
  | ok reached =>
      obtain ⟨⟨value, stop⟩ | failures, after⟩ := reached
      · simp only [bind, Except.bind, Outcome.revise_accepted, judgeNonEmpty]
        split <;> rfl
      · rfl

theorem slice_eq_revised (source : Array ε) (matcher : Matcher α) :
    matcher.slice source = matcher.revised (judgeSlice source) := by
  funext session position
  simp only [slice, revised]
  cases matcher session position with
  | error cause => rfl
  | ok reached =>
      obtain ⟨⟨value, stop⟩ | failures, after⟩ := reached
      · simp only [bind, Except.bind, Outcome.revise_accepted, judgeSlice]
        cases span? source position stop <;> rfl
      · rfl

theorem spanned_eq_revised (matcher : Matcher α) :
    matcher.spanned =
      matcher.revised fun position value stop =>
        .accepted ⟨value, position, stop⟩ stop := by
  funext session position
  simp only [spanned, revised]
  cases matcher session position with
  | error cause => rfl
  | ok reached => obtain ⟨_ | _, _⟩ := reached <;> rfl

/-- A sequence is a continuation that maps. -/
theorem thenWith_eq_flatMap (combine : α → β → γ) (matcher : Matcher α)
    (next : Matcher β) :
    matcher.thenWith combine next =
      matcher.flatMap fun value => next.map (combine value) := by
  funext session position
  rfl

/-- A computation that goes on from another one is fine if both are. -/
theorem bind_eq_ok_iff {first : Except Halt α} {next : α → Except Halt β} {result : β} :
    (first >>= next) = .ok result ↔
      ∃ value, first = .ok value ∧ next value = .ok result := by
  cases first with
  | error cause => simp [bind, Except.bind]
  | ok value => simp [bind, Except.bind]

theorem leaf_eq_ok_iff {source : Array ε} {part : Leaf ε α} {outcome : Outcome α} :
    leaf source part session position = .ok (outcome, after) ↔
      part.apply source session.context position = .ok outcome ∧ after = session := by
  simp only [leaf, bind_eq_ok_iff, pure, Except.pure, Except.ok.injEq, Prod.mk.injEq]
  refine ⟨fun holds => ?_, fun holds => ?_⟩
  · rcases holds with ⟨_, applied, rfl, rfl⟩
    exact ⟨applied, rfl⟩
  · rcases holds with ⟨applied, rfl⟩
    exact ⟨outcome, applied, rfl, rfl⟩

theorem unfinished_eq_ok_iff {size : Nat} {outcome : Outcome α} :
    matcher.unfinished size session position = .ok (outcome, after) ↔
      (position < size ∧ matcher session position = .ok (outcome, after)) ∨
        (size ≤ position ∧ outcome = .reject (outOfRange size position) position ∧
          after = session) := by
  unfold unfinished
  by_cases inside : position < size
  · simp [inside, Nat.not_le.mpr inside]
  · simp [inside, Nat.not_lt.mp inside, eq_comm]

theorem revised_eq_ok_iff {judge : Nat → α → Nat → Outcome β} {outcome : Outcome β} :
    matcher.revised judge session position = .ok (outcome, after) ↔
      ∃ found, matcher session position = .ok (found, after) ∧
        outcome = found.revise (judge position) := by
  simp only [revised, bind_eq_ok_iff, Prod.exists, pure, Except.pure, Except.ok.injEq,
    Prod.mk.injEq]
  refine ⟨fun holds => ?_, fun holds => ?_⟩
  · rcases holds with ⟨found, _, applied, rfl, rfl⟩
    exact ⟨found, applied, rfl⟩
  · rcases holds with ⟨found, applied, rfl⟩
    exact ⟨found, after, applied, rfl, rfl⟩

theorem flatMap_eq_ok_iff {next : α → Matcher β} {outcome : Outcome β} :
    matcher.flatMap next session position = .ok (outcome, after) ↔
      (∃ value stop between,
        matcher session position = .ok (.accepted value stop, between) ∧
          next value between stop = .ok (outcome, after)) ∨
      ∃ failures, matcher session position = .ok (.rejected failures, after) ∧
        outcome = .rejected failures := by
  simp only [flatMap, bind_eq_ok_iff, Prod.exists]
  refine ⟨fun holds => ?_, fun holds => ?_⟩
  · rcases holds with ⟨⟨value, stop⟩ | ⟨failures⟩, between, applied, continued⟩
    · exact .inl ⟨_, _, _, applied, continued⟩
    · simp only [pure, Except.pure, Except.ok.injEq, Prod.mk.injEq] at continued
      obtain ⟨rfl, rfl⟩ := continued
      exact .inr ⟨_, applied, rfl⟩
  · rcases holds with ⟨value, stop, between, applied, continued⟩ | ⟨failures, applied, rfl⟩
    · exact ⟨_, _, applied, continued⟩
    · exact ⟨_, _, applied, rfl⟩

theorem path_eq_ok_iff {label : String} {outcome : Outcome α} :
    matcher.path label session position = .ok (outcome, after) ↔
      ∃ found inner,
        matcher (session.enter label).2 position = .ok (found, inner) ∧
          outcome = found.withPath label ∧
          after = inner.release (session.enter label).1 := by
  simp only [path, bind_eq_ok_iff, Prod.exists, pure, Except.pure, Except.ok.injEq,
    Prod.mk.injEq]
  refine ⟨fun holds => ?_, fun holds => ?_⟩
  · rcases holds with ⟨found, inner, applied, rfl, rfl⟩
    exact ⟨found, inner, applied, rfl, rfl⟩
  · rcases holds with ⟨found, inner, applied, rfl, rfl⟩
    exact ⟨found, inner, applied, rfl, rfl⟩

theorem traced_eq_ok_iff {verbosity : Verbosity} {label : String}
    {outcome : Outcome α} :
    matcher.traced verbosity label session position = .ok (outcome, after) ↔
      ∃ inner,
        matcher ((session.enter label).2.record verbosity
            (.trying (session.enter label).2.context.path position)) position =
          .ok (outcome, inner) ∧
          after = (inner.record verbosity (closing label position outcome)).release
            (session.enter label).1 := by
  simp only [traced, bind_eq_ok_iff, Prod.exists, pure, Except.pure, Except.ok.injEq,
    Prod.mk.injEq]
  refine ⟨fun holds => ?_, fun holds => ?_⟩
  · rcases holds with ⟨_, inner, applied, rfl, rfl⟩
    exact ⟨inner, applied, rfl⟩
  · rcases holds with ⟨inner, applied, rfl⟩
    exact ⟨outcome, inner, applied, rfl, rfl⟩

theorem orElse_eq_ok_iff {outcome : Outcome α} :
    matcher.orElse other session position = .ok (outcome, after) ↔
      ∃ kept between candidate,
        matcher session position = .ok (kept, between) ∧
          other between position = .ok (candidate, after) ∧
          outcome = kept.best candidate := by
  simp only [orElse, bind_eq_ok_iff, Prod.exists, pure, Except.pure, Except.ok.injEq,
    Prod.mk.injEq]
  refine ⟨fun holds => ?_, fun holds => ?_⟩
  · rcases holds with ⟨kept, between, first, candidate, _, second, rfl, rfl⟩
    exact ⟨kept, between, candidate, first, second, rfl⟩
  · rcases holds with ⟨kept, between, candidate, first, second, rfl⟩
    exact ⟨kept, between, first, candidate, after, second, rfl, rfl⟩

/-- A round of a repetition: at the ceiling it is over, and otherwise what the
attempt comes to decides whether it goes on. -/
theorem repeatFrom_succ_eq_ok_iff {bounds : Bounds} {item next : Matcher α}
    {fold : β → α → β} {steps count : Nat} {acc : β} {outcome : Outcome β} :
    repeatFrom bounds item next fold (steps + 1) count acc session position =
        .ok (outcome, after) ↔
      (bounds.ceiling = some count ∧ outcome = .accepted acc position ∧ after = session) ∨
      bounds.ceiling ≠ some count ∧
        ((∃ value stop between,
          (if count = 0 then item else next) session position =
              .ok (.accepted value stop, between) ∧
            repeatFrom bounds item next fold steps (count + 1) (fold acc value) between stop =
              .ok (outcome, after)) ∨
        ∃ failures,
          (if count = 0 then item else next) session position =
              .ok (.rejected failures, after) ∧
            outcome = if count < bounds.floor then .rejected failures
              else .accepted acc position) := by
  by_cases full : bounds.ceiling = some count
  · simp [repeatFrom, full, eq_comm]
  · simp only [repeatFrom, full, if_false, false_and, false_or, ne_eq, not_false_eq_true,
      true_and]
    cases (if count = 0 then item else next) session position with
    | error cause => simp
    | ok reached =>
        obtain ⟨⟨value, stop⟩ | failures, between⟩ := reached
        · refine ⟨fun goesOn => .inl ⟨value, stop, between, rfl, goesOn⟩, ?_⟩
          intro holds
          rcases holds with ⟨_, _, _, ⟨⟩, goesOn⟩ | ⟨_, ⟨⟩, _⟩
          exact goesOn
        · by_cases below : count < bounds.floor
          · simp only [below, if_true]
            refine ⟨fun ended => .inr ⟨failures, ?_⟩, ?_⟩
            · cases ended
              exact ⟨rfl, rfl⟩
            · intro holds
              rcases holds with ⟨_, _, _, ⟨⟩, _⟩ | ⟨_, ⟨⟩, rfl⟩
              rfl
          · simp only [below, if_false]
            refine ⟨fun ended => .inr ⟨failures, ?_⟩, ?_⟩
            · cases ended
              exact ⟨rfl, rfl⟩
            · intro holds
              rcases holds with ⟨_, _, _, ⟨⟩, _⟩ | ⟨_, ⟨⟩, rfl⟩
              rfl

end Matcher

end Rulebook
