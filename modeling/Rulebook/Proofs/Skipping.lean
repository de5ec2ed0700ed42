/-
# Two ways to skip

Elements can be skipped by looking at one after the other until one is to be kept, or by
repeating the rule that reads one element to be skipped. The first way never fails. The
second one ends with a failure, be it because the element is to be kept or because there is
none, and the repetition turns this failure into success.

Both end at the first position from the cursor on where nothing is skipped, which is the
cursor itself if that is behind the source. Started there again, neither of them moves.
-/

import Mathlib.Order.Bounds.Basic
import Rulebook.Proofs.Elements
import Rulebook.Proofs.Repetition

namespace Rulebook

variable {N : Nonterminals} {ε : Type} {Γ : List Type}

/-- Nothing is skipped at the position: the source has ended there, or its element is to be
kept. -/
def NothingSkipped (source : Array ε) (skips : ε → Bool) (position : Nat) : Prop :=
  source.size ≤ position ∨ ∃ element, source[position]? = some element ∧ skips element = false

/-- The first position from `start` on where nothing is skipped. -/
def FirstKept (source : Array ε) (skips : ε → Bool) (start stop : Nat) : Prop :=
  IsLeast {position | start ≤ position ∧ NothingSkipped source skips position} stop

section Source

variable {source : Array ε} {skips : ε → Bool} {start position stop : Nat}

/-- Nothing is skipped, unless there is an element to be skipped. -/
theorem not_nothingSkipped_iff :
    ¬ NothingSkipped source skips position ↔
      ∃ element, source[position]? = some element ∧ skips element = true := by
  unfold NothingSkipped
  rcases Nat.lt_or_ge position source.size with inside | behind
  · simp [inside]
  · simp [behind]

theorem firstKept_self (kept : NothingSkipped source skips start) :
    FirstKept source skips start start :=
  ⟨⟨Nat.le_refl start, kept⟩, fun _ later => later.1⟩

/-- Skipping ends where nothing is skipped if everything in front of that is. -/
theorem firstKept_of_skipped (forward : start ≤ stop) (kept : NothingSkipped source skips stop)
    (skipped : ∀ position, start ≤ position → position < stop →
      ¬ NothingSkipped source skips position) :
    FirstKept source skips start stop := by
  refine ⟨⟨forward, kept⟩, fun position later => ?_⟩
  by_contra earlier
  exact skipped position later.1 (Nat.not_le.mp earlier) later.2

/-- A scan goes on over an element to be skipped, and ends anywhere else. -/
theorem Leaf.firstKept_of_scan (scanned : scan source skips start = .ok stop) :
    FirstKept source skips start stop := by
  fun_induction scan source skips start with
  | case1 start inside skipped representable ih =>
      obtain ⟨⟨forward, kept⟩, least⟩ := ih scanned
      have goesOn : ¬ NothingSkipped source skips start :=
        not_nothingSkipped_iff.mpr ⟨_, Array.getElem?_eq_getElem inside, skipped⟩
      refine ⟨⟨Nat.le_of_succ_le forward, kept⟩, fun position later => ?_⟩
      have further : start ≠ position := by
        rintro rfl
        exact goesOn later.2
      exact least ⟨Nat.lt_of_le_of_ne later.1 further, later.2⟩
  | case2 => cases scanned
  | case3 start inside kept =>
      cases scanned
      exact firstKept_self
        (.inr ⟨_, Array.getElem?_eq_getElem inside, Bool.eq_false_iff.mpr kept⟩)
  | case4 start behind =>
      cases scanned
      exact firstKept_self (.inl (Nat.not_lt.mp behind))

end Source

namespace Rule

variable {setting : Setting N ε Γ} {skips : ε → Bool} {start position stop : Nat}

/-- Skipping by a scan accepts at the first position where nothing is skipped. -/
theorem yields_skipWhile_iff (fits : setting.size ≤ lastPosition)
    (first : FirstKept setting.input.source skips start stop) {outcome : Outcome Unit} :
    (skipWhile skips : Rule N ε Γ Unit).Yields setting start outcome ↔
      outcome = .accepted () stop := by
  obtain ⟨reach, scanned⟩ := Leaf.exists_scan fits skips start
  obtain rfl : reach = stop := (Leaf.firstKept_of_scan scanned).unique first
  rw [skipWhile, yields_leaf_iff, Leaf.apply, scanned]
  simp [Except.map, eq_comm]

/-- An element is read by a condition if there is one that meets it. -/
theorem yields_nextIf_accepted_iff (fits : setting.size ≤ lastPosition) {element : ε} :
    (nextIf skips).Yields setting position (.accepted element stop) ↔
      setting.input.source[position]? = some element ∧ skips element = true ∧
        stop = position + 1 := by
  rw [nextIf, yields_nextAs_accepted_iff fits]
  refine ⟨fun holds => ?_, fun holds => ?_⟩
  · obtain ⟨found, present, judged, reaches⟩ := holds
    split at judged <;> cases judged
    next met => exact ⟨present, met, reaches⟩
  · obtain ⟨present, met, reaches⟩ := holds
    exact ⟨element, present, if_pos met, reaches⟩

/-- The condition fails exactly where nothing is skipped. -/
theorem rejects_nextIf_iff (fits : setting.size ≤ lastPosition) :
    (nextIf skips).Rejects setting position ↔
      NothingSkipped setting.input.source skips position := by
  have terminates : (nextIf skips : Rule N ε Γ ε).Terminates setting position :=
    nextAs_terminates fits _
  rw [terminates.rejects_iff, ← not_iff_not, not_nothingSkipped_iff]
  simp only [not_forall, not_not]
  refine ⟨fun holds => ?_, fun holds => ?_⟩
  · obtain ⟨element, stop, accepts⟩ := holds
    obtain ⟨present, met, _⟩ := (yields_nextIf_accepted_iff fits).mp accepts
    exact ⟨element, present, met⟩
  · obtain ⟨element, present, met⟩ := holds
    exact ⟨element, position + 1,
      (yields_nextIf_accepted_iff fits).mpr ⟨present, met, rfl⟩⟩

end Rule

namespace Repetition

variable {setting : Setting N ε Γ} {α : Type} {item : Rule N ε Γ α} {skips : ε → Bool}
  {start index position stop : Nat}

/-- Without a separator every attempt is the item alone. -/
theorem attempt_any_iff {outcome : Outcome α} :
    Attempt setting .any item index position outcome ↔ item.Yields setting position outcome := by
  refine ⟨fun attempt => ?_, .plain (.inr rfl)⟩
  cases attempt with
  | plain _ attempted => exact attempted
  | separated _ required => cases required
  | unseparated _ required => cases required

/-- Over the successes of a condition there is nothing but elements to be skipped. -/
theorem Successes.skipped (fits : setting.size ≤ lastPosition) {values : List ε}
    (successes : Successes setting .any (.nextIf skips) start values stop) :
    start ≤ stop ∧ ∀ position, start ≤ position → position < stop →
      ¬ NothingSkipped setting.input.source skips position := by
  induction successes with
  | none => exact ⟨Nat.le_refl start, fun position later before => by omega⟩
  | @more values middle stop value successes succeeds ih =>
      obtain ⟨forward, skipped⟩ := ih
      obtain ⟨present, met, rfl⟩ :=
        (Rule.yields_nextIf_accepted_iff fits).mp (attempt_any_iff.mp succeeds)
      refine ⟨Nat.le_succ_of_le forward, fun position later before => ?_⟩
      rcases Nat.lt_succ_iff_lt_or_eq.mp before with earlier | rfl
      · exact skipped position later earlier
      · exact not_nothingSkipped_iff.mpr ⟨value, present, met⟩

/-- A condition is met again and again until it is met no more. -/
theorem exists_successes_rejects (fits : setting.size ≤ lastPosition) (skips : ε → Bool)
    (start : Nat) :
    ∃ values stop failures, Successes setting .any (.nextIf skips) start values stop ∧
      Attempt setting .any (.nextIf skips) values.length stop (.rejected failures) := by
  let bound := max start setting.size
  have total (index position : Nat) (_ : position ≤ bound) :
      ∃ outcome, Attempt setting .any (.nextIf skips) index position outcome := by
    obtain ⟨outcome, yields⟩ := Rule.nextAs_terminates fits _
    exact ⟨outcome, attempt_any_iff.mpr yields⟩
  have progress (index position : Nat) (value : ε) (stop : Nat) (_ : position ≤ bound)
      (attempt : Attempt setting .any (.nextIf skips) index position (.accepted value stop)) :
      position < stop ∧ stop ≤ bound := by
    obtain ⟨present, _, rfl⟩ :=
      (Rule.yields_nextIf_accepted_iff fits).mp (attempt_any_iff.mp attempt)
    obtain ⟨inside, _⟩ := Array.getElem?_eq_some_iff.mp present
    exact ⟨Nat.lt_succ_self position, Nat.le_trans inside (Nat.le_max_right _ _)⟩
  obtain ⟨values, stop, failures, successes, _, fails⟩ :=
    Successes.none.exists_fails total progress (Nat.le_max_left _ _)
  exact ⟨values, stop, failures, successes, fails⟩

/-- Skipping by a repetition accepts at the first position where nothing is skipped. -/
theorem yields_skipMany_nextIf_iff (fits : setting.size ≤ lastPosition)
    (first : FirstKept setting.input.source skips start stop) {outcome : Outcome Unit} :
    ((Rule.nextIf skips).skipMany .any).Yields setting start outcome ↔
      outcome = .accepted () stop := by
  obtain ⟨values, reach, failures, successes, fails⟩ :=
    exists_successes_rejects fits skips start
  have kept : NothingSkipped setting.input.source skips reach :=
    (Rule.rejects_nextIf_iff fits).mp ⟨failures, attempt_any_iff.mp fails⟩
  obtain ⟨forward, skipped⟩ := successes.skipped fits
  obtain rfl : reach = stop := (firstKept_of_skipped forward kept skipped).unique first
  have room : ∀ limit ∈ (any : Repetition N ε Γ).bounds.ceiling, values.length < limit := by
    rintro limit ⟨⟩
  have accepts : ((Rule.nextIf skips).skipMany .any).Yields setting start
      (.accepted () reach) :=
    yields_foldMany_iff.mpr ⟨_, .ended successes room fails (Nat.zero_le _), rfl⟩
  exact ⟨fun yields => yields.unique accepts, fun same => same ▸ accepts⟩

end Repetition

namespace Rule

/-- Scanning over the elements to be skipped and repeating the rule for one of them terminate
everywhere and accept at the same position: the first one from the cursor on where nothing is
skipped, hence the cursor if that is behind the source. Applied there again, neither
moves. -/
theorem skipping_agrees_with_repetition (setting : Setting N ε Γ)
    (fits : setting.size ≤ lastPosition) (skips : ε → Bool) (start : Nat) :
    ∃ stop, FirstKept setting.input.source skips start stop ∧
      (setting.size ≤ start → stop = start) ∧
      (∀ outcome, (skipWhile skips : Rule N ε Γ Unit).Yields setting start outcome ↔
        outcome = .accepted () stop) ∧
      (∀ outcome, ((nextIf skips).skipMany .any : Rule N ε Γ Unit).Yields setting start
        outcome ↔ outcome = .accepted () stop) ∧
      (∀ outcome, (skipWhile skips : Rule N ε Γ Unit).Yields setting stop outcome ↔
        outcome = .accepted () stop) ∧
      ∀ outcome, ((nextIf skips).skipMany .any : Rule N ε Γ Unit).Yields setting stop
        outcome ↔ outcome = .accepted () stop := by
  obtain ⟨stop, scanned⟩ := Leaf.exists_scan fits skips start
  have first : FirstKept setting.input.source skips start stop :=
    Leaf.firstKept_of_scan scanned
  have again : FirstKept setting.input.source skips stop stop := firstKept_self first.1.2
  refine ⟨stop, first, fun behind => ?_, fun _ => yields_skipWhile_iff fits first,
    fun _ => Repetition.yields_skipMany_nextIf_iff fits first,
    fun _ => yields_skipWhile_iff fits again,
    fun _ => Repetition.yields_skipMany_nextIf_iff fits again⟩
  exact first.unique (firstKept_self (.inl behind))

/-- Two blanks are skipped in front of a letter, and none behind the text, be it as far
behind as can be. -/
theorem blanks_skipped_either_way :
    let setting : Setting .none Grapheme [] := ⟨⟨#[" ", "\t", "x", " "], .empty, .off⟩, .nil, ∅⟩
    let skips : Grapheme → Bool := Lexer.spaces.contains
    setting.size ≤ lastPosition ∧
      FirstKept setting.input.source skips 0 2 ∧
      (skipWhile skips).Yields setting 0 (.accepted () 2) ∧
      ((nextIf skips).skipMany .any).Yields setting 0 (.accepted () 2) ∧
      (skipWhile skips).Yields setting lastPosition (.accepted () lastPosition) ∧
      ((nextIf skips).skipMany .any).Yields setting lastPosition
        (.accepted () lastPosition) := by
  intro setting skips
  have fits : setting.size ≤ lastPosition := by decide
  have two : FirstKept setting.input.source skips 0 2 := by
    refine firstKept_of_skipped (by decide) (.inr ⟨"x", rfl, rfl⟩) fun position _ before => ?_
    rw [not_nothingSkipped_iff]
    match position, before with
    | 0, _ => exact ⟨" ", rfl, rfl⟩
    | 1, _ => exact ⟨"\t", rfl, rfl⟩
  obtain ⟨stop, first, _, scans, repeats, _⟩ :=
    skipping_agrees_with_repetition setting fits skips 0
  obtain ⟨_, _, behind, scansBehind, repeatsBehind, _⟩ :=
    skipping_agrees_with_repetition setting fits skips lastPosition
  obtain rfl : stop = 2 := first.unique two
  obtain rfl := behind (by decide)
  exact ⟨fits, two, (scans _).mpr rfl, (repeats _).mpr rfl, (scansBehind _).mpr rfl,
    (repeatsBehind _).mpr rfl⟩

end Rule

end Rulebook
