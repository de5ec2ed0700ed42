/-
# Deferred rules are built once

That the rule in a cell is kept after its first use is not to be seen in any outcome. An
evaluation that builds the rule at every use comes to the same outcomes, whatever has been
applied before. What keeping saves is the building: of all uses of a cell, in however many
runs, only the first one finds the cell empty and fills it.

The cells grow with the runs, and the rules built in them have cells of their own. But a run
that is repeated applies the same rules in the same order. Where no frames are opened on the
way, it finds every cell filled that it used the first time, so nothing is built.
-/

import Rulebook.Proofs.Yields
import Rulebook.Proofs.Uses

namespace Rulebook

/-- The same use, when the rule is built already. -/
def Use.again (use : Use) : Use :=
  { use with built := false }

/-! ## What uses do to the cells -/

namespace Cells

/-- What stands in a cell before stands in it after. -/
def Keeps (before after : Cells) : Prop :=
  ∀ ⦃cell : Cell⦄ ⦃frame : Nat⦄,
    before.find? cell = some frame → after.find? cell = some frame

/-- The uses lead from the cells before to the cells after. Other frames are opened between
them only if that is allowed. -/
inductive LedBy (allowed : Prop) : Cells → List Use → Cells → Prop
  | start {cells : Cells} : LedBy allowed cells [] cells
  | opened {cells after : Cells} {uses : List Use} (allows : allowed)
      (rest : LedBy allowed cells.openFrame.2 uses after) : LedBy allowed cells uses after
  | found {cells after : Cells} {cell : Cell} {frame : Nat} {uses : List Use}
      (filled : cells.find? cell = some frame) (rest : LedBy allowed cells uses after) :
      LedBy allowed cells (⟨cell, false⟩ :: uses) after
  | built {cells after : Cells} {cell : Cell} {uses : List Use}
      (empty : cells.find? cell = none) (rest : LedBy allowed (cells.fill cell).2 uses after) :
      LedBy allowed cells (⟨cell, true⟩ :: uses) after

/-- The frames that were opened are those of the rules that were built, and no others. -/
def OnlyBuilt (before : Cells) (uses : List Use) (after : Cells) : Prop :=
  after.frames = before.frames + uses.countP (·.built)

/-- Every rule that was built has a frame of its own, so the deferred rules in it have cells
that no other rule has. The frame of a delayed rule stays empty. -/
structure Apart (cells : Cells) : Prop where
  outermost : 0 < cells.frames
  opened {cell : Cell} {frame : Nat} (found : cells.find? cell = some frame) :
    0 < frame ∧ frame < cells.frames
  alone {cell other : Cell} {frame : Nat} (found : cells.find? cell = some frame)
    (found' : cells.find? other = some frame) : cell = other

variable {allowed : Prop} {before between after : Cells} {uses more : List Use}

@[simp]
theorem frames_initial : initial.frames = 1 := rfl

@[simp]
theorem frames_openFrame (cells : Cells) : cells.openFrame.2.frames = cells.frames + 1 := rfl

@[simp]
theorem frames_fill (cells : Cells) (cell : Cell) :
    (cells.fill cell).2.frames = cells.frames + 1 := rfl

@[simp]
theorem builds_fill (cells : Cells) (cell : Cell) :
    (cells.fill cell).2.builds = cells.builds + 1 := rfl

theorem Keeps.trans (keeps : before.Keeps between) (keeps' : between.Keeps after) :
    before.Keeps after :=
  fun _ _ found => keeps' (keeps found)

theorem ne_of_filled_of_empty {cells : Cells} {cell other : Cell} {frame : Nat}
    (filled : cells.find? cell = some frame) (empty : cells.find? other = none) :
    cell ≠ other := by
  rintro rfl
  rw [filled] at empty
  cases empty

/-- An empty cell is filled, and no other one changes. -/
theorem keeps_fill {cells : Cells} {cell : Cell} (empty : cells.find? cell = none) :
    cells.Keeps (cells.fill cell).2 := by
  intro other frame found
  rw [find?_fill, if_neg (ne_of_filled_of_empty found empty).symm, found]

theorem apart_initial : initial.Apart where
  outermost := Nat.one_pos
  opened found := by simp at found
  alone found := by simp at found

theorem Apart.openFrame (apart : before.Apart) : before.openFrame.2.Apart where
  outermost := Nat.succ_pos before.frames
  opened found := ⟨(apart.opened found).1, Nat.lt_succ_of_lt (apart.opened found).2⟩
  alone found found' := apart.alone found found'

/-- The new rule gets the next frame, which no cell can hold yet. -/
theorem Apart.fill (apart : before.Apart) (cell : Cell) : (before.fill cell).2.Apart where
  outermost := Nat.succ_pos before.frames
  opened {other frame} found := by
    rw [find?_fill] at found
    split at found
    · cases found
      exact ⟨apart.outermost, Nat.lt_succ_self before.frames⟩
    · exact ⟨(apart.opened found).1, Nat.lt_succ_of_lt (apart.opened found).2⟩
  alone {other another frame} found found' := by
    have unused {place : Cell} : before.find? place ≠ some before.frames :=
      fun held => Nat.lt_irrefl _ (apart.opened held).2
    rw [find?_fill] at found found'
    split at found <;> split at found'
    case isTrue.isTrue same same' => rw [← same, same']
    case isTrue.isFalse =>
      cases found
      exact absurd found' unused
    case isFalse.isTrue =>
      cases found'
      exact absurd found unused
    case isFalse.isFalse => exact apart.alone found found'

theorem LedBy.append (first : before.LedBy allowed uses between)
    (second : between.LedBy allowed more after) :
    before.LedBy allowed (uses ++ more) after := by
  induction first with
  | start => exact second
  | opened allows _ ih => exact .opened allows (ih second)
  | found filled _ ih => exact .found filled (ih second)
  | built empty _ ih => exact .built empty (ih second)

theorem LedBy.keeps (led : before.LedBy allowed uses after) : before.Keeps after := by
  induction led with
  | start => exact fun _ _ found => found
  | opened _ _ ih => exact fun _ _ found => ih found
  | found _ _ ih => exact ih
  | built empty _ ih => exact (keeps_fill empty).trans ih

theorem LedBy.apart (led : before.LedBy allowed uses after) (apart : before.Apart) :
    after.Apart := by
  induction led with
  | start => exact apart
  | opened _ _ ih => exact ih apart.openFrame
  | found _ _ ih => exact ih apart
  | @built cells _ cell _ _ _ ih => exact ih (apart.fill cell)

/-- Every use for which a rule is built is counted. -/
theorem LedBy.builds_eq (led : before.LedBy allowed uses after) :
    after.builds = before.builds + uses.countP (·.built) := by
  induction led with
  | start => rfl
  | opened _ _ ih => exact ih
  | found _ _ ih => rw [ih, List.countP_cons_of_neg (by simp)]
  | built _ _ ih =>
      rw [ih, builds_fill, List.countP_cons_of_pos rfl]
      omega

theorem LedBy.frames_le (led : before.LedBy allowed uses after) :
    before.frames + uses.countP (·.built) ≤ after.frames := by
  induction led with
  | start => exact Nat.le_refl _
  | opened _ _ ih =>
      rw [frames_openFrame] at ih
      omega
  | found _ _ ih =>
      rw [List.countP_cons_of_neg (by simp)]
      exact ih
  | built _ _ ih =>
      rw [frames_fill] at ih
      rw [List.countP_cons_of_pos rfl]
      omega

theorem LedBy.onlyBuilt (led : before.LedBy False uses after) :
    before.OnlyBuilt uses after := by
  unfold OnlyBuilt
  induction led with
  | start => rfl
  | opened allows _ _ => exact allows.elim
  | found _ _ ih => rw [ih, List.countP_cons_of_neg (by simp)]
  | built _ _ ih =>
      rw [ih, frames_fill, List.countP_cons_of_pos rfl]
      omega

theorem LedBy.onlyBuilt_append (led : before.LedBy allowed uses between)
    (led' : between.LedBy allowed more after) (only : before.OnlyBuilt (uses ++ more) after) :
    before.OnlyBuilt uses between ∧ between.OnlyBuilt more after := by
  have enough := led.frames_le
  have enough' := led'.frames_le
  unfold OnlyBuilt at only ⊢
  rw [List.countP_append] at only
  omega

/-- A cell is empty as long as it has not been used. -/
theorem LedBy.find?_eq_none_iff (led : before.LedBy allowed uses after) (cell : Cell) :
    after.find? cell = none ↔ before.find? cell = none ∧ ∀ use ∈ uses, use.cell ≠ cell := by
  induction led with
  | start => simp
  | opened _ _ ih => exact ih
  | @found cells _ used frame _ filled _ ih =>
      rw [ih, List.forall_mem_cons]
      exact and_congr_right fun empty =>
        (and_iff_right (ne_of_filled_of_empty filled empty)).symm
  | @built cells _ used _ _ _ ih =>
      rw [ih, List.forall_mem_cons, find?_fill]
      by_cases same : used = cell
      · simp [same]
      · simp [same]

theorem LedBy.exists_between {earlier later : List Use}
    (led : before.LedBy allowed (earlier ++ later) after) :
    ∃ between, before.LedBy allowed earlier between ∧ between.LedBy allowed later after := by
  generalize joined : earlier ++ later = uses at led
  induction led generalizing earlier with
  | start =>
      obtain ⟨rfl, rfl⟩ := List.append_eq_nil_iff.mp joined
      exact ⟨_, .start, .start⟩
  | opened allows _ ih =>
      obtain ⟨between, led, led'⟩ := ih joined
      exact ⟨between, .opened allows led, led'⟩
  | found filled rest ih =>
      cases earlier with
      | nil =>
          cases joined
          exact ⟨_, .start, .found filled rest⟩
      | cons first earlier =>
          cases joined
          obtain ⟨between, led, led'⟩ := ih rfl
          exact ⟨between, .found filled led, led'⟩
  | built empty rest ih =>
      cases earlier with
      | nil =>
          cases joined
          exact ⟨_, .start, .built empty rest⟩
      | cons first earlier =>
          cases joined
          obtain ⟨between, led, led'⟩ := ih rfl
          exact ⟨between, .built empty led, led'⟩

/-- The first use builds a rule if it finds its cell empty. -/
theorem LedBy.built_first_iff {use : Use} {later : List Use}
    (led : before.LedBy allowed (use :: later) after) :
    use.built ↔ before.find? use.cell = none := by
  generalize joined : use :: later = uses at led
  induction led with
  | start => cases joined
  | opened _ _ ih => exact ih joined
  | found filled _ _ =>
      cases joined
      simp [filled]
  | built empty _ _ =>
      cases joined
      simp [empty]

/-- A rule is built at the first use of its cell, and only if the cell was empty. -/
theorem LedBy.built_iff {earlier later : List Use} {use : Use}
    (led : before.LedBy allowed (earlier ++ use :: later) after) :
    use.built ↔ before.find? use.cell = none ∧ ∀ used ∈ earlier, used.cell ≠ use.cell := by
  obtain ⟨between, led, led'⟩ := led.exists_between
  rw [led'.built_first_iff, led.find?_eq_none_iff]

end Cells

@[simp]
theorem Session.cells_record (session : Session) (verbosity : Verbosity) (entry : Record) :
    (session.record verbosity entry).cells = session.cells := by
  unfold record
  split <;> rfl

namespace Work

variable {α β : Type} {session after : Session} {uses : List Use}

theorem bind_eq_ok_iff {work : Work α} {next : α → Work β} {result : β} :
    (work >>= next) session = .ok (result, after, uses) ↔
      ∃ value between first rest, work session = .ok (value, between, first) ∧
        next value between = .ok (result, after, rest) ∧ uses = first ++ rest := by
  have sequenced : (work >>= next) session = (do
      let reached ← work session
      let ended ← next reached.1 reached.2.1
      return (ended.1, ended.2.1, reached.2.2 ++ ended.2.2)) := rfl
  rw [sequenced]
  simp only [Matcher.bind_eq_ok_iff, Prod.exists, pure, Except.pure, Except.ok.injEq,
    Prod.mk.injEq]
  refine ⟨fun holds => ?_, fun holds => ?_⟩
  · rcases holds with ⟨value, between, first, worked, _, _, rest, continued, rfl, rfl, rfl⟩
    exact ⟨value, between, first, rest, worked, continued, rfl⟩
  · rcases holds with ⟨value, between, first, rest, worked, continued, rfl⟩
    exact ⟨value, between, first, worked, result, after, rest, continued, rfl, rfl, rfl⟩

/-- A use of a kept cell gives what is in it, or fills it. -/
theorem frameOf_keep_eq_ok_iff {cell : Cell} {frame : Nat} :
    frameOf .keep cell session = .ok (frame, after, uses) ↔
      (session.cells.find? cell = some frame ∧ after = session ∧ uses = [⟨cell, false⟩]) ∨
      (session.cells.find? cell = none ∧ frame = session.cells.frames ∧
        after = { session with cells := (session.cells.fill cell).2 } ∧
        uses = [⟨cell, true⟩]) := by
  unfold frameOf
  cases session.cells.find? cell with
  | none => simp [Cells.fill, eq_comm]
  | some found => simp [eq_comm]

/-- Under both policies there is a frame for a cell. -/
theorem exists_frameOf (policy : Policy) (cell : Cell) (session : Session) :
    ∃ frame after uses, frameOf policy cell session = .ok (frame, after, uses) := by
  cases policy with
  | rebuild => exact ⟨_, _, _, rfl⟩
  | keep =>
      unfold frameOf
      cases session.cells.find? cell with
      | none => exact ⟨_, _, _, rfl⟩
      | some frame => exact ⟨_, _, _, rfl⟩

theorem context_of_frameOf {policy : Policy} {cell : Cell} {frame : Nat}
    (found : frameOf policy cell session = .ok (frame, after, uses)) :
    after.context = session.context := by
  cases policy with
  | rebuild =>
      cases found
      rfl
  | keep =>
      rcases frameOf_keep_eq_ok_iff.mp found with ⟨_, rfl, _⟩ | ⟨_, _, rfl, _⟩
      · rfl
      · rfl

/-! ## Outcomes do not show what is kept -/

/-- Every result of the work on the left is one of that on the right too, from any session
with the same labels, and both leave the same labels. -/
def Settles (work work' : Work α) : Prop :=
  ∀ ⦃session session' after : Session⦄ ⦃value : α⦄ ⦃uses : List Use⦄,
    session'.context = session.context → work session = .ok (value, after, uses) →
      ∃ after' uses', work' session' = .ok (value, after', uses') ∧
        after'.context = after.context

theorem settles_congruence (policy policy' : Policy) :
    Congruence True (fun _ _ => True) policy policy' Settles where
  halt cause work := by
    intro session session' after value uses same worked
    cases worked
  pure value := by
    intro session session' after value uses same worked
    cases worked
    exact ⟨session', [], rfl, same⟩
  bind kept keptNext := by
    intro session session' after value uses same worked
    obtain ⟨found, between, first, rest, begun, continued, rfl⟩ := bind_eq_ok_iff.mp worked
    obtain ⟨between', first', begun', same'⟩ := kept same begun
    obtain ⟨after', rest', continued', same''⟩ := keptNext found same' continued
    exact ⟨after', _, bind_eq_ok_iff.mpr ⟨_, _, _, _, begun', continued', rfl⟩, same''⟩
  context := by
    intro session session' after value uses same worked
    cases worked
    exact ⟨session', [], by rw [context, same], same⟩
  enter label := by
    intro session session' after value uses same worked
    cases worked
    refine ⟨(session'.enter label).2, [], ?_, Session.context_enter_congr same label⟩
    simp only [enter, Session.enter, same]
  release guard := by
    intro session session' after value uses same worked
    cases worked
    exact ⟨session'.release guard, [], rfl, by simp only [Session.release, same]⟩
  record verbosity verbosity' entry := by
    intro session session' after value uses same worked
    cases worked
    refine ⟨session'.record verbosity' entry, [], rfl, ?_⟩
    rw [Session.context_record, Session.context_record, same]
  frameOf frames number keptNext := by
    intro session session' after value uses same worked
    obtain ⟨frame, between, first, rest, found, continued, rfl⟩ := bind_eq_ok_iff.mp worked
    obtain ⟨frame', between', first', found'⟩ := exists_frameOf policy' ⟨_, number⟩ session'
    have same' : between'.context = between.context := by
      rw [context_of_frameOf found, context_of_frameOf found', same]
    obtain ⟨after', rest', continued', same''⟩ := keptNext frame frame' trivial same' continued
    exact ⟨after', _, bind_eq_ok_iff.mpr ⟨_, _, _, _, found', continued', rfl⟩, same''⟩
  openFrame allows keptNext := by
    intro session session' after value uses same worked
    obtain ⟨frame, between, first, rest, opened, continued, rfl⟩ := bind_eq_ok_iff.mp worked
    cases opened
    let opened (session : Session) : Session :=
      { session with cells := session.cells.openFrame.2 }
    have same' : (opened session').context = (opened session).context := same
    obtain ⟨after', rest', continued', same''⟩ :=
      keptNext _ session'.cells.openFrame.1 trivial same' continued
    exact ⟨after', _, bind_eq_ok_iff.mpr ⟨_, _, _, _, rfl, continued', rfl⟩, same''⟩

/-! ## Repeated work builds nothing -/

/-- The uses that are listed lead from the cells before to the cells after. And when no other
frames were opened, the work on the left, done a second time as the work on the right does it,
finds all the cells filled that it used the first time: it has the same result and builds
nothing. -/
def Replays (allowed : Prop) (work work' : Work α) : Prop :=
  ∀ ⦃session after : Session⦄ ⦃value : α⦄ ⦃uses : List Use⦄,
    work session = .ok (value, after, uses) →
      session.cells.LedBy allowed uses after.cells ∧
        (session.cells.OnlyBuilt uses after.cells →
          ∀ later : Session, later.context = session.context →
            after.cells.Keeps later.cells →
              ∃ last, work' later = .ok (value, last, uses.map Use.again) ∧
                last.context = after.context ∧ last.cells = later.cells)

theorem replays_congruence (allowed : Prop) :
    Congruence allowed Eq .keep .keep (Replays allowed) where
  halt cause work := by
    intro session after value uses worked
    cases worked
  pure value := by
    intro session after value uses worked
    cases worked
    exact ⟨.start, fun _ later same _ => ⟨later, rfl, same, rfl⟩⟩
  bind kept keptNext := by
    intro session after value uses worked
    obtain ⟨found, between, first, rest, begun, continued, rfl⟩ := bind_eq_ok_iff.mp worked
    obtain ⟨led, replay⟩ := kept begun
    obtain ⟨led', replay'⟩ := keptNext found continued
    refine ⟨led.append led', fun only later same filled => ?_⟩
    obtain ⟨only, only'⟩ := led.onlyBuilt_append led' only
    obtain ⟨middle, begun', same', unchanged⟩ := replay only later same (led'.keeps.trans filled)
    obtain ⟨last, continued', same'', unchanged'⟩ :=
      replay' only' middle same' (unchanged ▸ filled)
    refine ⟨last, ?_, same'', unchanged'.trans unchanged⟩
    exact bind_eq_ok_iff.mpr ⟨_, _, _, _, begun', continued', List.map_append⟩
  context := by
    intro session after value uses worked
    cases worked
    refine ⟨.start, fun _ later same _ => ⟨later, ?_, same, rfl⟩⟩
    rw [context, same]
    rfl
  enter label := by
    intro session after value uses worked
    cases worked
    refine ⟨.start, fun _ later same _ => ⟨(later.enter label).2, ?_, ?_, rfl⟩⟩
    · simp only [enter, Session.enter, same, List.map_nil]
    · exact Session.context_enter_congr same label
  release guard := by
    intro session after value uses worked
    cases worked
    exact ⟨.start, fun _ later same _ =>
      ⟨later.release guard, rfl, by simp only [Session.release, same], rfl⟩⟩
  record verbosity verbosity' entry := by
    intro session after value uses worked
    cases worked
    rw [Session.cells_record]
    refine ⟨.start, fun _ later same _ =>
      ⟨later.record verbosity' entry, rfl, ?_, Session.cells_record _ _ _⟩⟩
    rw [Session.context_record, Session.context_record, same]
  frameOf := by
    rintro α outer _ next next' rfl number keptNext session after value uses worked
    obtain ⟨frame, between, first, rest, found, continued, rfl⟩ := bind_eq_ok_iff.mp worked
    obtain ⟨led, replay⟩ := keptNext frame frame rfl continued
    -- The second time the cell is filled, no matter how it was found the first time.
    have used (only : between.cells.OnlyBuilt rest after.cells) (later : Session)
        (filled : later.cells.find? ⟨outer, number⟩ = some frame)
        (same : later.context = between.context) (kept : after.cells.Keeps later.cells) :
        ∃ last, (frameOf .keep ⟨outer, number⟩ >>= next') later =
            .ok (value, last, ⟨⟨outer, number⟩, false⟩ :: rest.map Use.again) ∧
          last.context = after.context ∧ last.cells = later.cells := by
      obtain ⟨last, continued', same', unchanged⟩ := replay only later same kept
      have found' := frameOf_keep_eq_ok_iff.mpr (.inl ⟨filled, rfl, rfl⟩)
      exact ⟨last, bind_eq_ok_iff.mpr ⟨_, _, _, _, found', continued', rfl⟩, same', unchanged⟩
    rcases frameOf_keep_eq_ok_iff.mp found with ⟨filled, rfl, rfl⟩ | ⟨empty, rfl, rfl, rfl⟩
    · refine ⟨.found filled led, fun only later same kept => ?_⟩
      exact used only later (kept (led.keeps filled)) same kept
    · have step : session.cells.LedBy allowed [⟨⟨outer, number⟩, true⟩] _ := .built empty .start
      refine ⟨step.append led, fun only later same kept => ?_⟩
      refine used (step.onlyBuilt_append led only).2 later (kept (led.keeps ?_)) same kept
      rw [Cells.find?_fill, if_pos rfl]
  openFrame allows keptNext := by
    intro session after value uses worked
    obtain ⟨frame, between, first, rest, opened, continued, rfl⟩ := bind_eq_ok_iff.mp worked
    cases opened
    obtain ⟨led, _⟩ := keptNext _ _ rfl continued
    refine ⟨.opened allows led, fun only => ?_⟩
    -- The frame is one more than the rules that were built have.
    exact absurd led.frames_le (only ▸ by simp [Cells.openFrame])

theorem forget_eq_ok_iff {work : Work α} {value : α} :
    work.forget session = .ok (value, after) ↔
      ∃ uses, work session = .ok (value, after, uses) := by
  unfold forget
  cases work session with
  | error cause => simp [bind, Except.bind]
  | ok reached => simp [bind, Except.bind, pure, Except.pure, Prod.ext_iff]

end Work

namespace Rule

variable {N : Nonterminals} {ε α : Type}

/-- Apply a rule at a position of a new input, and note the uses of deferred rules. -/
def runNoted (policy : Policy) (input : Input N ε) (steps : Nat) (rule : Rule N ε [] α)
    (position : Nat) : Work (Outcome α) :=
  fun session =>
    applyNoted policy input steps rule .nil 0 position session.withFreshContext

/-- A rule was applied several times, each time to an input of its own, and this is how one
session was made of another by that, with the uses of deferred rules in all of the runs. -/
inductive RunsInTurn (grammar : Grammar N ε) (rule : Rule N ε [] α) :
    Session → List Use → Session → Prop
  | none {session : Session} : RunsInTurn grammar rule session [] session
  | next {first between last : Session} {uses more : List Use} {outcome : Outcome α}
      (source : Array ε) (verbosity : Verbosity) (steps position : Nat)
      (before : RunsInTurn grammar rule first uses between)
      (run : rule.runNoted .keep ⟨source, grammar, verbosity⟩ steps position between =
        .ok (outcome, last, more)) :
      RunsInTurn grammar rule first (uses ++ more) last

variable {grammar : Grammar N ε} {input : Input N ε} {rule : Rule N ε [] α}
  {steps position : Nat} {session session' after : Session} {outcome : Outcome α}
  {uses more : List Use}

/-- With kept cells, noting what is used does not change a run. -/
theorem forget_runNoted :
    (rule.runNoted .keep input steps position).forget session =
      rule.runAt input steps session position :=
  congrFun (congrFun (matcher_applyNoted input steps rule .nil 0) session.withFreshContext)
    position

theorem applyNoted_settles (policy policy' : Policy) :
    (applyNoted policy input steps rule .nil 0 position).Settles
      (applyNoted policy' input steps rule .nil 0 position) :=
  applyNoted_related (Work.settles_congruence policy policy') rfl rfl
    (fun _ definition _ => opens_true definition) (Nat.le_refl steps) rule .nil .nil 0 0
    position (opens_true rule) .nil trivial

/-- From whatever session, a run has the outcome that it has when deferred rules are built
at every use. -/
theorem runAt_iff_rebuilding (session session' : Session) :
    (∃ after, rule.runAt input steps session position = .ok (outcome, after)) ↔
      ∃ after uses, rule.runNoted .rebuild input steps position session' =
        .ok (outcome, after, uses) := by
  simp only [← forget_runNoted, Work.forget_eq_ok_iff]
  constructor
  · rintro ⟨after, uses, applied⟩
    have same : session'.withFreshContext.context = session.withFreshContext.context := rfl
    obtain ⟨after', uses', applied', _⟩ := applyNoted_settles .keep .rebuild same applied
    exact ⟨after', uses', applied'⟩
  · rintro ⟨after, uses, applied⟩
    have same : session.withFreshContext.context = session'.withFreshContext.context := rfl
    obtain ⟨after', uses', applied', _⟩ := applyNoted_settles .rebuild .keep same applied
    exact ⟨after', uses', applied'⟩

/-- The uses of a run lead from its cells before to those after. If no other frames were
opened in it, it builds nothing when it is repeated. -/
theorem runNoted_replays {allowed : Prop} {source : Array ε} {verbosity : Verbosity}
    (opens : rule.Opens allowed) (grammarOpens : grammar.Opens allowed)
    (run : rule.runNoted .keep ⟨source, grammar, verbosity⟩ steps position session =
      .ok (outcome, after, uses)) :
    session.cells.LedBy allowed uses after.cells ∧
      (session.cells.OnlyBuilt uses after.cells →
        ∀ (later : Session) (verbosity' : Verbosity) (steps' : Nat), steps ≤ steps' →
          after.cells.Keeps later.cells →
            ∃ last, rule.runNoted .keep ⟨source, grammar, verbosity'⟩ steps' position later =
                .ok (outcome, last, uses.map Use.again) ∧
              last.cells = later.cells) := by
  have replays (verbosity' : Verbosity) {steps' : Nat} (enough : steps ≤ steps') :
      (applyNoted .keep ⟨source, grammar, verbosity⟩ steps rule .nil 0 position).Replays allowed
        (applyNoted .keep ⟨source, grammar, verbosity'⟩ steps' rule .nil 0 position) :=
    applyNoted_related (Work.replays_congruence allowed) (by rfl) (by rfl) grammarOpens enough
      rule .nil .nil 0 0 position opens .nil rfl
  refine ⟨(replays verbosity (Nat.le_refl steps) run).1,
    fun only later verbosity' steps' enough kept => ?_⟩
  obtain ⟨last, applied, _, unchanged⟩ :=
    (replays verbosity' enough run).2 only later.withFreshContext rfl kept
  exact ⟨last, applied, unchanged⟩

theorem RunsInTurn.ledBy (runs : RunsInTurn grammar rule session uses after) :
    session.cells.LedBy True uses after.cells := by
  induction runs with
  | none => exact .start
  | next source verbosity steps position before run ih =>
      exact ih.append
        (runNoted_replays (opens_true rule) (fun _ found _ => opens_true found) run).1

/-- Runs have the outcomes that they have when deferred rules are built at every use. In runs
that follow each other, the rule of a cell is built at the first use of the cell and never
again, so the cells that were not used are as they were, and every rule that was built has
cells of its own. A run in which no other frames are opened builds nothing when it is
repeated, and where neither the rule nor the grammar asks for frames, none are opened. -/
theorem deferred_rules_are_built_once (grammar : Grammar N ε) (rule : Rule N ε [] α) :
    (∀ (source : Array ε) (verbosity : Verbosity) (steps position : Nat) (session : Session),
      (rule.runNoted .keep ⟨source, grammar, verbosity⟩ steps position).forget session =
        rule.runAt ⟨source, grammar, verbosity⟩ steps session position) ∧
    (∀ (source : Array ε) (verbosity : Verbosity) (steps position : Nat)
      (session session' : Session) (outcome : Outcome α),
      (∃ after, rule.runAt ⟨source, grammar, verbosity⟩ steps session position =
          .ok (outcome, after)) ↔
        ∃ after uses, rule.runNoted .rebuild ⟨source, grammar, verbosity⟩ steps position
          session' = .ok (outcome, after, uses)) ∧
    (∀ (first last : Session) (uses : List Use), RunsInTurn grammar rule first uses last →
      last.cells.builds = first.cells.builds + uses.countP (·.built) ∧
      (∀ (earlier : List Use) (use : Use) (later : List Use),
        uses = earlier ++ use :: later →
          (use.built ↔ first.cells.find? use.cell = none ∧
            ∀ used ∈ earlier, used.cell ≠ use.cell)) ∧
      (∀ cell, last.cells.find? cell = none ↔
        first.cells.find? cell = none ∧ ∀ use ∈ uses, use.cell ≠ cell) ∧
      (first.cells.Apart → last.cells.Apart)) ∧
    ∀ (source : Array ε) (verbosity : Verbosity) (steps position : Nat)
      (before after : Session) (outcome : Outcome α) (uses : List Use),
      rule.runNoted .keep ⟨source, grammar, verbosity⟩ steps position before =
          .ok (outcome, after, uses) →
        (rule.Opens False → grammar.Opens False →
          before.cells.OnlyBuilt uses after.cells) ∧
        (before.cells.OnlyBuilt uses after.cells →
          ∀ (later : Session) (more : List Use), RunsInTurn grammar rule after more later →
            ∀ (verbosity' : Verbosity) (steps' : Nat), steps ≤ steps' →
              ∃ last, rule.runNoted .keep ⟨source, grammar, verbosity'⟩ steps' position later =
                  .ok (outcome, last, uses.map Use.again) ∧
                last.cells = later.cells) := by
  refine ⟨fun source verbosity steps position session => forget_runNoted,
    fun source verbosity steps position session session' outcome =>
      runAt_iff_rebuilding session session',
    fun first last uses runs => ?_,
    fun source verbosity steps position before after outcome uses run =>
      ⟨fun opens grammarOpens => (runNoted_replays opens grammarOpens run).1.onlyBuilt,
        fun only later more runs verbosity' steps' enough => ?_⟩⟩
  · have led := runs.ledBy
    refine ⟨led.builds_eq, ?_, led.find?_eq_none_iff, led.apart⟩
    rintro earlier use later rfl
    exact led.built_iff
  · have replay :=
      (runNoted_replays (opens_true rule) (fun _ found _ => opens_true found) run).2
    exact replay only later verbosity' steps' enough runs.ledBy.keeps

/-- The one name of a grammar for rows of ones. -/
def rowNames : Nonterminals := ⟨Unit, fun _ => Nat⟩

/-- How many ones there are in a row. Behind the first one stands the rest of the row. -/
def onesInRow : Rule rowNames Nat [] Nat :=
  ((nextIf (· = 1)).thenWith (fun _ (rest : Nat) => rest + 1)
    (.deferred 0 () : Rule rowNames Nat [] Nat)).orElse (accept (0 : Nat))

def rowGrammar : Grammar rowNames Nat :=
  fun _ => .ok onesInRow

/-- A row of one, a longer row, and the first row again: the second run finds the rule of the
first one and builds the next, and the third builds nothing. -/
theorem onesInRow_built_once :
    onesInRow.Opens False ∧ rowGrammar.Opens False ∧
      ∃ first second third,
        onesInRow.runNoted .keep ⟨#[1], rowGrammar, .off⟩ 3 0 .initial =
          .ok (.accepted 1 1, first, [⟨⟨0, 0⟩, true⟩]) ∧
        onesInRow.runNoted .keep ⟨#[1, 1], rowGrammar, .off⟩ 3 0 first =
          .ok (.accepted 2 2, second, [⟨⟨0, 0⟩, false⟩, ⟨⟨1, 0⟩, true⟩]) ∧
        onesInRow.runNoted .keep ⟨#[1], rowGrammar, .off⟩ 3 0 second =
          .ok (.accepted 1 1, third, [⟨⟨0, 0⟩, false⟩]) ∧
        third.cells.builds = 2 ∧ third.cells.Apart ∧
        ∃ after uses, onesInRow.runNoted .rebuild ⟨#[1, 1], rowGrammar, .off⟩ 3 0 third =
          .ok (.accepted 2 2, after, uses) := by
  have opens : onesInRow.Opens False := ⟨⟨trivial, trivial⟩, trivial⟩
  have grammarOpens : rowGrammar.Opens False := by
    rintro name rule ⟨⟩
    exact opens
  have fst_fill (cells : Cells) (cell : Cell) : (cells.fill cell).1 = cells.frames := rfl
  let first : Session := ⟨∅, #[], (Cells.initial.fill ⟨0, 0⟩).2⟩
  let second : Session := ⟨∅, #[], (first.cells.fill ⟨1, 0⟩).2⟩
  have runs :
      onesInRow.runNoted .keep ⟨#[1], rowGrammar, .off⟩ 3 0 .initial =
          .ok (.accepted 1 1, first, [⟨⟨0, 0⟩, true⟩]) ∧
        onesInRow.runNoted .keep ⟨#[1, 1], rowGrammar, .off⟩ 3 0 first =
          .ok (.accepted 2 2, second, [⟨⟨0, 0⟩, false⟩, ⟨⟨1, 0⟩, true⟩]) := by
    constructor <;>
      simp [runNoted, applyNoted, note, Noting.deferred, rowGrammar, onesInRow, nextIf, nextAs,
        accept, bind, pure, Except.bind, Except.pure, Except.map, Work.frameOf, Work.follow,
        Work.revised, Work.context, Work.ofExcept, Leaf.apply, Outcome.best, Outcome.revise,
        Outcome.reject, advance, lastPosition, Session.withFreshContext, Session.initial,
        Cells.find?_fill, fst_fill, first, second]
  obtain ⟨run, longer⟩ := runs
  obtain ⟨kept, rebuilt, counted, repeated⟩ :=
    deferred_rules_are_built_once rowGrammar onesInRow
  obtain ⟨only, replay⟩ := repeated #[1] .off 3 0 .initial first _ _ run
  obtain ⟨third, again, _⟩ := replay (only opens grammarOpens) second _
    (.next #[1, 1] .off 3 0 .none longer) .off 3 (Nat.le_refl 3)
  have inTurn : RunsInTurn rowGrammar onesInRow .initial _ third :=
    .next #[1] .off 3 0 (.next #[1, 1] .off 3 0 (.next #[1] .off 3 0 .none run) longer) again
  have applied : onesInRow.runAt ⟨#[1, 1], rowGrammar, .off⟩ 3 first 0 =
      .ok (.accepted 2 2, second) := by
    rw [← kept]
    exact Work.forget_eq_ok_iff.mpr ⟨_, longer⟩
  obtain ⟨builds, _, _, apart⟩ := counted .initial third _ inTurn
  exact ⟨opens, grammarOpens, first, second, third, run, longer, again, builds,
    apart Cells.apart_initial,
    (rebuilt #[1, 1] .off 3 0 first third _).mp ⟨second, applied⟩⟩

end Rule

end Rulebook
