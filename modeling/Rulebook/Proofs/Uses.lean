/-
# Which deferred rules are used

A deferred rule is looked up in its cell whenever it is applied, and built if the cell is
empty. So is a delayed one, which counts as deferred here. Rules are interpreted a second
time, as work on a session that also lists these uses, in their order and each with the answer
to the question whether the rule was built for it. The work can be done under two policies:
cells are kept, as they are by the applications of rules, or the definition is called anew at
every use, whatever the cell holds.

Kept cells and no interest in the list give the applications of rules again. And what two
ways of working have in common can be shown part by part: the work of a rule is put together
from a few steps, so a relation that these steps and their sequences keep holds for any
application. That induction is done here once.
-/

import Rulebook.Proofs.Fragment

namespace Rulebook

/-- What is done with the cell of a deferred rule that is used. -/
inductive Policy
  /-- An empty cell is filled, and a filled one gives the rule in it. -/
  | keep
  /-- The rule is built, whatever the cell holds. -/
  | rebuild
  deriving DecidableEq, Repr

/-- A deferred rule was used. -/
structure Use where
  cell : Cell
  /-- Whether the rule was built for that. -/
  built : Bool
  deriving DecidableEq, Repr

/-- Work on a session with a result, unless it halts, and the deferred rules used for it in
their order. -/
def Work (α : Type) := Session → Except Halt (α × Session × List Use)

namespace Work

variable {α β : Type}

instance : Monad Work where
  pure value := fun session => .ok (value, session, [])
  bind work next := fun session => do
    let (value, session, uses) ← work session
    let (result, session, more) ← next value session
    return (result, session, uses ++ more)

/-- Keep what the work does, and forget which rules it used. -/
def forget (work : Work α) (session : Session) : Except Halt (α × Session) := do
  let (value, session, _) ← work session
  return (value, session)

def halt (cause : Halt) : Work α :=
  fun _ => .error cause

def ofExcept : Except Halt α → Work α
  | .error cause => halt cause
  | .ok value => pure value

/-- The active labels. -/
def context : Work Context :=
  fun session => .ok (session.context, session, [])

def enter (label : String) : Work Guard :=
  fun session => .ok ((session.enter label).1, (session.enter label).2, [])

def release (guard : Guard) : Work Unit :=
  fun session => .ok ((), session.release guard, [])

def record (verbosity : Verbosity) (entry : Record) : Work Unit :=
  fun session => .ok ((), session.record verbosity entry, [])

/-- The frame of the rule in a cell. -/
def frameOf (policy : Policy) (cell : Cell) : Work Nat :=
  fun session =>
    match policy, session.cells.find? cell with
    | .keep, some frame => .ok (frame, session, [⟨cell, false⟩])
    | .keep, none | .rebuild, _ =>
      .ok ((session.cells.fill cell).1,
        { session with cells := (session.cells.fill cell).2 }, [⟨cell, true⟩])

def openFrame : Work Nat :=
  fun session =>
    .ok (session.cells.openFrame.1, { session with cells := session.cells.openFrame.2 }, [])

/-- Look at an acceptance again, knowing where it started. -/
def revised (judge : Nat → α → Nat → Outcome β) (work : Nat → Work (Outcome α))
    (position : Nat) : Work (Outcome β) := do
  return (← work position).revise (judge position)

/-- Go on from an acceptance. -/
def follow (work : Work (Outcome α)) (next : α → Nat → Work (Outcome β)) :
    Work (Outcome β) := do
  match ← work with
  | .accepted value stop => next value stop
  | .rejected failures => return .rejected failures

/-- Go on with a repetition that has `count` matches so far. -/
def repeatFrom (bounds : Bounds) (item next : Nat → Work (Outcome α)) (fold : β → α → β) :
    (steps count : Nat) → (acc : β) → (position : Nat) → Work (Outcome β)
  | 0, _, _, _ => halt .exhausted
  | steps + 1, count, acc, position =>
    if bounds.ceiling = some count then return .accepted acc position
    else do
      match ← (if count = 0 then item else next) position with
      | .accepted value stop =>
        repeatFrom bounds item next fold steps (count + 1) (fold acc value) stop
      | .rejected failures =>
        return if count < bounds.floor then .rejected failures else .accepted acc position

end Work

variable {N : Nonterminals} {ε : Type}

/-- A way to interpret rules as work on a session. -/
abbrev Noting (N : Nonterminals) (ε : Type) : Type 1 :=
  {Γ : List Type} → {α : Type} → Rule N ε Γ α → Env N ε Γ → (frame position : Nat) →
    Work (Outcome α)

namespace Noting

variable (again : Noting N ε)

/-- Follow a reference. -/
def reference {Γ : List Type} {α : Type} (env : Env N ε Γ) (place : Member α Γ)
    (position : Nat) : Work (Outcome α) :=
  match env.lookup place with
  | .undefined => return .reject "recursive rule used before it was defined" position
  | .rule rule env frame => again rule env frame position
  | .dropped => return .reject "recursive rule used after it was dropped" position

/-- Use the rule of a cell. -/
def deferred (policy : Policy) (grammar : Grammar N ε) (cell : Cell) (name : N.Name)
    (position : Nat) : Work (Outcome (N.Value name)) :=
  match grammar name with
  | .error cause => .halt (.malformed cause)
  | .ok rule => do
    let frame ← .frameOf policy cell
    again rule .nil frame position

end Noting

namespace Rule

/-- Interpret a rule by its structure, as `interpret` does, and note the uses of deferred
rules. -/
def note (policy : Policy) (input : Input N ε) (again : Noting N ε) (steps : Nat) :
    {Γ : List Type} → {α : Type} → Rule N ε Γ α → Env N ε Γ → (frame position : Nat) →
      Work (Outcome α)
  | _, _, .leaf part, _, _, position => do
    let context ← .context
    .ofExcept (part.apply input.source context position)
  | _, _, .unfinished rule, env, frame, position =>
    if position < input.source.size then
      rule.note policy input again steps env frame position
    else return .reject (outOfRange input.source.size position) position
  | _, _, .map f rule, env, frame, position =>
    .revised (fun _ value stop => .accepted (f value) stop)
      (rule.note policy input again steps env frame) position
  | _, _, .flatMap rule next, env, frame, position =>
    .follow (rule.note policy input again steps env frame position) fun value stop =>
      (next value).note policy input again steps env frame stop
  | _, _, .thenWith combine rule next, env, frame, position =>
    .follow (rule.note policy input again steps env frame position) fun value stop =>
      .revised (fun _ last stop => .accepted (combine value last) stop)
        (next.note policy input again steps env frame) stop
  | _, _, .nonEmpty rule, env, frame, position =>
    .revised Matcher.judgeNonEmpty (rule.note policy input again steps env frame) position
  | _, _, .path label rule, env, frame, position => do
    let guard ← .enter label
    let outcome ← rule.note policy input again steps env frame position
    .release guard
    return outcome.withPath label
  | _, _, .traced label rule, env, frame, position => do
    let guard ← .enter label
    let context ← .context
    .record input.verbosity (.trying context.path position)
    let outcome ← rule.note policy input again steps env frame position
    .record input.verbosity (Matcher.closing label position outcome)
    .release guard
    return outcome
  | _, _, .orElse rule other, env, frame, position => do
    let outcome ← rule.note policy input again steps env frame position
    let candidate ← other.note policy input again steps env frame position
    return outcome.best candidate
  | _, _, .slice rule, env, frame, position =>
    .revised (Matcher.judgeSlice input.source) (rule.note policy input again steps env frame)
      position
  | _, _, .spanned rule, env, frame, position =>
    .revised (fun position value stop => .accepted ⟨value, position, stop⟩ stop)
      (rule.note policy input again steps env frame) position
  | _, _, .repeated bounds separator item init fold, env, frame, position =>
    .repeatFrom bounds (item.note policy input again steps env frame)
      (fun position =>
        .follow (separator.note policy input again steps env frame position) fun _ =>
          .revised (fun _ value stop => .accepted value stop)
            (item.note policy input again steps env frame))
      fold steps 0 init position
  | _, _, .deferred number name, _, frame, position =>
    again.deferred policy input.grammar ⟨frame, number⟩ name position
  | _, _, .delayed number rule, env, frame, position => do
    let _ ← .frameOf policy ⟨frame, number⟩
    rule.note policy input again steps env frame position
  | _, _, .fresh rule, env, _, position => do
    let frame ← .openFrame
    rule.note policy input again steps env frame position
  | _, _, .reference place, env, _, position => again.reference env place position
  | _, _, .recursive body, env, frame, position =>
    body.note policy input again steps (.cons (.defined body) frame env) frame position

/-- Apply rules with an allowance of steps, and note the uses of deferred rules. -/
def applyNoted (policy : Policy) (input : Input N ε) : (steps : Nat) → Noting N ε
  | 0 => fun _ _ _ _ => .halt .exhausted
  | steps + 1 => fun rule env frame position =>
    rule.note policy input (applyNoted policy input steps) (steps + 1) env frame position

end Rule

/-! ## Kept cells give the applications of rules -/

namespace Work

variable {α β : Type}

/-- The matcher that does the work and does not list what it used. -/
def matcher (work : Nat → Work (Outcome α)) : Matcher α :=
  fun session position => (work position).forget session

theorem forget_bind (work : Work α) (next : α → Work β) (session : Session) :
    (work >>= next).forget session =
      work.forget session >>= fun (value, session) => (next value).forget session := by
  simp only [forget, bind]
  cases work session with
  | error cause => rfl
  | ok reached =>
      obtain ⟨value, between, uses⟩ := reached
      simp only [Except.bind, pure, Except.pure]
      cases next value between with
      | error cause => rfl
      | ok ended => rfl

theorem matcher_revised (judge : Nat → α → Nat → Outcome β)
    (work : Nat → Work (Outcome α)) :
    matcher (revised judge work) = (matcher work).revised judge := by
  funext session position
  simp only [matcher, revised, forget_bind, Matcher.revised]
  congr 1

theorem matcher_follow (work : Nat → Work (Outcome α)) (next : α → Nat → Work (Outcome β)) :
    matcher (fun position => (work position).follow next) =
      (matcher work).flatMap fun value => matcher (next value) := by
  funext session position
  simp only [matcher, follow, forget_bind, Matcher.flatMap]
  congr 1
  funext reached
  obtain ⟨outcome, between⟩ := reached
  cases outcome <;> rfl

theorem matcher_repeatFrom (bounds : Bounds) (item next : Nat → Work (Outcome α))
    (fold : β → α → β) (steps count : Nat) (acc : β) :
    matcher (repeatFrom bounds item next fold steps count acc) =
      .repeatFrom bounds (matcher item) (matcher next) fold steps count acc := by
  induction steps generalizing count acc with
  | zero => rfl
  | succ steps ih =>
      funext session position
      simp only [matcher, repeatFrom, Matcher.repeatFrom]
      by_cases full : bounds.ceiling = some count
      · simp only [if_pos full]
        rfl
      · simp only [if_neg full, forget_bind]
        have attempt : ((if count = 0 then item else next) position).forget session =
            (if count = 0 then matcher item else matcher next) session position := by
          split <;> rfl
        rw [attempt]
        cases (if count = 0 then matcher item else matcher next) session position with
        | error cause => rfl
        | ok reached =>
            obtain ⟨⟨value, stop⟩ | failures, between⟩ := reached
            · exact congrFun (congrFun (ih (count + 1) (fold acc value)) between) stop
            · simp only [bind, Except.bind]
              by_cases short : count < bounds.floor
              · simp only [if_pos short]
                rfl
              · simp only [if_neg short]
                rfl

theorem forget_frameOf_keep (cell : Cell) (session : Session) :
    (frameOf .keep cell).forget session =
      .ok ((Cells.frameOf cell session.cells).1,
        { session with cells := (Cells.frameOf cell session.cells).2 }) := by
  simp only [forget, frameOf, Cells.frameOf]
  cases session.cells.find? cell with
  | none => rfl
  | some frame => rfl

end Work

namespace Rule

variable {input : Input N ε} {Γ : List Type} {α : Type}

open Work

/-- The step of the induction: if noting uses is no more than following the references and
names, it is no more than applying the rules that mention them. -/
theorem matcher_note {again : Noting N ε} {again' : Interpretation N ε}
    (same : ∀ {Γ : List Type} {α : Type} (rule : Rule N ε Γ α) (env : Env N ε Γ)
      (frame : Nat), matcher (again rule env frame) = again' rule env frame)
    (steps : Nat) (rule : Rule N ε Γ α) (env : Env N ε Γ) (frame : Nat) :
    matcher (rule.note .keep input again steps env frame) =
      rule.interpret input again' steps env frame := by
  induction rule generalizing frame with
  | leaf part =>
      funext session position
      simp only [matcher, note, interpret, forget_bind, Matcher.leaf]
      show Work.forget (ofExcept _) session = _
      cases part.apply input.source session.context position with
      | error cause => rfl
      | ok outcome => rfl
  | unfinished rule ih =>
      funext session position
      simp only [matcher, note, interpret, Matcher.unfinished, ← ih env frame]
      by_cases inside : position < input.source.size
      · rw [if_pos inside, if_pos inside]
      · rw [if_neg inside, if_neg inside]
        rfl
  | map f rule ih =>
      rw [interpret, Matcher.map_eq_revised, ← ih env frame]
      exact matcher_revised _ _
  | flatMap rule next ih ihNext =>
      simp only [interpret, ← ih env frame, ← ihNext _ env frame]
      exact matcher_follow _ _
  | thenWith combine rule next ih ihNext =>
      rw [interpret, Matcher.thenWith_eq_flatMap]
      simp only [Matcher.map_eq_revised, ← ih env frame, ← ihNext env frame, ← matcher_revised]
      exact matcher_follow _ _
  | nonEmpty rule ih =>
      rw [interpret, Matcher.nonEmpty_eq_revised, ← ih env frame]
      exact matcher_revised _ _
  | path label rule ih =>
      funext session position
      simp only [matcher, note, interpret, Matcher.path, ← ih env frame, forget_bind]
      rfl
  | traced label rule ih =>
      funext session position
      simp only [matcher, note, interpret, Matcher.traced, ← ih env frame, forget_bind]
      rfl
  | orElse rule other ih ihOther =>
      funext session position
      simp only [matcher, note, interpret, Matcher.orElse, ← ih env frame, ← ihOther env frame,
        forget_bind]
      rfl
  | slice rule ih =>
      rw [interpret, Matcher.slice_eq_revised, ← ih env frame]
      exact matcher_revised _ _
  | spanned rule ih =>
      rw [interpret, Matcher.spanned_eq_revised, ← ih env frame]
      exact matcher_revised _ _
  | repeated bounds separator item init fold ihSeparator ihItem =>
      rw [interpret, Matcher.repeated, Matcher.thenWith_eq_flatMap]
      simp only [Matcher.map_eq_revised, ← ihSeparator env frame, ← ihItem env frame,
        ← matcher_revised, ← matcher_follow]
      exact matcher_repeatFrom _ _ _ _ _ _ _
  | deferred number name =>
      funext session position
      show Work.forget (again.deferred _ _ _ _ _) _ = Interpretation.deferred _ _ _ _ _ _
      cases found : input.grammar name with
      | error cause =>
          rw [Interpretation.deferred_eq_halted _ found, Noting.deferred, found]
          rfl
      | ok rule =>
          rw [Interpretation.deferred_eq_framed _ found, Noting.deferred, found]
          simp only [forget_bind, forget_frameOf_keep, Matcher.framed, ← same]
          rfl
  | delayed number rule ih =>
      funext session position
      simp only [matcher, note, interpret, ← ih env, forget_bind, forget_frameOf_keep,
        Matcher.framed]
      rfl
  | fresh rule ih =>
      funext session position
      simp only [matcher, note, interpret, ← ih env, forget_bind]
      rfl
  | reference place =>
      simp only [note, interpret, Noting.reference, Interpretation.reference]
      cases env.lookup place with
      | undefined => rfl
      | rule body inner frame => exact same body inner frame
      | dropped => rfl
  | recursive body ih => exact ih _ frame

/-- With kept cells, noting what is used does not change an application. -/
theorem matcher_applyNoted (input : Input N ε) (steps : Nat) (rule : Rule N ε Γ α)
    (env : Env N ε Γ) (frame : Nat) :
    matcher (applyNoted .keep input steps rule env frame) =
      apply input steps rule env frame := by
  induction steps generalizing Γ α frame with
  | zero => rfl
  | succ steps ih => exact matcher_note ih (steps + 1) rule env frame

/-! ## What any two ways of working have in common -/

/-- Frames are opened for parts of the rule while it is applied only if that is allowed. -/
def Opens (allowed : Prop) : {Γ : List Type} → {α : Type} → Rule N ε Γ α → Prop
  | _, _, .leaf _ | _, _, .deferred _ _ | _, _, .reference _ => True
  | _, _, .unfinished rule | _, _, .map _ rule | _, _, .nonEmpty rule | _, _, .path _ rule
  | _, _, .traced _ rule | _, _, .slice rule | _, _, .spanned rule | _, _, .delayed _ rule
  | _, _, .recursive rule => rule.Opens allowed
  | _, _, .flatMap rule next => rule.Opens allowed ∧ ∀ value, (next value).Opens allowed
  | _, _, .thenWith _ rule next => rule.Opens allowed ∧ next.Opens allowed
  | _, _, .orElse rule other => rule.Opens allowed ∧ other.Opens allowed
  | _, _, .repeated _ separator item _ _ => separator.Opens allowed ∧ item.Opens allowed
  | _, _, .fresh rule => allowed ∧ rule.Opens allowed

theorem opens_true : {Γ : List Type} → {α : Type} → (rule : Rule N ε Γ α) → rule.Opens True
  | _, _, .leaf _ | _, _, .deferred _ _ | _, _, .reference _ => trivial
  | _, _, .unfinished rule | _, _, .map _ rule | _, _, .nonEmpty rule | _, _, .path _ rule
  | _, _, .traced _ rule | _, _, .slice rule | _, _, .spanned rule | _, _, .delayed _ rule
  | _, _, .recursive rule => opens_true rule
  | _, _, .flatMap rule next => ⟨opens_true rule, fun value => opens_true (next value)⟩
  | _, _, .thenWith _ rule next => ⟨opens_true rule, opens_true next⟩
  | _, _, .orElse rule other => ⟨opens_true rule, opens_true other⟩
  | _, _, .repeated _ separator item _ _ => ⟨opens_true separator, opens_true item⟩
  | _, _, .fresh rule => ⟨trivial, opens_true rule⟩

end Rule

/-- The definitions open frames only if that is allowed. -/
def Grammar.Opens (allowed : Prop) (grammar : Grammar N ε) : Prop :=
  ∀ name rule, grammar name = .ok rule → rule.Opens allowed

/-- The recursive rules around are the same, and their frames correspond. -/
inductive Env.Framed (allowed : Prop) (same : Nat → Nat → Prop) :
    {Γ : List Type} → Env N ε Γ → Env N ε Γ → Prop
  | nil : Framed allowed same .nil .nil
  | cons {Γ : List Type} {α : Type} {slot : Slot N ε Γ α} {frame frame' : Nat}
      {rest rest' : Env N ε Γ}
      (opens : ∀ body, slot = .defined body → body.Opens allowed)
      (frames : same frame frame') (framed : rest.Framed allowed same rest') :
      Framed allowed same (.cons slot frame rest) (.cons slot frame' rest')

/-- A reference leads to the same rule in corresponding frames. -/
inductive Target.Framed (allowed : Prop) (same : Nat → Nat → Prop) {α : Type} :
    Target N ε α → Target N ε α → Prop
  | undefined : Framed allowed same .undefined .undefined
  | dropped : Framed allowed same .dropped .dropped
  | rule {Γ : List Type} {rule : Rule N ε Γ α} {env env' : Env N ε Γ} {frame frame' : Nat}
      (opens : rule.Opens allowed) (framed : env.Framed allowed same env')
      (frames : same frame frame') :
      Framed allowed same (.rule rule env frame) (.rule rule env' frame')

theorem Env.Framed.lookup {allowed : Prop} {same : Nat → Nat → Prop} {Γ : List Type}
    {env env' : Env N ε Γ} (framed : env.Framed allowed same env') {α : Type}
    (place : Member α Γ) :
    (env.lookup place).Framed allowed same (env'.lookup place) := by
  induction framed with
  | nil => nomatch place
  | @cons Γ β slot frame frame' rest rest' opens frames framed ih =>
      cases place with
      | there place =>
          cases slot <;> exact ih place
      | here =>
          cases slot with
          | undefined => exact .undefined
          | dropped => exact .dropped
          | defined body => exact .rule (opens body rfl) (.cons opens frames framed) frames

namespace Work

/-- A relation that the steps of all work and their sequences keep. What halts on the left
is related to everything. -/
structure Congruence (allowed : Prop) (same : Nat → Nat → Prop) (policy policy' : Policy)
    (R : {α : Type} → Work α → Work α → Prop) : Prop where
  halt {α : Type} (cause : Halt) (work : Work α) : R (.halt cause) work
  pure {α : Type} (value : α) : R (Pure.pure value) (Pure.pure value)
  bind {α β : Type} {work work' : Work α} {next next' : α → Work β} (kept : R work work')
    (keptNext : ∀ value, R (next value) (next' value)) : R (work >>= next) (work' >>= next')
  context : R .context .context
  enter (label : String) : R (.enter label) (.enter label)
  release (guard : Guard) : R (.release guard) (.release guard)
  record (verbosity verbosity' : Verbosity) (entry : Record) :
    R (.record verbosity entry) (.record verbosity' entry)
  frameOf {α : Type} {frame frame' : Nat} {next next' : Nat → Work α}
    (frames : same frame frame') (number : Nat)
    (keptNext : ∀ frame frame', same frame frame' → R (next frame) (next' frame')) :
    R (.frameOf policy ⟨frame, number⟩ >>= next) (.frameOf policy' ⟨frame', number⟩ >>= next')
  openFrame {α : Type} {next next' : Nat → Work α} (allows : allowed)
    (keptNext : ∀ frame frame', same frame frame' → R (next frame) (next' frame')) :
    R (.openFrame >>= next) (.openFrame >>= next')

namespace Congruence

variable {allowed : Prop} {same : Nat → Nat → Prop} {policy policy' : Policy}
  {R : {α : Type} → Work α → Work α → Prop} {α β : Type}
  (congruence : Congruence allowed same policy policy' R)

include congruence

theorem ofExcept (result : Except Halt α) : R (.ofExcept result) (.ofExcept result) := by
  cases result with
  | error cause => exact congruence.halt cause _
  | ok value => exact congruence.pure value

theorem revised {work work' : Nat → Work (Outcome α)} (judge : Nat → α → Nat → Outcome β)
    (kept : ∀ position, R (work position) (work' position)) (position : Nat) :
    R (Work.revised judge work position) (Work.revised judge work' position) :=
  congruence.bind (kept position) fun _ => congruence.pure _

theorem follow {work work' : Work (Outcome α)} {next next' : α → Nat → Work (Outcome β)}
    (kept : R work work') (keptNext : ∀ value stop, R (next value stop) (next' value stop)) :
    R (work.follow next) (work'.follow next') := by
  refine congruence.bind kept fun outcome => ?_
  cases outcome with
  | accepted value stop => exact keptNext value stop
  | rejected failures => exact congruence.pure _

theorem repeatFrom {bounds : Bounds} {item item' next next' : Nat → Work (Outcome α)}
    (kept : ∀ position, R (item position) (item' position))
    (keptNext : ∀ position, R (next position) (next' position)) (fold : β → α → β)
    {steps steps' : Nat} (enough : steps ≤ steps') (count : Nat) (acc : β) (position : Nat) :
    R (Work.repeatFrom bounds item next fold steps count acc position)
      (Work.repeatFrom bounds item' next' fold steps' count acc position) := by
  induction steps generalizing steps' count acc position with
  | zero => exact congruence.halt _ _
  | succ steps ih =>
      cases steps' with
      | zero => exact absurd enough (Nat.not_succ_le_zero steps)
      | succ steps' =>
          simp only [Work.repeatFrom]
          by_cases full : bounds.ceiling = some count
          · rw [if_pos full, if_pos full]
            exact congruence.pure _
          · rw [if_neg full, if_neg full]
            have attempt : R ((if count = 0 then item else next) position)
                ((if count = 0 then item' else next') position) := by
              split
              · exact kept position
              · exact keptNext position
            refine congruence.bind attempt fun outcome => ?_
            cases outcome with
            | accepted value stop => exact ih (Nat.le_of_succ_le_succ enough) _ _ stop
            | rejected failures => exact congruence.pure _

end Congruence

end Work

namespace Rule

variable {allowed : Prop} {same : Nat → Nat → Prop} {policy policy' : Policy}
  {R : {α : Type} → Work α → Work α → Prop} {input input' : Input N ε} {Γ : List Type}
  {α : Type} (congruence : Work.Congruence allowed same policy policy' R)
  (sameSource : input'.source = input.source) (sameGrammar : input'.grammar = input.grammar)
  (grammarOpens : input.grammar.Opens allowed)

include congruence sameSource sameGrammar grammarOpens

/-- The step of the induction: what holds for the rules that references and names lead to
holds for the rules that mention them. -/
theorem note_related {again again' : Noting N ε} {steps steps' : Nat}
    (related : ∀ {Γ : List Type} {α : Type} (rule : Rule N ε Γ α) (env env' : Env N ε Γ)
      (frame frame' position : Nat), rule.Opens allowed → env.Framed allowed same env' →
      same frame frame' → R (again rule env frame position) (again' rule env' frame' position))
    (enough : steps ≤ steps') (rule : Rule N ε Γ α) (env env' : Env N ε Γ)
    (frame frame' position : Nat) (opens : rule.Opens allowed)
    (framed : env.Framed allowed same env') (frames : same frame frame') :
    R (rule.note policy input again steps env frame position)
      (rule.note policy' input' again' steps' env' frame' position) := by
  induction rule generalizing frame frame' position with
  | leaf part =>
      refine congruence.bind congruence.context fun context => ?_
      rw [sameSource]
      exact congruence.ofExcept _
  | unfinished rule ih =>
      simp only [note]
      rw [sameSource]
      split
      · exact ih _ _ _ _ _ opens framed frames
      · exact congruence.pure _
  | map f rule ih =>
      exact congruence.revised _ (fun position => ih _ _ _ _ position opens framed frames) _
  | flatMap rule next ih ihNext =>
      exact congruence.follow (ih _ _ _ _ _ opens.1 framed frames) fun value stop =>
        ihNext value _ _ _ _ stop (opens.2 value) framed frames
  | thenWith combine rule next ih ihNext =>
      exact congruence.follow (ih _ _ _ _ _ opens.1 framed frames) fun _ stop =>
        congruence.revised _ (fun stop => ihNext _ _ _ _ stop opens.2 framed frames) stop
  | nonEmpty rule ih =>
      exact congruence.revised _ (fun position => ih _ _ _ _ position opens framed frames) _
  | path label rule ih =>
      exact congruence.bind (congruence.enter label) fun guard =>
        congruence.bind (ih _ _ _ _ _ opens framed frames) fun _ =>
          congruence.bind (congruence.release guard) fun _ => congruence.pure _
  | traced label rule ih =>
      exact congruence.bind (congruence.enter label) fun guard =>
        congruence.bind congruence.context fun _ =>
          congruence.bind (congruence.record _ _ _) fun _ =>
            congruence.bind (ih _ _ _ _ _ opens framed frames) fun _ =>
              congruence.bind (congruence.record _ _ _) fun _ =>
                congruence.bind (congruence.release guard) fun _ => congruence.pure _
  | orElse rule other ih ihOther =>
      exact congruence.bind (ih _ _ _ _ _ opens.1 framed frames) fun _ =>
        congruence.bind (ihOther _ _ _ _ _ opens.2 framed frames) fun _ => congruence.pure _
  | slice rule ih =>
      simp only [note]
      rw [sameSource]
      exact congruence.revised _ (fun position => ih _ _ _ _ position opens framed frames) _
  | spanned rule ih =>
      exact congruence.revised _ (fun position => ih _ _ _ _ position opens framed frames) _
  | repeated bounds separator item init fold ihSeparator ihItem =>
      have kept := fun position => ihItem _ _ _ _ position opens.2 framed frames
      exact congruence.repeatFrom kept (fun position =>
        congruence.follow (ihSeparator _ _ _ _ position opens.1 framed frames) fun _ stop =>
          congruence.revised _ kept stop) fold enough 0 init position
  | deferred number name =>
      show R (again.deferred _ _ _ _ _) (again'.deferred _ _ _ _ _)
      simp only [Noting.deferred, sameGrammar]
      cases found : input.grammar name with
      | error cause => exact congruence.halt _ _
      | ok rule =>
          exact congruence.frameOf frames number fun frame frame' frames =>
            related rule .nil .nil frame frame' position (grammarOpens name rule found) .nil
              frames
  | delayed number rule ih =>
      exact congruence.frameOf frames number fun _ _ _ => ih _ _ _ _ _ opens framed frames
  | fresh rule ih =>
      exact congruence.openFrame opens.1 fun frame frame' frames =>
        ih _ _ _ _ _ opens.2 framed frames
  | reference place =>
      show R (again.reference _ _ _) (again'.reference _ _ _)
      have found := framed.lookup place
      unfold Noting.reference
      generalize env.lookup place = target at found ⊢
      generalize env'.lookup place = target' at found ⊢
      cases found with
      | undefined => exact congruence.pure _
      | dropped => exact congruence.pure _
      | rule bodyOpens innerFramed innerFrames =>
          exact related _ _ _ _ _ position bodyOpens innerFramed innerFrames
  | recursive body ih =>
      refine ih _ _ _ _ _ opens (.cons ?_ frames framed) frames
      rintro _ ⟨⟩
      exact opens

theorem applyNoted_related {steps steps' : Nat} (enough : steps ≤ steps')
    (rule : Rule N ε Γ α) (env env' : Env N ε Γ) (frame frame' position : Nat)
    (opens : rule.Opens allowed) (framed : env.Framed allowed same env')
    (frames : same frame frame') :
    R (applyNoted policy input steps rule env frame position)
      (applyNoted policy' input' steps' rule env' frame' position) := by
  induction steps generalizing steps' Γ α frame frame' position with
  | zero => exact congruence.halt _ _
  | succ steps ih =>
      cases steps' with
      | zero => exact absurd enough (Nat.not_succ_le_zero steps)
      | succ steps' =>
          exact note_related congruence sameSource sameGrammar grammarOpens
            (fun rule env env' frame frame' position opens framed frames =>
              ih (Nat.le_of_succ_le_succ enough) rule env env' frame frame' position opens
                framed frames)
            enough rule env env' frame frame' position opens framed frames

end Rule

end Rulebook
