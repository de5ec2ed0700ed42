/-
# What leaves see of the labels

The stack of active labels is changed in place. A named or traced rule puts its
label on it, and cuts the stack down again when it is left, whether it accepted
or rejected. In between all kinds of rules may be applied: the alternatives that
will lose, the attempts of a repetition, the rule itself at another position.

Here rules are interpreted a second time, and every leaf that is applied leaves
behind what it saw. Rules around a leaf do not look at the stack for that: when
one of them is left, it adds its own label to what was seen inside of it. That
this is the same run, that the stack is in the end what it was in the beginning,
and that a leaf sees the labels of exactly the rules around it is kept by every
combination.
-/

import Rulebook.Proofs.Yields

namespace Rulebook

/-! ## Reporting what is seen -/

/-- A leaf was applied. -/
structure Sighting where
  /-- The labels of the named and traced rules around the leaf that were being
  applied, outermost first. -/
  labels : List String
  /-- The active labels that the leaf was shown. -/
  seen : List String
  deriving DecidableEq, Repr

/-- The leaf was applied inside of a rule with this label. -/
def Sighting.inside (label : String) (sighting : Sighting) : Sighting :=
  { sighting with labels := label :: sighting.labels }

/-- A matcher that also says what the leaves in it saw, in the order in which they
were applied. -/
abbrev Watched (α : Type) :=
  Session → Nat → Except Halt (Outcome α × Session × List Sighting)

namespace Watched

variable {ε α β : Type}

/-- Keep what the matcher does, and forget what was seen. -/
def unwatched (watched : Watched α) : Matcher α :=
  fun session position => do
    let (outcome, session, _) ← watched session position
    return (outcome, session)

def halted (cause : Halt) : Watched α :=
  fun _ _ => .error cause

def refuse (message : String) : Watched α :=
  fun session position => .ok (.reject message position, session, [])

/-- The leaf sees the labels that are active now. No rule around it has been left
yet. -/
def leaf (source : Array ε) (leaf : Leaf ε α) : Watched α :=
  fun session position => do
    let outcome ← leaf.apply source session.context position
    return (outcome, session, [⟨[], session.context.path⟩])

def unfinished (size : Nat) (watched : Watched α) : Watched α :=
  fun session position =>
    if position < size then watched session position
    else .ok (.reject (outOfRange size position) position, session, [])

def revised (judge : Nat → α → Nat → Outcome β) (watched : Watched α) : Watched β :=
  fun session position => do
    let (outcome, session, sightings) ← watched session position
    return (outcome.revise (judge position), session, sightings)

def flatMap (watched : Watched α) (next : α → Watched β) : Watched β :=
  fun session position => do
    match ← watched session position with
    | (.accepted value stop, session, sightings) =>
      let (outcome, session, more) ← next value session stop
      return (outcome, session, sightings ++ more)
    | (.rejected failures, session, sightings) =>
      return (.rejected failures, session, sightings)

def path (label : String) (watched : Watched α) : Watched α :=
  fun session position => do
    let (guard, session) := session.enter label
    let (outcome, session, sightings) ← watched session position
    return (outcome.withPath label, session.release guard,
      sightings.map (Sighting.inside label))

def traced (verbosity : Verbosity) (label : String) (watched : Watched α) : Watched α :=
  fun session position => do
    let (guard, session) := session.enter label
    let session :=
      session.record verbosity (.trying session.context.path position)
    let (outcome, session, sightings) ← watched session position
    let session := session.record verbosity (Matcher.closing label position outcome)
    return (outcome, session.release guard, sightings.map (Sighting.inside label))

def orElse (watched other : Watched α) : Watched α :=
  fun session position => do
    let (outcome, session, sightings) ← watched session position
    let (candidate, session, more) ← other session position
    return (outcome.best candidate, session, sightings ++ more)

def repeatFrom (bounds : Bounds) (item next : Watched α) (fold : β → α → β) :
    (steps count : Nat) → (acc : β) → Watched β
  | 0, _, _, _, _ => .error .exhausted
  | steps + 1, count, acc, session, position =>
    if bounds.ceiling = some count then
      .ok (.accepted acc position, session, [])
    else do
      match ← (if count = 0 then item else next) session position with
      | (.accepted value stop, session, sightings) =>
        let (outcome, session, more) ←
          repeatFrom bounds item next fold steps (count + 1) (fold acc value) session stop
        return (outcome, session, sightings ++ more)
      | (.rejected failures, session, sightings) =>
        if count < bounds.floor then return (.rejected failures, session, sightings)
        else return (.accepted acc position, session, sightings)

def framed (choose : Cells → Nat × Cells) (watched : Nat → Watched α) : Watched α :=
  fun session position =>
    watched (choose session.cells).1
      { session with cells := (choose session.cells).2 } position

end Watched

variable {N : Nonterminals} {ε : Type}

/-- A way to interpret rules that also says what leaves see. -/
abbrev Watching (N : Nonterminals) (ε : Type) : Type 1 :=
  {Γ : List Type} → {α : Type} → Rule N ε Γ α → Env N ε Γ → (frame : Nat) →
    Watched α

namespace Watching

variable (again : Watching N ε)

/-- Follow a reference. -/
def reference {Γ : List Type} {α : Type} (env : Env N ε Γ) (place : Member α Γ) :
    Watched α :=
  match env.lookup place with
  | .undefined => .refuse "recursive rule used before it was defined"
  | .rule rule env frame => again rule env frame
  | .dropped => .refuse "recursive rule used after it was dropped"

/-- Apply the rule of a cell, which is built now if the cell is empty. -/
def deferred (grammar : Grammar N ε) (cell : Cell) (name : N.Name) :
    Watched (N.Value name) :=
  match grammar name with
  | .error cause => .halted (.malformed cause)
  | .ok rule => .framed (Cells.frameOf cell) (again rule .nil)

end Watching

namespace Rule

/-- Interpret a rule by its structure, as `interpret` does, and say what its leaves
see. -/
def watch (input : Input N ε) (again : Watching N ε) (steps : Nat) :
    {Γ : List Type} → {α : Type} → Rule N ε Γ α → Env N ε Γ → (frame : Nat) →
      Watched α
  | _, _, .leaf part, _, _ => .leaf input.source part
  | _, _, .unfinished rule, env, frame =>
    .unfinished input.source.size (rule.watch input again steps env frame)
  | _, _, .map f rule, env, frame =>
    .revised (fun _ value stop => .accepted (f value) stop)
      (rule.watch input again steps env frame)
  | _, _, .flatMap rule next, env, frame =>
    .flatMap (rule.watch input again steps env frame)
      fun value => (next value).watch input again steps env frame
  | _, _, .thenWith combine rule next, env, frame =>
    .flatMap (rule.watch input again steps env frame) fun value =>
      .revised (fun _ last stop => .accepted (combine value last) stop)
        (next.watch input again steps env frame)
  | _, _, .nonEmpty rule, env, frame =>
    .revised Matcher.judgeNonEmpty (rule.watch input again steps env frame)
  | _, _, .path label rule, env, frame =>
    .path label (rule.watch input again steps env frame)
  | _, _, .traced label rule, env, frame =>
    .traced input.verbosity label (rule.watch input again steps env frame)
  | _, _, .orElse rule other, env, frame =>
    .orElse (rule.watch input again steps env frame)
      (other.watch input again steps env frame)
  | _, _, .slice rule, env, frame =>
    .revised (Matcher.judgeSlice input.source) (rule.watch input again steps env frame)
  | _, _, .spanned rule, env, frame =>
    .revised (fun position value stop => .accepted ⟨value, position, stop⟩ stop)
      (rule.watch input again steps env frame)
  | _, _, .repeated bounds separator item init fold, env, frame =>
    .repeatFrom bounds (item.watch input again steps env frame)
      (.flatMap (separator.watch input again steps env frame) fun _ =>
        .revised (fun _ value stop => .accepted value stop)
          (item.watch input again steps env frame))
      fold steps 0 init
  | _, _, .deferred number name, _, frame =>
    again.deferred input.grammar ⟨frame, number⟩ name
  | _, _, .delayed number rule, env, frame =>
    .framed (Cells.frameOf ⟨frame, number⟩) fun _ => rule.watch input again steps env frame
  | _, _, .fresh rule, env, _ =>
    .framed Cells.openFrame fun frame => rule.watch input again steps env frame
  | _, _, .reference place, env, _ => again.reference env place
  | _, _, .recursive body, env, frame =>
    body.watch input again steps (.cons (.defined body) frame env) frame

/-- Apply rules with an allowance of steps, and say what leaves see. -/
def applyWatched (input : Input N ε) : (steps : Nat) → Watching N ε
  | 0 => fun _ _ _ => .halted .exhausted
  | steps + 1 => fun rule env frame =>
    rule.watch input (applyWatched input steps) (steps + 1) env frame

end Rule

/-! ## Every combination shows its leaves the labels around them -/

/-- The leaf saw the labels active at the start of a run, followed by those of the
rules around it. -/
def Sighting.Under (context : Context) (sighting : Sighting) : Prop :=
  sighting.seen = context.path ++ sighting.labels

/-- What was seen inside of a rule with a label was seen under the labels outside. -/
theorem Sighting.Under.inside {session : Session} {label : String} {sighting : Sighting}
    (under : sighting.Under (session.enter label).2.context) :
    (sighting.inside label).Under session.context := by
  unfold Under at under ⊢
  rw [Session.enter, Context.path_enter, List.append_assoc] at under
  exact under

namespace Watched

variable {ε α β : Type}

/-- The watched run ends as the other one does. It leaves the active labels as they
were at the start, and every leaf saw these and the labels of the rules around it. -/
def Agrees (context : Context)
    (watched : Except Halt (Outcome α × Session × List Sighting))
    (plain : Except Halt (Outcome α × Session)) : Prop :=
  (∃ cause, watched = .error cause ∧ plain = .error cause) ∨
    ∃ outcome after sightings,
      watched = .ok (outcome, after, sightings) ∧ plain = .ok (outcome, after) ∧
        after.context = context ∧ ∀ sighting ∈ sightings, sighting.Under context

/-- A run that goes on where another one left the labels as they were agrees together
with what was seen before. -/
theorem Agrees.after {context : Context} {between : Session} {before : List Sighting}
    {watched : Except Halt (Outcome α × Session × List Sighting)}
    {plain : Except Halt (Outcome α × Session)}
    (agrees : Agrees between.context watched plain)
    (balanced : between.context = context)
    (seen : ∀ sighting ∈ before, sighting.Under context) :
    Agrees context
      (do
        let (outcome, session, more) ← watched
        return (outcome, session, before ++ more))
      plain := by
  obtain ⟨cause, rfl, rfl⟩ | ⟨outcome, after, more, rfl, rfl, balanced', seen'⟩ := agrees
  · exact .inl ⟨cause, rfl, rfl⟩
  · rw [balanced] at balanced' seen'
    exact .inr ⟨outcome, after, _, rfl, rfl, balanced',
      List.forall_mem_append.mpr ⟨seen, seen'⟩⟩

/-- From every session and position the watched matcher agrees with the other one. -/
def Faithful (watched : Watched α) (matcher : Matcher α) : Prop :=
  ∀ session position,
    Agrees session.context (watched session position) (matcher session position)

variable {watched other : Watched α} {matcher otherMatcher : Matcher α}

theorem Faithful.halted (cause : Halt) :
    (Watched.halted cause : Watched α).Faithful (.halted cause) :=
  fun _ _ => .inl ⟨cause, rfl, rfl⟩

theorem Faithful.refuse (message : String) :
    (Watched.refuse message : Watched α).Faithful (.refuse message) :=
  fun session position => .inr ⟨_, session, [], rfl, rfl, rfl, by simp⟩

theorem Faithful.leaf (source : Array ε) (part : Leaf ε α) :
    (Watched.leaf source part).Faithful (.leaf source part) := by
  intro session position
  simp only [Watched.leaf, Matcher.leaf]
  cases part.apply source session.context position with
  | error cause => exact .inl ⟨cause, rfl, rfl⟩
  | ok outcome => exact .inr ⟨outcome, session, _, rfl, rfl, rfl, by simp [Sighting.Under]⟩

theorem Faithful.unfinished (faithful : watched.Faithful matcher) (size : Nat) :
    (watched.unfinished size).Faithful (matcher.unfinished size) := by
  intro session position
  by_cases inside : position < size
  · simpa only [Watched.unfinished, Matcher.unfinished, if_pos inside] using
      faithful session position
  · simp only [Watched.unfinished, Matcher.unfinished, if_neg inside]
    exact .inr ⟨_, session, [], rfl, rfl, rfl, by simp⟩

theorem Faithful.revised (faithful : watched.Faithful matcher)
    (judge : Nat → α → Nat → Outcome β) :
    (watched.revised judge).Faithful (matcher.revised judge) := by
  intro session position
  simp only [Watched.revised, Matcher.revised]
  obtain ⟨cause, stops, stops'⟩ | ⟨outcome, after, sightings, runs, runs', balanced, seen⟩ :=
    faithful session position
  · rw [stops, stops']
    exact .inl ⟨cause, rfl, rfl⟩
  · rw [runs, runs']
    exact .inr ⟨_, after, sightings, rfl, rfl, balanced, seen⟩

/-- What is seen in a sequence is seen in one of its two parts, and both start with
the same labels. -/
theorem Faithful.flatMap {next : α → Watched β} {nextMatcher : α → Matcher β}
    (faithful : watched.Faithful matcher)
    (faithfulNext : ∀ value, (next value).Faithful (nextMatcher value)) :
    (watched.flatMap next).Faithful (matcher.flatMap nextMatcher) := by
  intro session position
  simp only [Watched.flatMap, Matcher.flatMap]
  obtain ⟨cause, stops, stops'⟩ |
    ⟨⟨value, stop⟩ | failures, between, sightings, runs, runs', balanced, seen⟩ :=
    faithful session position
  · rw [stops, stops']
    exact .inl ⟨cause, rfl, rfl⟩
  · rw [runs, runs']
    exact (faithfulNext value between stop).after balanced seen
  · rw [runs, runs']
    exact .inr ⟨_, between, sightings, rfl, rfl, balanced, seen⟩

theorem Faithful.path (faithful : watched.Faithful matcher) (label : String) :
    (watched.path label).Faithful (matcher.path label) := by
  intro session position
  simp only [Watched.path, Matcher.path]
  obtain ⟨cause, stops, stops'⟩ | ⟨outcome, after, sightings, runs, runs', balanced, seen⟩ :=
    faithful (session.enter label).2 position
  · rw [stops, stops']
    exact .inl ⟨cause, rfl, rfl⟩
  · rw [runs, runs']
    refine .inr ⟨_, _, _, rfl, rfl, Session.context_release_enter balanced, ?_⟩
    exact List.forall_mem_map.mpr fun sighting occurs => (seen sighting occurs).inside

theorem Faithful.traced (faithful : watched.Faithful matcher) (verbosity : Verbosity)
    (label : String) :
    (watched.traced verbosity label).Faithful (matcher.traced verbosity label) := by
  intro session position
  simp only [Watched.traced, Matcher.traced]
  obtain ⟨cause, stops, stops'⟩ | ⟨outcome, after, sightings, runs, runs', balanced, seen⟩ :=
    faithful ((session.enter label).2.record verbosity
      (.trying (session.enter label).2.context.path position)) position
  · rw [stops, stops']
    exact .inl ⟨cause, rfl, rfl⟩
  · rw [Session.context_record] at balanced seen
    rw [runs, runs']
    refine .inr ⟨outcome, _, _, rfl, rfl, ?_, ?_⟩
    · exact Session.context_release_enter (by rw [Session.context_record, balanced])
    · exact List.forall_mem_map.mpr fun sighting occurs => (seen sighting occurs).inside

/-- The second alternative starts with the labels that the first one started with. -/
theorem Faithful.orElse (faithful : watched.Faithful matcher)
    (faithfulOther : other.Faithful otherMatcher) :
    (watched.orElse other).Faithful (matcher.orElse otherMatcher) := by
  intro session position
  simp only [Watched.orElse, Matcher.orElse]
  obtain ⟨cause, stops, stops'⟩ | ⟨kept, between, sightings, runs, runs', balanced, seen⟩ :=
    faithful session position
  · rw [stops, stops']
    exact .inl ⟨cause, rfl, rfl⟩
  · rw [runs, runs']
    simp only [bind, Except.bind]
    obtain ⟨cause, stops, stops'⟩ | ⟨outcome, after, more, goesOn, goesOn', balanced', seen'⟩ :=
      faithfulOther between position
    · rw [stops, stops']
      exact .inl ⟨cause, rfl, rfl⟩
    · rw [goesOn, goesOn']
      refine .inr ⟨_, after, _, rfl, rfl, balanced'.trans balanced, ?_⟩
      rw [balanced] at seen'
      exact List.forall_mem_append.mpr ⟨seen, seen'⟩

/-- Every attempt of a repetition starts with the labels that the first one started
with. -/
theorem Faithful.repeatFrom {bounds : Bounds} {item next : Watched α}
    {itemMatcher nextMatcher : Matcher α} (faithful : item.Faithful itemMatcher)
    (faithfulNext : next.Faithful nextMatcher) (fold : β → α → β) (steps count : Nat)
    (acc : β) :
    (Watched.repeatFrom bounds item next fold steps count acc).Faithful
      (.repeatFrom bounds itemMatcher nextMatcher fold steps count acc) := by
  induction steps generalizing count acc with
  | zero => exact fun _ _ => .inl ⟨_, rfl, rfl⟩
  | succ steps ih =>
      intro session position
      have attempt : (if count = 0 then item else next).Faithful
          (if count = 0 then itemMatcher else nextMatcher) := by
        split <;> assumption
      simp only [Watched.repeatFrom, Matcher.repeatFrom]
      by_cases full : bounds.ceiling = some count
      · simp only [if_pos full]
        exact .inr ⟨_, session, [], rfl, rfl, rfl, by simp⟩
      · simp only [if_neg full]
        obtain ⟨cause, stops, stops'⟩ |
          ⟨⟨value, stop⟩ | failures, between, sightings, runs, runs', balanced, seen⟩ :=
          attempt session position
        · rw [stops, stops']
          exact .inl ⟨cause, rfl, rfl⟩
        · rw [runs, runs']
          exact (ih (count + 1) (fold acc value) between stop).after balanced seen
        · rw [runs, runs']
          simp only [bind, Except.bind]
          by_cases short : count < bounds.floor
          · simp only [if_pos short]
            exact .inr ⟨_, between, sightings, rfl, rfl, balanced, seen⟩
          · simp only [if_neg short]
            exact .inr ⟨_, between, sightings, rfl, rfl, balanced, seen⟩

theorem Faithful.framed (choose : Cells → Nat × Cells) {watched : Nat → Watched α}
    {matcher : Nat → Matcher α}
    (faithful : ∀ frame, (watched frame).Faithful (matcher frame)) :
    (Watched.framed choose watched).Faithful (.framed choose matcher) :=
  fun session position =>
    faithful (choose session.cells).1 { session with cells := (choose session.cells).2 }
      position

end Watched

namespace Rule

variable {input : Input N ε} {Γ : List Type} {α : Type}

/-- The step of the induction: if watching is faithful for the rules that references
and names lead to, it is for the rules that mention them. -/
theorem faithful_watch {again : Watching N ε} {again' : Interpretation N ε}
    (faithful : ∀ {Γ : List Type} {α : Type} (rule : Rule N ε Γ α) (env : Env N ε Γ)
      (frame : Nat), (again rule env frame).Faithful (again' rule env frame))
    (steps : Nat) (rule : Rule N ε Γ α) (env : Env N ε Γ) (frame : Nat) :
    (rule.watch input again steps env frame).Faithful
      (rule.interpret input again' steps env frame) := by
  induction rule generalizing frame with
  | leaf part => exact .leaf input.source part
  | unfinished rule ih => exact (ih env frame).unfinished input.source.size
  | map f rule ih =>
      show Watched.Faithful _ (Matcher.map f _)
      rw [Matcher.map_eq_revised]
      exact (ih env frame).revised _
  | flatMap rule next ih ihNext =>
      exact (ih env frame).flatMap fun value => ihNext value env frame
  | thenWith combine rule next ih ihNext =>
      show Watched.Faithful _ (Matcher.thenWith combine _ _)
      rw [Matcher.thenWith_eq_flatMap]
      refine (ih env frame).flatMap fun value => ?_
      rw [Matcher.map_eq_revised]
      exact (ihNext env frame).revised _
  | nonEmpty rule ih =>
      show Watched.Faithful _ (Matcher.nonEmpty _)
      rw [Matcher.nonEmpty_eq_revised]
      exact (ih env frame).revised _
  | path label rule ih => exact (ih env frame).path label
  | traced label rule ih => exact (ih env frame).traced input.verbosity label
  | orElse rule other ih ihOther => exact (ih env frame).orElse (ihOther env frame)
  | slice rule ih =>
      show Watched.Faithful _ (Matcher.slice _ _)
      rw [Matcher.slice_eq_revised]
      exact (ih env frame).revised _
  | spanned rule ih =>
      show Watched.Faithful _ (Matcher.spanned _)
      rw [Matcher.spanned_eq_revised]
      exact (ih env frame).revised _
  | repeated bounds separator item init fold ihSeparator ihItem =>
      refine (ihItem env frame).repeatFrom ?_ fold steps 0 init
      rw [Matcher.thenWith_eq_flatMap]
      refine (ihSeparator env frame).flatMap fun _ => ?_
      rw [Matcher.map_eq_revised]
      exact (ihItem env frame).revised _
  | deferred number name =>
      show Watched.Faithful (again.deferred _ _ _) (again'.deferred _ _ _)
      cases found : input.grammar name with
      | error cause =>
          rw [Interpretation.deferred_eq_halted _ found, Watching.deferred, found]
          exact .halted _
      | ok rule =>
          rw [Interpretation.deferred_eq_framed _ found, Watching.deferred, found]
          exact .framed _ fun frame => faithful rule .nil frame
  | delayed number rule ih => exact .framed _ fun _ => ih env frame
  | fresh rule ih => exact .framed Cells.openFrame fun frame => ih env frame
  | reference place =>
      show Watched.Faithful (again.reference _ _) (again'.reference _ _)
      unfold Watching.reference Interpretation.reference
      cases env.lookup place with
      | undefined => exact .refuse _
      | rule body inner frame => exact faithful body inner frame
      | dropped => exact .refuse _
  | recursive body ih => exact ih _ frame

/-- Watching does not change what a rule does, and leaves see the labels around
them. -/
theorem faithful_applyWatched (input : Input N ε) (steps : Nat) (rule : Rule N ε Γ α)
    (env : Env N ε Γ) (frame : Nat) :
    (applyWatched input steps rule env frame).Faithful
      (apply input steps rule env frame) := by
  induction steps generalizing Γ α frame with
  | zero => exact .halted _
  | succ steps ih => exact faithful_watch ih (steps + 1) rule env frame

/-- Rules are applied one after the other in one parse, each with an outcome. The
session goes from the first to the last. -/
inductive AppliedInTurn (input : Input N ε) (first : Session) : Session → Prop
  | none : AppliedInTurn input first first
  | more {Γ : List Type} {α : Type} {rule : Rule N ε Γ α} {env : Env N ε Γ}
      {steps frame position : Nat} {outcome : Outcome α} {between last : Session}
      (before : AppliedInTurn input first between)
      (applied : apply input steps rule env frame between position = .ok (outcome, last)) :
      AppliedInTurn input first last

/-- Rules applied in turn leave the active labels as they were. -/
theorem AppliedInTurn.context_eq {first last : Session}
    (applied : AppliedInTurn input first last) : last.context = first.context := by
  induction applied with
  | none => rfl
  | more _ applied ih => exact (context_of_apply applied).trans ih

/-- Reporting what leaves see does not change a run. Whatever its outcome, the stack
of labels is in the end what it was in the beginning, and every leaf applied during
the run saw that stack, followed by the labels of the named and traced rules around
the leaf. So a parse that starts with no label has none after any number of
applications. -/
theorem leaves_see_labels_around (input : Input N ε) :
    (∀ {Γ : List Type} {α : Type} (rule : Rule N ε Γ α) (env : Env N ε Γ)
      (steps frame : Nat),
      (applyWatched input steps rule env frame).unwatched =
          apply input steps rule env frame ∧
        ∀ session position outcome after sightings,
          applyWatched input steps rule env frame session position =
              .ok (outcome, after, sightings) →
            after.context = session.context ∧
              ∀ sighting ∈ sightings,
                sighting.seen = session.context.path ++ sighting.labels) ∧
    ∀ first last, AppliedInTurn input first last → first.context = ∅ →
      last.context = ∅ := by
  refine ⟨fun rule env steps frame => ⟨?_, ?_⟩, ?_⟩
  · funext session position
    obtain ⟨cause, stops, stops'⟩ | ⟨outcome, after, sightings, runs, runs', _⟩ :=
      faithful_applyWatched input steps rule env frame session position
    · rw [Watched.unwatched, stops, stops']
      rfl
    · rw [Watched.unwatched, runs, runs']
      rfl
  · intro session position outcome after sightings watched
    obtain ⟨cause, stops, _⟩ | ⟨_, _, _, runs, _, balanced, seen⟩ :=
      faithful_applyWatched input steps rule env frame session position
    · rw [stops] at watched
      cases watched
    · rw [runs] at watched
      cases watched
      exact ⟨balanced, seen⟩
  · intro first last applied inactive
    exact applied.context_eq.trans inactive

/-- Accept with the active labels. -/
def observe {N : Nonterminals} {Γ : List Type} : Rule N Int Γ (List String) :=
  custom fun _ context position => .accepted context.path position

/-- As many `0` as there are and a `1` behind them, with the labels that are active
there. In front of every `0` the labels are looked at in vain. -/
def observedRow : Rule .none Int [] (List String) :=
  .recursive (.path "row" (.orElse
    (.traced "end" (.thenWith (fun seen _ => seen) observe (nextIf (· = 1))))
    (.thenWith (fun _ seen => seen) (nextIf (· = 0)) (.reference .here))))

/-- Of the six leaves applied, three are part of alternatives that lose. -/
theorem observedRow_sees_labels_around :
    let start : Session := { Session.initial with context := ⟨#["start"]⟩ }
    let sightings : List Sighting :=
      [⟨["row", "end"], ["start", "row", "end"]⟩, ⟨["row", "end"], ["start", "row", "end"]⟩,
        ⟨["row"], ["start", "row"]⟩,
        ⟨["row", "row", "end"], ["start", "row", "row", "end"]⟩,
        ⟨["row", "row", "end"], ["start", "row", "row", "end"]⟩,
        ⟨["row", "row"], ["start", "row", "row"]⟩]
    applyWatched ⟨#[0, 1], .empty, .off⟩ 2 observedRow .nil 0 start 0 =
        .ok (.accepted ["start", "row", "row", "end"] 2, start, sightings) ∧
      ∀ sighting ∈ sightings, sighting.seen = ["start"] ++ sighting.labels := by
  intro start sightings
  have watched : applyWatched ⟨#[0, 1], .empty, .off⟩ 2 observedRow .nil 0 start 0 =
      .ok (.accepted ["start", "row", "row", "end"] 2, start, sightings) := rfl
  exact ⟨watched, (((leaves_see_labels_around _).1 _ _ _ _).2 _ _ _ _ _ watched).2⟩

end Rule

end Rulebook
