/-
# Matchers

A matcher is what a rule means for one source: a function from a session and a
position to an outcome and the session afterwards. This module holds the ways
to combine matchers. Each of them says in which order its parts are applied,
where failures arise, and what happens to the session; the constructors of
rules are interpreted by these combinations and by nothing else.
-/

import Rulebook.Bounds
import Rulebook.Leaf
import Rulebook.Session

namespace Rulebook

/-- What a rule means for a fixed source. -/
abbrev Matcher (α : Type) :=
  Session → Nat → Except Halt (Outcome α × Session)

/-- A value with the positions between which it was found. -/
structure Spanned (α : Type) where
  value : α
  start : Nat
  stop : Nat
  deriving DecidableEq, Inhabited, Repr

namespace Matcher

variable {ε α β γ : Type}

/-- Never has an outcome, for the given reason. -/
def halted (cause : Halt) : Matcher α :=
  fun _ _ => .error cause

/-- Rejects everywhere with the same message. -/
def refuse (message : String) : Matcher α :=
  fun session position => .ok (.reject message position, session)

def leaf (source : Array ε) (leaf : Leaf ε α) : Matcher α :=
  fun session position => do
    let outcome ← leaf.apply source session.context position
    return (outcome, session)

/-- Rejects without applying the matcher where no element is left. -/
def unfinished (size : Nat) (matcher : Matcher α) : Matcher α :=
  fun session position =>
    if position < size then matcher session position
    else .ok (.reject (outOfRange size position) position, session)

def map (f : α → β) (matcher : Matcher α) : Matcher β :=
  fun session position => do
    let (outcome, session) ← matcher session position
    return (outcome.map f, session)

/-- Continue with the matcher that the accepted value leads to. -/
def flatMap (matcher : Matcher α) (next : α → Matcher β) : Matcher β :=
  fun session position => do
    match ← matcher session position with
    | (.accepted value stop, session) => next value session stop
    | (.rejected failures, session) => return (.rejected failures, session)

/-- Apply two matchers one after the other and combine their values. The
second one is not applied if the first one rejects. -/
def thenWith (combine : α → β → γ) (matcher : Matcher α)
    (next : Matcher β) : Matcher γ :=
  fun session position => do
    match ← matcher session position with
    | (.accepted value stop, session) =>
      let (outcome, session) ← next session stop
      return (outcome.map (combine value), session)
    | (.rejected failures, session) => return (.rejected failures, session)

/-- Rejects an acceptance that did not move the cursor forward. -/
def nonEmpty (matcher : Matcher α) : Matcher α :=
  fun session position => do
    match ← matcher session position with
    | (.accepted value stop, session) =>
      if stop ≤ position then
        return (.reject "rule succeeded but consumed no input" position,
          session)
      else return (.accepted value stop, session)
    | (.rejected failures, session) => return (.rejected failures, session)

/-- Labels the failures. The label stands on the stack during the
application. -/
def path (label : String) (matcher : Matcher α) : Matcher α :=
  fun session position => do
    let (guard, session) := session.enter label
    let (outcome, session) ← matcher session position
    return (outcome.withPath label, session.release guard)

/-- The record that closes a traced application. -/
def closing (label : String) (position : Nat) : Outcome α → Record
  | .accepted _ stop => .matched label position stop
  | .rejected failures => .rejected label position failures.length

/-- Reports the application in the trace. The label stands on the stack
during the application; the outcome stays as it is. -/
def traced (verbosity : Verbosity) (label : String) (matcher : Matcher α) :
    Matcher α :=
  fun session position => do
    let (guard, session) := session.enter label
    let session :=
      session.record verbosity (.trying session.context.path position)
    let (outcome, session) ← matcher session position
    let session := session.record verbosity (closing label position outcome)
    return (outcome, session.release guard)

/-- Apply the matcher of a rule in the frame that `choose` finds or opens. -/
def framed (choose : Cells → Nat × Cells) (matcher : Nat → Matcher α) :
    Matcher α :=
  fun session position =>
    let (frame, cells) := choose session.cells
    matcher frame { session with cells } position

/-- Apply both matchers at the same position, the second one also if the
first one accepts, and keep the better outcome. -/
def orElse (matcher other : Matcher α) : Matcher α :=
  fun session position => do
    let (outcome, session) ← matcher session position
    let (candidate, session) ← other session position
    return (outcome.best candidate, session)

/-- The elements between the cursor and the position where the matcher
stopped, in place of its value. -/
def slice (source : Array ε) (matcher : Matcher α) : Matcher (Array ε) :=
  fun session position => do
    match ← matcher session position with
    | (.accepted _ stop, session) =>
      match span? source position stop with
      | some elements => return (.accepted elements stop, session)
      | none =>
        return (.reject (outOfRange source.size stop) position, session)
    | (.rejected failures, session) => return (.rejected failures, session)

def spanned (matcher : Matcher α) : Matcher (Spanned α) :=
  fun session position => do
    match ← matcher session position with
    | (.accepted value stop, session) =>
      return (.accepted ⟨value, position, stop⟩ stop, session)
    | (.rejected failures, session) => return (.rejected failures, session)

/-- Go on with a repetition that has `count` matches so far, folded into
`acc`. At the ceiling nothing more is attempted; a rejection below the floor
is the rejection of the whole, and any later one ends the repetition where
the last match stopped. -/
def repeatFrom (bounds : Bounds) (item next : Matcher α) (fold : β → α → β) :
    (steps count : Nat) → (acc : β) → Matcher β
  | 0, _, _, _, _ => .error .exhausted
  | steps + 1, count, acc, session, position =>
    if bounds.ceiling = some count then
      .ok (.accepted acc position, session)
    else
      match (if count = 0 then item else next) session position with
      | .error cause => .error cause
      | .ok (.accepted value stop, session) =>
        repeatFrom bounds item next fold steps (count + 1) (fold acc value)
          session stop
      | .ok (.rejected failures, session) =>
        if count < bounds.floor then .ok (.rejected failures, session)
        else .ok (.accepted acc position, session)

/-- Match `item` again and again, `separator` between two matches, and fold
the values. -/
def repeated (bounds : Bounds) (separator : Matcher Unit) (item : Matcher α)
    (init : β) (fold : β → α → β) (steps : Nat) : Matcher β :=
  repeatFrom bounds item (separator.thenWith (fun _ value => value) item)
    fold steps 0 init

end Matcher

end Rulebook
