/-
# Applying rules

`Rule.apply` interprets a rule as a matcher. Structure is followed by
recursion on the rule; an allowance of steps bounds what structure does not:
how often references and deferred rules are followed one inside the other, and
how often an item is repeated. With a larger allowance an application that had
an outcome has the same one.
-/

import Rulebook.Rule.Basic

namespace Rulebook

variable {N : Nonterminals} {ε : Type}

/-- What is fixed while rules are applied. -/
structure Input (N : Nonterminals) (ε : Type) where
  source : Array ε
  grammar : Grammar N ε
  verbosity : Verbosity

/-- The state of a recursive rule, as its references see it. -/
inductive Slot (N : Nonterminals) (ε : Type) (Γ : List Type) (α : Type) :
    Type 1
  /-- The rule is still being defined. -/
  | undefined
  | defined (body : Rule N ε (α :: Γ) α)
  /-- Nothing holds the rule any more. -/
  | dropped

/-- The recursive rules around a rule, innermost first, each with the frame
that its deferred parts live in. -/
inductive Env (N : Nonterminals) (ε : Type) : List Type → Type 1
  | nil : Env N ε []
  | cons {Γ : List Type} {α : Type} (slot : Slot N ε Γ α) (frame : Nat)
      (rest : Env N ε Γ) : Env N ε (α :: Γ)

/-- What a reference leads to. -/
inductive Target (N : Nonterminals) (ε : Type) (α : Type) : Type 1
  | undefined
  | rule {Γ : List Type} (rule : Rule N ε Γ α) (env : Env N ε Γ) (frame : Nat)
  | dropped

/-- The rule at a place, together with the recursive rules around it, itself
included. -/
def Env.lookup {α : Type} : {Γ : List Type} → Env N ε Γ → Member α Γ →
    Target N ε α
  | _, .cons .undefined _ _, .here => .undefined
  | _, .cons (.defined body) frame rest, .here =>
    .rule body (.cons (.defined body) frame rest) frame
  | _, .cons .dropped _ _, .here => .dropped
  | _, .cons _ _ rest, .there place => rest.lookup place

/-- A way to interpret rules, each within the recursive rules around it and
in a frame. -/
abbrev Interpretation (N : Nonterminals) (ε : Type) : Type 1 :=
  {Γ : List Type} → {α : Type} → Rule N ε Γ α → Env N ε Γ → (frame : Nat) →
    Matcher α

namespace Interpretation

variable (again : Interpretation N ε)

/-- Follow a reference. -/
def reference {Γ : List Type} {α : Type} (env : Env N ε Γ)
    (place : Member α Γ) : Matcher α :=
  match env.lookup place with
  | .undefined => .refuse "recursive rule used before it was defined"
  | .rule rule env frame => again rule env frame
  | .dropped => .refuse "recursive rule used after it was dropped"

/-- Apply the rule of a cell, which is built now if the cell is empty. -/
def deferred (grammar : Grammar N ε) (cell : Cell) (name : N.Name) :
    Matcher (N.Value name) :=
  match grammar name with
  | .error cause => .halted (.malformed cause)
  | .ok rule => .framed (Cells.frameOf cell) (again rule .nil)

end Interpretation

namespace Rule

/-- Interpret a rule by its structure. `again` interprets the rules that
references and names lead to, and `steps` bounds every repetition. -/
def interpret (input : Input N ε) (again : Interpretation N ε) (steps : Nat) :
    {Γ : List Type} → {α : Type} → Rule N ε Γ α → Env N ε Γ → (frame : Nat) →
      Matcher α
  | _, _, .leaf part, _, _ => .leaf input.source part
  | _, _, .unfinished rule, env, frame =>
    .unfinished input.source.size (rule.interpret input again steps env frame)
  | _, _, .map f rule, env, frame =>
    .map f (rule.interpret input again steps env frame)
  | _, _, .flatMap rule next, env, frame =>
    .flatMap (rule.interpret input again steps env frame)
      fun value => (next value).interpret input again steps env frame
  | _, _, .thenWith combine rule next, env, frame =>
    .thenWith combine (rule.interpret input again steps env frame)
      (next.interpret input again steps env frame)
  | _, _, .nonEmpty rule, env, frame =>
    .nonEmpty (rule.interpret input again steps env frame)
  | _, _, .path label rule, env, frame =>
    .path label (rule.interpret input again steps env frame)
  | _, _, .traced label rule, env, frame =>
    .traced input.verbosity label (rule.interpret input again steps env frame)
  | _, _, .orElse rule other, env, frame =>
    .orElse (rule.interpret input again steps env frame)
      (other.interpret input again steps env frame)
  | _, _, .slice rule, env, frame =>
    .slice input.source (rule.interpret input again steps env frame)
  | _, _, .spanned rule, env, frame =>
    .spanned (rule.interpret input again steps env frame)
  | _, _, .repeated bounds separator item init fold, env, frame =>
    .repeated bounds (separator.interpret input again steps env frame)
      (item.interpret input again steps env frame) init fold steps
  | _, _, .deferred number name, _, frame =>
    again.deferred input.grammar ⟨frame, number⟩ name
  | _, _, .delayed number rule, env, frame =>
    .framed (Cells.frameOf ⟨frame, number⟩)
      fun _ => rule.interpret input again steps env frame
  | _, _, .fresh rule, env, _ =>
    .framed Cells.openFrame
      fun frame => rule.interpret input again steps env frame
  | _, _, .reference place, env, _ => again.reference env place
  | _, _, .recursive body, env, frame =>
    body.interpret input again steps (.cons (.defined body) frame env) frame

/-- Apply rules with an allowance of steps. -/
def apply (input : Input N ε) : (steps : Nat) → Interpretation N ε
  | 0 => fun _ _ _ => .halted .exhausted
  | steps + 1 => fun rule env frame =>
    rule.interpret input (apply input steps) (steps + 1) env frame

/-- Apply a rule without open references at a position, within a parse that
is already going on. -/
def applyAt (input : Input N ε) (steps : Nat) {α : Type}
    (rule : Rule N ε [] α) : Matcher α :=
  apply input steps rule .nil 0

/-- Apply a rule at a position of a new input: no label is active yet. -/
def runAt (input : Input N ε) (steps : Nat) {α : Type}
    (rule : Rule N ε [] α) : Matcher α :=
  fun session position =>
    rule.applyAt input steps session.withFreshContext position

/-- Apply a rule to a new input from its first element on. -/
def run (input : Input N ε) (steps : Nat) {α : Type} (rule : Rule N ε [] α)
    (session : Session) : Except Halt (Outcome α × Session) :=
  rule.runAt input steps session 0

end Rule

end Rulebook
