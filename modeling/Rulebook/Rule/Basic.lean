/-
# Rules

A rule describes what to match and which value a match has. Rules are data:
a tree of combinators over leaves, in which only the functions that work on
values (mapping, combining, folding, and the continuation of `flatMap`) are
opaque. What a rule does to a source is said in `Rulebook.Rule.Apply`.

A rule may mention two kinds of rules that are defined elsewhere. A deferred
rule is named in a grammar and built on first use, which is how definitions
refer to each other. A reference points at one of the recursive rules around
it; `Γ` lists the types of their values, innermost first, so that a rule
without open references has the type `Rule N ε [] α`. A delayed rule is built
on first use too, but it stands where it is used, so it may mention whatever
is known there: the recursive rules around, and rules that are deferred or
delayed outside of it.
-/

import Rulebook.Matcher

namespace Rulebook

/-- The names of deferred rules, each with the type of its values. -/
structure Nonterminals where
  Name : Type
  Value : Name → Type

/-- There are no deferred rules. -/
def Nonterminals.none : Nonterminals := ⟨Empty, Empty.elim⟩

/-- A place in a list of types at which the type `α` stands. -/
inductive Member (α : Type) : List Type → Type 1
  | here {Γ : List Type} : Member α (α :: Γ)
  | there {β : Type} {Γ : List Type} (place : Member α Γ) : Member α (β :: Γ)

/-- A rule over elements of type `ε` with values of type `α`, inside of
recursive rules with values of the types `Γ`. -/
inductive Rule (N : Nonterminals) (ε : Type) : List Type → Type → Type 1
  | leaf {Γ : List Type} {α : Type} (leaf : Leaf ε α) : Rule N ε Γ α
  /-- Reject, without applying the rule, where no element is left. -/
  | unfinished {Γ : List Type} {α : Type} (rule : Rule N ε Γ α) : Rule N ε Γ α
  | map {Γ : List Type} {α β : Type} (f : α → β) (rule : Rule N ε Γ α) :
      Rule N ε Γ β
  /-- Go on with the rule that the value leads to. -/
  | flatMap {Γ : List Type} {α β : Type} (rule : Rule N ε Γ α)
      (next : α → Rule N ε Γ β) : Rule N ε Γ β
  /-- Two rules in sequence, with their values combined. -/
  | thenWith {Γ : List Type} {α β γ : Type} (combine : α → β → γ)
      (rule : Rule N ε Γ α) (next : Rule N ε Γ β) : Rule N ε Γ γ
  /-- Reject an acceptance that does not move the cursor forward. -/
  | nonEmpty {Γ : List Type} {α : Type} (rule : Rule N ε Γ α) : Rule N ε Γ α
  /-- Put a label on every failure. -/
  | path {Γ : List Type} {α : Type} (label : String) (rule : Rule N ε Γ α) :
      Rule N ε Γ α
  /-- Report every application in the trace. -/
  | traced {Γ : List Type} {α : Type} (label : String) (rule : Rule N ε Γ α) :
      Rule N ε Γ α
  /-- The alternative that reaches further. -/
  | orElse {Γ : List Type} {α : Type} (rule other : Rule N ε Γ α) :
      Rule N ε Γ α
  /-- The consumed elements in place of the value. -/
  | slice {Γ : List Type} {α : Type} (rule : Rule N ε Γ α) :
      Rule N ε Γ (Array ε)
  /-- The value together with the positions it was found between. -/
  | spanned {Γ : List Type} {α : Type} (rule : Rule N ε Γ α) :
      Rule N ε Γ (Spanned α)
  /-- Match a rule again and again, a separator between two matches. -/
  | repeated {Γ : List Type} {α β : Type} (bounds : Bounds)
      (separator : Rule N ε Γ Unit) (item : Rule N ε Γ α) (init : β)
      (fold : β → α → β) : Rule N ε Γ β
  /-- The rule that a grammar gives for a name, kept in cell `number` of the
  frame around it once it is built. -/
  | deferred {Γ : List Type} (number : Nat) (name : N.Name) :
      Rule N ε Γ (N.Value name)
  /-- A rule that is built when it is first applied, which is noted in cell
  `number` of the frame around it. The deferred parts that are made then have
  cells in the same frame. -/
  | delayed {Γ : List Type} {α : Type} (number : Nat) (rule : Rule N ε Γ α) :
      Rule N ε Γ α
  /-- A rule whose deferred parts are new at every application. -/
  | fresh {Γ : List Type} {α : Type} (rule : Rule N ε Γ α) : Rule N ε Γ α
  /-- One of the recursive rules around. -/
  | reference {Γ : List Type} {α : Type} (place : Member α Γ) : Rule N ε Γ α
  /-- A rule that may refer to itself. -/
  | recursive {Γ : List Type} {α : Type} (body : Rule N ε (α :: Γ) α) :
      Rule N ε Γ α

/-- What the names of deferred rules stand for. A definition may fail; that
matters only once it is needed. -/
abbrev Grammar (N : Nonterminals) (ε : Type) : Type 1 :=
  (name : N.Name) → Except DefinitionError (Rule N ε [] (N.Value name))

/-- The grammar without deferred rules. -/
def Grammar.empty {ε : Type} : Grammar .none ε :=
  fun name => nomatch name

end Rulebook
