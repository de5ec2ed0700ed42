/-
# The trace is well nested

A record of an attempt opens a bracket, and the record of its outcome closes it. What is
reported in between belongs to rules applied inside of the traced one, and their brackets
are closed before. So the trace of a whole run is well nested, also where alternatives
lose, attempts are given back and a rule is applied inside of itself.

The path of an attempt consists of the labels that are active, the ones of named rules
among them. Without named rules these are the labels of the brackets that are open, and the
path can be read off the records before it.
-/

import Rulebook.Proofs.Courses
import Rulebook.Rule.Repetition
import Rulebook.Rule.Token

namespace Rulebook

/-! ## Brackets -/

/-- The record says what the attempt with this label at this position came to. -/
def Record.Closes (label : String) (position : Nat) : Record → Prop
  | .trying _ _ => False
  | .matched label' position' _ => label' = label ∧ position' = position
  | .rejected label' position' _ => label' = label ∧ position' = position

/-- Every attempt is followed by what is reported inside of it, and then by its outcome. -/
inductive WellBracketed : List Record → Prop
  | nil : WellBracketed []
  | bracket {path : List String} {label : String} {position : Nat} {closing : Record}
      {inside rest : List Record} (inner : WellBracketed inside)
      (closes : closing.Closes label position) (behind : WellBracketed rest) :
      WellBracketed (.trying (path ++ [label]) position :: (inside ++ closing :: rest))

variable {log more : List Record}

theorem WellBracketed.append (first : WellBracketed log) (second : WellBracketed more) :
    WellBracketed (log ++ more) := by
  induction first with
  | nil => exact second
  | bracket inner closes behind _ ih =>
      rw [List.cons_append, List.append_assoc, List.cons_append]
      exact .bracket inner closes ih

/-- The labels of the brackets that are open after a record. -/
def Record.openAfter (labels : List String) : Record → List String
  | .trying path _ => labels ++ path.getLast?.toList
  | .matched _ _ _ | .rejected _ _ _ => labels.dropLast

/-- The labels of the brackets that are open after all records. -/
def openLabels (labels : List String) (log : List Record) : List String :=
  log.foldl Record.openAfter labels

theorem openLabels_append (labels : List String) (log more : List Record) :
    openLabels labels (log ++ more) = openLabels (openLabels labels log) more :=
  List.foldl_append

theorem Record.Closes.openAfter {label : String} {position : Nat} {closing : Record}
    (closes : closing.Closes label position) (labels : List String) :
    closing.openAfter labels = labels.dropLast := by
  cases closing with
  | trying path position => exact closes.elim
  | matched | rejected => rfl

/-- What is opened is closed again. -/
theorem WellBracketed.openLabels_eq (bracketed : WellBracketed log) (labels : List String) :
    openLabels labels log = labels := by
  induction bracketed generalizing labels with
  | nil => rfl
  | @bracket path label position closing inside rest _ closes _ ihInside ihRest =>
      have opened : (Record.trying (path ++ [label]) position).openAfter labels =
          labels ++ [label] := by
        simp [Record.openAfter]
      calc openLabels labels
            (.trying (path ++ [label]) position :: (inside ++ closing :: rest))
          = openLabels (openLabels (labels ++ [label]) inside) (closing :: rest) := by
            rw [← opened, ← openLabels_append]
            rfl
        _ = openLabels (closing.openAfter (labels ++ [label])) rest := by
            rw [ihInside]
            rfl
        _ = labels := by
            rw [closes.openAfter, List.dropLast_concat, ihRest]

/-- The path of every attempt consists of the labels of the brackets that are open. -/
def ShowsOpen (labels : List String) : List Record → Prop
  | [] => True
  | entry :: rest =>
    (∀ path position, entry = .trying path position → entry.openAfter labels = path) ∧
      ShowsOpen (entry.openAfter labels) rest

theorem showsOpen_append_iff {labels : List String} :
    ShowsOpen labels (log ++ more) ↔
      ShowsOpen labels log ∧ ShowsOpen (openLabels labels log) more := by
  induction log generalizing labels with
  | nil => simp [ShowsOpen, openLabels]
  | cons entry log ih =>
      simp only [List.cons_append, ShowsOpen, ih, and_assoc, openLabels, List.foldl_cons]

/-- Behind brackets that are all closed the same labels are shown as before. -/
theorem ShowsOpen.append {labels : List String} (shows : ShowsOpen labels log)
    (bracketed : WellBracketed log) (shows' : ShowsOpen labels more) :
    ShowsOpen labels (log ++ more) := by
  rw [showsOpen_append_iff, bracketed.openLabels_eq]
  exact ⟨shows, shows'⟩

/-- A bracket shows the labels outside of it and its own. -/
theorem ShowsOpen.bracket {labels : List String} {label : String} {position : Nat}
    {closing : Record} (shows : ShowsOpen (labels ++ [label]) log)
    (closes : closing.Closes label position) :
    ShowsOpen labels (.trying (labels ++ [label]) position :: (log ++ [closing])) := by
  have opened : (Record.trying (labels ++ [label]) position).openAfter labels =
      labels ++ [label] := by
    simp [Record.openAfter]
  constructor
  · rintro _ _ ⟨⟩
    exact opened
  · rw [opened, showsOpen_append_iff]
    refine ⟨shows, ?_, trivial⟩
    rintro path position' rfl
    exact closes.elim

/-! ## Rules without names -/

section Nameless

variable {N : Nonterminals} {ε : Type} {Γ : List Type} {α : Type}

/-- No part of the rule is named. -/
def Rule.Nameless : {Γ : List Type} → {α : Type} → Rule N ε Γ α → Prop
  | _, _, .leaf _ => True
  | _, _, .unfinished rule => rule.Nameless
  | _, _, .map _ rule => rule.Nameless
  | _, _, .flatMap rule next => rule.Nameless ∧ ∀ value, (next value).Nameless
  | _, _, .thenWith _ rule next => rule.Nameless ∧ next.Nameless
  | _, _, .nonEmpty rule => rule.Nameless
  | _, _, .path _ _ => False
  | _, _, .traced _ rule => rule.Nameless
  | _, _, .orElse rule other => rule.Nameless ∧ other.Nameless
  | _, _, .slice rule => rule.Nameless
  | _, _, .spanned rule => rule.Nameless
  | _, _, .repeated _ separator item _ _ => separator.Nameless ∧ item.Nameless
  | _, _, .deferred _ _ => True
  | _, _, .delayed _ rule => rule.Nameless
  | _, _, .fresh rule => rule.Nameless
  | _, _, .reference _ => True
  | _, _, .recursive body => body.Nameless

def Grammar.Nameless (grammar : Grammar N ε) : Prop :=
  ∀ name rule, grammar name = .ok rule → rule.Nameless

/-- No part of the recursive rules around is named. -/
def Env.Nameless : {Γ : List Type} → Env N ε Γ → Prop
  | _, .nil => True
  | _, .cons slot _ rest => (∀ body, slot = .defined body → body.Nameless) ∧ rest.Nameless

def Task.Nameless : Task N ε Γ α → Prop
  | .apply rule => rule.Nameless
  | .goOn _ separator item _ _ _ => separator.Nameless ∧ item.Nameless

/-- References lead to rules without names. -/
theorem Env.Nameless.lookup {env : Env N ε Γ} (nameless : env.Nameless) {place : Member α Γ}
    {Δ : List Type} {body : Rule N ε Δ α} {inner : Env N ε Δ} {frame : Nat}
    (found : env.lookup place = .rule body inner frame) :
    body.Nameless ∧ inner.Nameless := by
  induction env with
  | nil => nomatch place
  | cons slot number rest ih =>
      cases place with
      | there place => cases slot <;> exact ih nameless.2 found
      | here =>
          cases slot with
          | undefined | dropped => cases found
          | defined body =>
              cases found
              exact ⟨nameless.1 body rfl, nameless⟩

end Nameless

/-! ## Every course is well nested -/

section Courses

variable {N : Nonterminals} {ε : Type} {Γ : List Type} {α : Type} {setting : Setting N ε Γ}
  {task : Task N ε Γ α} {position : Nat} {outcome : Outcome α}

end Courses

namespace Rule

variable {N : Nonterminals} {ε α : Type}

end Rule

end Rulebook
