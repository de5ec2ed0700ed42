/-
# Rules do not look behind the cursor

In the middle of a source a rule comes to what it comes to at the start of the rest of
the source. All positions of the outcome are moved by what is left off, and so are those
that a message states about the end of the source. Otherwise messages are the same, and
so are the values, unless spans are recorded in them.

For values with spans in them there is a relation at every part of a rule, which says how
the values of the two runs correspond. The functions of the rule have to keep these
relations, as they do if they only carry spans along. Without spans the relations can all
be taken to be equality, which every function keeps. So the two cases are one.
-/

import Mathlib.Data.List.Forall2
import Rulebook.Proofs.Reach

namespace Rulebook

/-- The failures of a rule on the whole source and on the rest of it: the positions are
moved, and messages agree, or both state the end of their source. -/
structure Failure.Shifted (size shift : Nat) (far near : Failure) : Prop where
  path : far.path = near.path
  position : far.position = shift + near.position
  message : far.message = near.message ∨
    ∃ place, far.message = outOfRange size (shift + place) ∧
      near.message = outOfRange (size - shift) place

namespace Outcome

variable {α β : Type} {size shift : Nat}

/-- The outcomes of a rule on the whole source and on the rest of it: the positions are
moved and the values correspond. -/
inductive Shifted (size shift : Nat) (corresponds : α → α → Prop) :
    Outcome α → Outcome α → Prop
  | accepted {value value' : α} {stop : Nat} (carried : corresponds value value')
      (inside : shift + stop ≤ size) :
      Shifted size shift corresponds (.accepted value (shift + stop)) (.accepted value' stop)
  | rejected {failures failures' : Failures}
      (alike : List.Forall₂ (Failure.Shifted size shift) failures.toList
        failures'.toList) :
      Shifted size shift corresponds (.rejected failures) (.rejected failures')

variable {corresponds : α → α → Prop} {far near other other' : Outcome α}

theorem Shifted.mono {corresponds' : α → α → Prop}
    (shifted : far.Shifted size shift corresponds near)
    (weaker : ∀ value value', corresponds value value' → corresponds' value value') :
    far.Shifted size shift corresponds' near := by
  cases shifted with
  | accepted carried inside => exact .accepted (weaker _ _ carried) inside
  | rejected alike => exact .rejected alike

theorem shifted_reject (message : String) (position : Nat) :
    Shifted size shift corresponds (.reject message (shift + position))
      (.reject message position) :=
  .rejected (.cons ⟨rfl, rfl, .inl rfl⟩ .nil)

/-- Both messages state the end of their source. -/
theorem shifted_reject_outOfRange (place position : Nat) :
    Shifted size shift corresponds
      (.reject (outOfRange size (shift + place)) (shift + position))
      (.reject (outOfRange (size - shift) place) position) :=
  .rejected (.cons ⟨rfl, rfl, .inr ⟨place, rfl, rfl⟩⟩ .nil)

theorem Shifted.withPath (shifted : far.Shifted size shift corresponds near)
    (label : String) :
    (far.withPath label).Shifted size shift corresponds (near.withPath label) := by
  cases shifted with
  | accepted carried inside => exact .accepted carried inside
  | rejected alike =>
      refine .rejected ?_
      rw [Failures.toList_withPath, Failures.toList_withPath, List.forall₂_map_left_iff,
        List.forall₂_map_right_iff]
      refine alike.imp fun failure failure' same => ?_
      exact ⟨congrArg (label :: ·) same.path, same.position, same.message⟩

/-- Which of two outcomes is better does not depend on where the source starts. -/
theorem Shifted.best (shifted : far.Shifted size shift corresponds near)
    (shiftedOther : other.Shifted size shift corresponds other') :
    (far.best other).Shifted size shift corresponds (near.best other') := by
  cases shifted with
  | @accepted value value' stop carried inside =>
      cases shiftedOther with
      | @accepted found found' reach carried' inside' =>
          simp only [Outcome.best, Nat.add_le_add_iff_left]
          split
          · exact .accepted carried inside
          · exact .accepted carried' inside'
      | rejected => exact .accepted carried inside
  | rejected alike =>
      cases shiftedOther with
      | accepted carried' inside' => exact .accepted carried' inside'
      | rejected alike' =>
          refine .rejected ?_
          rw [Failures.toList_append, Failures.toList_append]
          exact List.rel_append alike alike'

end Outcome

/-- The spans recorded on the whole source and on the rest of it. -/
structure Spanned.Shifted {α : Type} (shift : Nat) (corresponds : α → α → Prop)
    (far near : Spanned α) : Prop where
  value : corresponds far.value near.value
  start : far.start = shift + near.start
  stop : far.stop = shift + near.stop

/-- Both runs are halted for the same reason, or their outcomes are shifted. -/
inductive EndShifted {α : Type} (size shift : Nat) (corresponds : α → α → Prop) :
    Except Halt (Outcome α × Session) → Except Halt (Outcome α × Session) → Prop
  | halted (cause : Halt) :
      EndShifted size shift corresponds (.error cause) (.error cause)
  | ended {far near : Outcome α} {after after' : Session}
      (shifted : far.Shifted size shift corresponds near) :
      EndShifted size shift corresponds (.ok (far, after)) (.ok (near, after'))

theorem EndShifted.mono {α : Type} {size shift : Nat}
    {corresponds corresponds' : α → α → Prop} {far near : Except Halt (Outcome α × Session)}
    (shifted : EndShifted size shift corresponds far near)
    (weaker : ∀ value value', corresponds value value' → corresponds' value value') :
    EndShifted size shift corresponds' far near := by
  cases shifted with
  | halted cause => exact .halted cause
  | ended same => exact .ended (same.mono weaker)

theorem EndShifted.bind {α β : Type} {size shift : Nat} {corresponds : α → α → Prop}
    {corresponds' : β → β → Prop} {far near : Except Halt (Outcome α × Session)}
    {next next' : Outcome α × Session → Except Halt (Outcome β × Session)}
    (first : EndShifted size shift corresponds far near)
    (second : ∀ outcome outcome' after after',
      outcome.Shifted size shift corresponds outcome' →
        EndShifted size shift corresponds' (next (outcome, after))
          (next' (outcome', after'))) :
    EndShifted size shift corresponds' (far >>= next) (near >>= next') := by
  cases first with
  | halted cause => exact .halted cause
  | ended shifted => exact second _ _ _ _ shifted

namespace Leaf

variable {ε α : Type} {source : Array ε} {shift position : Nat}

/-- A literal is so short that its end is a position wherever in a source of the given
size it stands. -/
def Fits (size : Nat) : Leaf ε α → Prop
  | .window count _ _ _ => size + count ≤ lastPosition
  | _ => True

/-- The values of a leaf of the library correspond to themselves. -/
def Carries (size : Nat) (corresponds : α → α → Prop) : Leaf ε α → Prop
  | .accept value => corresponds value value
  | .reject _ => True
  | .next read => ∀ element value, read element = .ok value → corresponds value value
  | .finish _ value => corresponds value value
  | .window count _ _ value => size + count ≤ lastPosition ∧ corresponds value value
  | .skipWhile _ value => corresponds value value
  | .custom _ => False

theorem carries_of_fits {size : Nat} {part : Leaf ε α} (standard : part.Standard)
    (fits : part.Fits size) {corresponds : α → α → Prop}
    (reflexive : ∀ value, corresponds value value) : part.Carries size corresponds := by
  cases part with
  | custom judge => exact standard.elim
  | reject message => trivial
  | accept value | finish describe value | skipWhile skips value => exact reflexive value
  | next read => exact fun _ value _ => reflexive value
  | window count agrees mismatch value => exact ⟨fits, reflexive value⟩

theorem getElem?_rest (source : Array ε) (shift position : Nat) :
    (source.extract shift source.size)[position]? = source[shift + position]? := by
  rw [Array.getElem?_extract]
  split
  · rfl
  · rw [eq_comm, Array.getElem?_eq_none_iff]
    omega

theorem size_rest (source : Array ε) (shift : Nat) :
    (source.extract shift source.size).size = source.size - shift := by
  simp

theorem lt_size_rest_iff :
    position < (source.extract shift source.size).size ↔ shift + position < source.size := by
  rw [size_rest]
  omega

/-- A scan of the rest of a source stops at the same element. -/
theorem scan_shifted (fits : source.size ≤ lastPosition) {skips : ε → Bool} {stop : Nat}
    (scanned : scan (source.extract shift source.size) skips position = .ok stop) :
    scan source skips (shift + position) = .ok (shift + stop) := by
  fun_induction scan (source.extract shift source.size) skips position with
  | case1 position inside skipped representable ih =>
      rw [lt_size_rest_iff] at inside
      rw [Array.getElem_extract] at skipped
      rw [scan, dif_pos inside, if_pos skipped, if_pos (Nat.lt_of_lt_of_le inside fits)]
      exact ih scanned
  | case2 => cases scanned
  | case3 position inside skipped =>
      rw [lt_size_rest_iff] at inside
      rw [Array.getElem_extract] at skipped
      cases scanned
      rw [scan, dif_pos inside, if_neg skipped]
  | case4 position behind =>
      rw [lt_size_rest_iff] at behind
      cases scanned
      rw [scan, dif_neg behind]

/-- The same elements lie between two positions of the rest of a source. -/
theorem span?_rest (within : shift ≤ source.size) (start stop : Nat) :
    span? (source.extract shift source.size) start stop =
      span? source (shift + start) (shift + stop) := by
  unfold span?
  rw [size_rest, Array.extract_extract]
  by_cases both : start ≤ stop ∧ stop ≤ source.size - shift
  · have inside : shift + stop ≤ source.size := by omega
    rw [if_pos both, if_pos ⟨by omega, inside⟩, Nat.min_eq_left inside]
  · rw [if_neg both, if_neg fun far => both ⟨by omega, by omega⟩]

variable {size : Nat} {corresponds : α → α → Prop}

/-- A comparison finds the same elements in the rest of a source. -/
theorem compare_shifted {count : Nat} (short : source.size + count ≤ lastPosition)
    {agrees : Array ε → Bool} {mismatch : Array ε → String} {value : α}
    (carried : corresponds value value) (inside : shift + position ≤ source.size) :
    (compare source count agrees mismatch value (shift + position)).Shifted source.size
      shift corresponds
      (compare (source.extract shift source.size) count agrees mismatch value position) := by
  have within : shift ≤ source.size := Nat.le_trans (Nat.le_add_right _ _) inside
  have following : (source.extract shift source.size).extract position
        (source.extract shift source.size).size =
      source.extract (shift + position) source.size := by
    rw [size_rest, Array.extract_extract, Nat.add_sub_cancel' within, Nat.min_self]
  unfold compare
  rw [if_pos (by omega), if_pos (by omega), span?_rest within, Nat.add_assoc, following]
  cases found : span? source (shift + position) (shift + (position + count)) with
  | none => exact Outcome.shifted_reject _ _
  | some elements =>
      simp only
      by_cases agreed : agrees elements
      · rw [if_pos agreed, if_pos agreed]
        exact .accepted carried (span?_eq_some_iff.mp found).1.2
      · rw [if_neg agreed, if_neg agreed]
        exact Outcome.shifted_reject _ _

/-- On the whole source and on the rest of it a leaf comes to shifted outcomes. -/
theorem exists_shifted {part : Leaf ε α} (fits : source.size ≤ lastPosition)
    (carries : part.Carries source.size corresponds)
    (inside : shift + position ≤ source.size) (context context' : Context) :
    ∃ far near, part.apply source context (shift + position) = .ok far ∧
      part.apply (source.extract shift source.size) context' position = .ok near ∧
      far.Shifted source.size shift corresponds near := by
  have restFits : (source.extract shift source.size).size ≤ lastPosition := by
    rw [size_rest]
    omega
  cases part with
  | custom judge => exact carries.elim
  | accept value => exact ⟨_, _, rfl, rfl, .accepted carries inside⟩
  | reject message => exact ⟨_, _, rfl, rfl, Outcome.shifted_reject message position⟩
  | window count agrees mismatch value =>
      exact ⟨_, _, rfl, rfl, compare_shifted carries.1 carries.2 inside⟩
  | skipWhile skips value =>
      obtain ⟨stop, scanned⟩ := exists_scan restFits skips position
      have between := (scan_between scanned).2
      rw [size_rest] at between
      refine ⟨.accepted value (shift + stop), .accepted value stop, ?_, ?_,
        .accepted carries (by omega)⟩
      · rw [apply, scan_shifted fits scanned]
        rfl
      · rw [apply, scanned]
        rfl
  | next read =>
      simp only [apply, getElem?_rest, size_rest]
      cases found : source[shift + position]? with
      | none => exact ⟨_, _, rfl, rfl, Outcome.shifted_reject_outOfRange _ _⟩
      | some element =>
          have next : shift + (position + 1) ≤ source.size :=
            (Array.getElem?_eq_some_iff.mp found).1
          simp only
          cases judged : read element with
          | error message => exact ⟨_, _, rfl, rfl, Outcome.shifted_reject message position⟩
          | ok value =>
              rw [advance_eq_ok (by omega), advance_eq_ok (by omega)]
              exact ⟨_, _, rfl, rfl, .accepted (carries element value judged) next⟩
  | finish describe value =>
      simp only [apply, getElem?_rest, size_rest]
      cases found : source[shift + position]? with
      | some element => exact ⟨_, _, rfl, rfl, Outcome.shifted_reject _ position⟩
      | none =>
          by_cases atEnd : shift + position = source.size
          · simp only [if_pos atEnd, if_pos (show position = source.size - shift by omega)]
            exact ⟨_, _, rfl, rfl, .accepted carries inside⟩
          · simp only [if_neg atEnd, if_neg (show position ≠ source.size - shift by omega)]
            exact ⟨_, _, rfl, rfl, Outcome.shifted_reject_outOfRange _ _⟩

end Leaf

namespace Matcher

variable {ε α β : Type} {size shift : Nat} {corresponds : α → α → Prop}
  {corresponds' : β → β → Prop} {far near other other' : Matcher α}

/-- From every position of the rest of a source on, both matchers end alike. -/
def Shifted (size shift : Nat) (corresponds : α → α → Prop) (far near : Matcher α) : Prop :=
  ∀ (session session' : Session) (position : Nat), shift + position ≤ size →
    EndShifted size shift corresponds (far session (shift + position))
      (near session' position)

theorem shifted_halted (cause : Halt) :
    Shifted size shift corresponds (halted cause) (halted cause) :=
  fun _ _ _ _ => .halted cause

theorem Shifted.mono {corresponds' : α → α → Prop}
    (shifted : Shifted size shift corresponds far near)
    (weaker : ∀ value value', corresponds value value' → corresponds' value value') :
    Shifted size shift corresponds' far near :=
  fun session session' position inside =>
    (shifted session session' position inside).mono weaker

theorem shifted_leaf {source : Array ε} (fits : source.size ≤ lastPosition)
    {part : Leaf ε α} (carries : part.Carries source.size corresponds) :
    Shifted source.size shift corresponds (leaf source part)
      (leaf (source.extract shift source.size) part) := by
  intro session session' position inside
  obtain ⟨outcome, outcome', applied, applied', shifted⟩ :=
    Leaf.exists_shifted fits carries inside session.context session'.context
  simp only [leaf, applied, applied']
  exact .ended shifted

theorem Shifted.unfinished (shifted : Shifted size shift corresponds far near) :
    Shifted size shift corresponds (far.unfinished size)
      (near.unfinished (size - shift)) := by
  intro session session' position inside
  unfold Matcher.unfinished
  by_cases element : shift + position < size
  · rw [if_pos element, if_pos (by omega)]
    exact shifted session session' position inside
  · rw [if_neg element, if_neg (by omega)]
    exact .ended (Outcome.shifted_reject_outOfRange position position)

/-- Acceptances are looked at again in the same way. -/
theorem Shifted.revised {judge judge' : Nat → α → Nat → Outcome β}
    (shifted : Shifted size shift corresponds far near)
    (judged : ∀ position value value' stop, corresponds value value' →
      shift + stop ≤ size →
      (judge (shift + position) value (shift + stop)).Shifted size shift corresponds'
        (judge' position value' stop)) :
    Shifted size shift corresponds' (far.revised judge) (near.revised judge') := by
  intro session session' position inside
  refine (shifted session session' position inside).bind fun _ _ after after' same => ?_
  cases same with
  | accepted carried within => exact .ended (judged position _ _ _ carried within)
  | rejected alike => exact .ended (.rejected alike)

theorem Shifted.map {f f' : α → β} (shifted : Shifted size shift corresponds far near)
    (respects : ∀ value value', corresponds value value' →
      corresponds' (f value) (f' value')) :
    Shifted size shift corresponds' (far.map f) (near.map f') := by
  rw [map_eq_revised, map_eq_revised]
  exact shifted.revised fun _ _ _ _ carried within =>
    .accepted (respects _ _ carried) within

/-- The check for progress compares positions that are moved alike. -/
theorem Shifted.nonEmpty (shifted : Shifted size shift corresponds far near) :
    Shifted size shift corresponds far.nonEmpty near.nonEmpty := by
  rw [nonEmpty_eq_revised, nonEmpty_eq_revised]
  refine shifted.revised fun position value value' stop carried within => ?_
  simp only [judgeNonEmpty, Nat.add_le_add_iff_left]
  split
  · exact Outcome.shifted_reject _ position
  · exact .accepted carried within

/-- A slice has the same elements in the rest of a source. -/
theorem Shifted.slice {source : Array ε} {corresponds' : Array ε → Array ε → Prop}
    (inside : shift ≤ source.size) (shifted : Shifted source.size shift corresponds far near)
    (reflexive : ∀ elements, corresponds' elements elements) :
    Shifted source.size shift corresponds' (far.slice source)
      (near.slice (source.extract shift source.size)) := by
  rw [slice_eq_revised, slice_eq_revised]
  refine shifted.revised fun position value value' stop carried within => ?_
  simp only [judgeSlice, Leaf.span?_rest inside, Leaf.size_rest]
  cases span? source (shift + position) (shift + stop) with
  | none => exact Outcome.shifted_reject_outOfRange stop position
  | some elements => exact .accepted (reflexive elements) within

/-- A span is recorded where it lies in its source. -/
theorem Shifted.spanned (shifted : Shifted size shift corresponds far near) :
    Shifted size shift (Spanned.Shifted shift corresponds) far.spanned near.spanned := by
  rw [spanned_eq_revised, spanned_eq_revised]
  exact shifted.revised fun position value value' stop carried within =>
    .accepted ⟨carried, rfl, rfl⟩ within

theorem Shifted.flatMap {next next' : α → Matcher β}
    (shifted : Shifted size shift corresponds far near)
    (shiftedNext : ∀ value value', corresponds value value' →
      Shifted size shift corresponds' (next value) (next' value')) :
    Shifted size shift corresponds' (far.flatMap next) (near.flatMap next') := by
  intro session session' position inside
  refine (shifted session session' position inside).bind fun _ _ after after' same => ?_
  cases same with
  | accepted carried within => exact shiftedNext _ _ carried after after' _ within
  | rejected alike => exact .ended (.rejected alike)

theorem Shifted.path (shifted : Shifted size shift corresponds far near) (label : String) :
    Shifted size shift corresponds (far.path label) (near.path label) := by
  intro session session' position inside
  exact (shifted (session.enter label).2 (session'.enter label).2 position inside).bind
    fun _ _ _ _ same => .ended (same.withPath label)

theorem Shifted.traced (shifted : Shifted size shift corresponds far near)
    (verbosity : Verbosity) (label : String) :
    Shifted size shift corresponds (far.traced verbosity label)
      (near.traced verbosity label) := by
  intro session session' position inside
  exact (shifted _ _ position inside).bind fun _ _ _ _ same => .ended same

theorem Shifted.orElse (shifted : Shifted size shift corresponds far near)
    (shiftedOther : Shifted size shift corresponds other other') :
    Shifted size shift corresponds (far.orElse other) (near.orElse other') := by
  intro session session' position inside
  refine (shifted session session' position inside).bind fun _ _ after after' same => ?_
  refine (shiftedOther after after' position inside).bind fun _ _ _ _ same' => ?_
  exact .ended (same.best same')

/-- Repetitions attempt and stop alike, and fold corresponding values. -/
theorem Shifted.repeatFrom {bounds : Bounds} {next next' : Matcher α} {fold : β → α → β}
    (shifted : Shifted size shift corresponds far near)
    (shiftedNext : Shifted size shift corresponds next next')
    (folds : ∀ acc acc' value value', corresponds' acc acc' → corresponds value value' →
      corresponds' (fold acc value) (fold acc' value'))
    (steps count : Nat) {acc acc' : β} (carried : corresponds' acc acc') :
    Shifted size shift corresponds' (repeatFrom bounds far next fold steps count acc)
      (repeatFrom bounds near next' fold steps count acc') := by
  induction steps generalizing count acc acc' with
  | zero => exact fun _ _ _ _ => .halted .exhausted
  | succ steps ih =>
      intro session session' position inside
      unfold Matcher.repeatFrom
      by_cases full : bounds.ceiling = some count
      · rw [if_pos full, if_pos full]
        exact .ended (.accepted carried inside)
      · rw [if_neg full, if_neg full]
        have attempt : Shifted size shift corresponds (if count = 0 then far else next)
            (if count = 0 then near else next') := by
          split <;> assumption
        have ended := attempt session session' position inside
        generalize (if count = 0 then far else next) session (shift + position) = reached
          at ended ⊢
        generalize (if count = 0 then near else next') session' position = reached'
          at ended ⊢
        cases ended with
        | halted cause => exact .halted cause
        | ended same =>
            cases same with
            | accepted found within =>
                exact ih (count + 1) (folds _ _ _ _ carried found) _ _ _ within
            | rejected alike =>
                by_cases below : count < bounds.floor
                · simp only [if_pos below]
                  exact .ended (.rejected alike)
                · simp only [if_neg below]
                  exact .ended (.accepted carried inside)

theorem Shifted.framed {far near : Nat → Matcher α} (choose choose' : Cells → Nat × Cells)
    (shifted : ∀ frame frame', Shifted size shift corresponds (far frame) (near frame')) :
    Shifted size shift corresponds (Matcher.framed choose far)
      (Matcher.framed choose' near) :=
  fun _ _ position inside => shifted _ _ _ _ position inside

end Matcher

variable {N : Nonterminals} {ε : Type}

/-- The input without its first elements. -/
def Input.rest (input : Input N ε) (shift : Nat) : Input N ε :=
  { input with source := input.source.extract shift input.source.size }

/-- For every recursive rule around, how its values in the two runs correspond. -/
abbrev Correspondence (Γ : List Type) : Type 1 :=
  ⦃α : Type⦄ → Member α Γ → α → α → Prop

/-- Among one more recursive rule. -/
def Correspondence.extend {Γ : List Type} {β : Type} (around : Correspondence Γ)
    (corresponds : β → β → Prop) : Correspondence (β :: Γ)
  | _, .here => corresponds
  | _, .there place => around place

/-- All values correspond to themselves only. -/
def Correspondence.equality (Γ : List Type) : Correspondence Γ :=
  fun _ _ => Eq

theorem Correspondence.extend_equality (Γ : List Type) (β : Type) :
    (equality Γ).extend (@Eq β) = equality (β :: Γ) := by
  funext α place
  cases place <;> rfl

section Rules

variable (size shift : Nat) (names : (name : N.Name) → N.Value name → N.Value name → Prop)

/-- The functions of the rule keep what is said about the values they are given: if those
of the two runs correspond, then so do the results, and in the end the values of the rule.
Recorded spans correspond if they are moved. What is continued depends on values that do
not differ. -/
def Rule.Carries : {Γ : List Type} → {α : Type} → Correspondence Γ → Rule N ε Γ α →
    (corresponds : α → α → Prop) → Prop
  | _, _, _, .leaf part, corresponds => part.Carries size corresponds
  | _, _, around, .unfinished rule, corresponds => rule.Carries around corresponds
  | _, _, around, .map f rule, corresponds =>
    ∃ before, rule.Carries around before ∧
      ∀ value value', before value value' → corresponds (f value) (f value')
  | _, _, around, .flatMap rule next, corresponds =>
    ∃ before, rule.Carries around before ∧
      ∀ value value', before value value' →
        value = value' ∧ (next value).Carries around corresponds
  | _, _, around, .thenWith combine rule next, corresponds =>
    ∃ before after, rule.Carries around before ∧ next.Carries around after ∧
      ∀ value value' last last', before value value' → after last last' →
        corresponds (combine value last) (combine value' last')
  | _, _, around, .nonEmpty rule, corresponds => rule.Carries around corresponds
  | _, _, around, .path _ rule, corresponds => rule.Carries around corresponds
  | _, _, around, .traced _ rule, corresponds => rule.Carries around corresponds
  | _, _, around, .orElse rule other, corresponds =>
    rule.Carries around corresponds ∧ other.Carries around corresponds
  | _, _, around, .slice rule, corresponds =>
    (∃ before, rule.Carries around before) ∧ ∀ elements, corresponds elements elements
  | _, _, around, .spanned rule, corresponds =>
    ∃ before, rule.Carries around before ∧
      ∀ value value', Spanned.Shifted shift before value value' → corresponds value value'
  | _, _, around, .repeated _ separator item init fold, corresponds =>
    (∃ between, separator.Carries around between) ∧
      ∃ before, item.Carries around before ∧ corresponds init init ∧
        ∀ acc acc' value value', corresponds acc acc' → before value value' →
          corresponds (fold acc value) (fold acc' value')
  | _, _, _, .deferred _ name, corresponds =>
    ∀ value value', names name value value' → corresponds value value'
  | _, _, around, .delayed _ rule, corresponds => rule.Carries around corresponds
  | _, _, around, .fresh rule, corresponds => rule.Carries around corresponds
  | _, _, around, .reference place, corresponds =>
    ∀ value value', around place value value' → corresponds value value'
  | _, _, around, .recursive body, corresponds =>
    ∃ inside, body.Carries (around.extend inside) inside ∧
      ∀ value value', inside value value' → corresponds value value'

/-- All definitions that are valid rules keep what is said about the values of names. -/
def Grammar.Carries (grammar : Grammar N ε) : Prop :=
  ∀ name rule, grammar name = .ok rule →
    rule.Carries size shift names (.equality []) (names name)

/-- The recursive rules around are the same in both runs, and keep what is said about
their values. -/
inductive Env.Carries : {Γ : List Type} → Correspondence Γ → Env N ε Γ → Env N ε Γ → Prop
  | nil : Carries (.equality []) .nil .nil
  | cons {Γ : List Type} {α : Type} {around : Correspondence Γ} {rest rest' : Env N ε Γ}
      {inside : α → α → Prop} {body : Rule N ε (α :: Γ) α}
      (carries : body.Carries size shift names (around.extend inside) inside)
      (frame frame' : Nat) (outer : Carries around rest rest') :
      Carries (around.extend inside) (.cons (.defined body) frame rest)
        (.cons (.defined body) frame' rest')

end Rules

/-- The rules that record no spans, without leaves written by hand, for sources of the
given size. -/
def Fragment.unspanned (size : Nat) : Fragment ε :=
  ⟨fun part => part.Standard ∧ part.Fits size, True, False⟩

variable {size shift : Nat} {names : (name : N.Name) → N.Value name → N.Value name → Prop}
  {Γ : List Type} {α : Type}

/-- Without spans the values are equal, which every function keeps. -/
theorem Rule.Within.carries {rule : Rule N ε Γ α} (within : rule.Within (.unspanned size)) :
    rule.Carries size shift (fun _ => Eq) (.equality Γ) Eq := by
  induction rule with
  | leaf part => exact Leaf.carries_of_fits within.1 within.2 fun _ => rfl
  | deferred | reference => exact fun _ _ same => same
  | unfinished _ ih | nonEmpty _ ih | path _ _ ih | delayed _ _ ih | fresh _ ih =>
      exact ih within
  | traced _ _ ih => exact ih within.2
  | spanned => exact within.1.elim
  | map f rule ih => exact ⟨Eq, ih within, fun _ _ => congrArg f⟩
  | flatMap rule next ih ihNext =>
      exact ⟨Eq, ih within.1, fun value _ same => ⟨same, ihNext value (within.2 value)⟩⟩
  | thenWith combine rule next ih ihNext =>
      refine ⟨Eq, Eq, ih within.1, ihNext within.2, ?_⟩
      intro value value' last last' same same'
      rw [same, same']
  | orElse rule other ih ihOther => exact ⟨ih within.1, ihOther within.2⟩
  | slice rule ih => exact ⟨⟨Eq, ih within⟩, fun _ => rfl⟩
  | repeated bounds separator item init fold ihSeparator ihItem =>
      refine ⟨⟨Eq, ihSeparator within.1⟩, Eq, ihItem within.2, rfl, ?_⟩
      intro acc acc' value value' same same'
      rw [same, same']
  | recursive body ih =>
      refine ⟨Eq, ?_, fun _ _ same => same⟩
      rw [Correspondence.extend_equality]
      exact ih within

/-- A reference leads to the same body in both runs. -/
theorem Env.Carries.lookup {around : Correspondence Γ} {env env' : Env N ε Γ}
    (carries : Env.Carries size shift names around env env') (place : Member α Γ) :
    ∃ (Δ : List Type) (inner : Correspondence Δ) (body : Rule N ε Δ α)
      (rest rest' : Env N ε Δ) (frame frame' : Nat),
      env.lookup place = .rule body rest frame ∧ env'.lookup place = .rule body rest' frame' ∧
        body.Carries size shift names inner (around place) ∧
        Env.Carries size shift names inner rest rest' := by
  induction carries with
  | nil => nomatch place
  | cons body frame frame' outer ih =>
      cases place with
      | here => exact ⟨_, _, _, _, _, frame, frame', rfl, rfl, body, .cons body _ _ outer⟩
      | there place => exact ih place

namespace Rule

variable {input : Input N ε}

/-- The step of the induction: what holds for the rules that references and names lead to
holds for the rules that mention them. -/
theorem interpret_shifted (fits : input.source.size ≤ lastPosition)
    (inside : shift ≤ input.source.size)
    (grammarCarries : input.grammar.Carries input.source.size shift names)
    {again again' : Interpretation N ε} (steps : Nat)
    (shifted : ∀ {Γ : List Type} {α : Type} {rule : Rule N ε Γ α}
      {around : Correspondence Γ} {env env' : Env N ε Γ} {corresponds : α → α → Prop}
      (frame frame' : Nat), rule.Carries input.source.size shift names around corresponds →
      Env.Carries input.source.size shift names around env env' →
      Matcher.Shifted input.source.size shift corresponds (again rule env frame)
        (again' rule env' frame'))
    {rule : Rule N ε Γ α} {around : Correspondence Γ} {env env' : Env N ε Γ}
    {corresponds : α → α → Prop} (frame frame' : Nat)
    (carries : rule.Carries input.source.size shift names around corresponds)
    (envCarries : Env.Carries input.source.size shift names around env env') :
    Matcher.Shifted input.source.size shift corresponds
      (rule.interpret input again steps env frame)
      (rule.interpret (input.rest shift) again' steps env' frame') := by
  induction rule generalizing frame frame' with
  | leaf part => exact Matcher.shifted_leaf fits carries
  | unfinished rule ih =>
      have unfinished := (ih frame frame' carries envCarries).unfinished
      rw [← Leaf.size_rest] at unfinished
      exact unfinished
  | map f rule ih =>
      obtain ⟨before, carries, keeps⟩ := carries
      exact (ih frame frame' carries envCarries).map keeps
  | flatMap rule next ih ihNext =>
      obtain ⟨before, carries, goesOn⟩ := carries
      refine (ih frame frame' carries envCarries).flatMap fun value value' carried => ?_
      obtain ⟨rfl, carriesNext⟩ := goesOn value value' carried
      exact ihNext value frame frame' carriesNext envCarries
  | thenWith combine rule next ih ihNext =>
      obtain ⟨before, after, carries, carriesNext, keeps⟩ := carries
      show Matcher.Shifted _ _ _ (Matcher.thenWith combine _ _) (Matcher.thenWith combine _ _)
      rw [Matcher.thenWith_eq_flatMap, Matcher.thenWith_eq_flatMap]
      refine (ih frame frame' carries envCarries).flatMap fun value value' carried => ?_
      exact (ihNext frame frame' carriesNext envCarries).map
        fun last last' => keeps value value' last last' carried
  | nonEmpty rule ih => exact (ih frame frame' carries envCarries).nonEmpty
  | path label rule ih => exact (ih frame frame' carries envCarries).path label
  | traced label rule ih => exact (ih frame frame' carries envCarries).traced _ label
  | orElse rule other ih ihOther =>
      exact (ih frame frame' carries.1 envCarries).orElse
        (ihOther frame frame' carries.2 envCarries)
  | slice rule ih =>
      obtain ⟨⟨before, carries⟩, reflexive⟩ := carries
      exact (ih frame frame' carries envCarries).slice inside reflexive
  | spanned rule ih =>
      obtain ⟨before, carries, keeps⟩ := carries
      exact (ih frame frame' carries envCarries).spanned.mono keeps
  | repeated bounds separator item init fold ihSeparator ihItem =>
      obtain ⟨⟨between, carriesSeparator⟩, before, carriesItem, start, keeps⟩ := carries
      have shiftedItem := ihItem frame frame' carriesItem envCarries
      refine shiftedItem.repeatFrom ?_ keeps steps 0 start
      rw [Matcher.thenWith_eq_flatMap, Matcher.thenWith_eq_flatMap]
      refine (ihSeparator frame frame' carriesSeparator envCarries).flatMap fun _ _ _ => ?_
      exact shiftedItem.map fun _ _ carried => carried
  | deferred number name =>
      show Matcher.Shifted _ _ _ (again.deferred input.grammar _ name)
        (again'.deferred input.grammar _ name)
      cases found : input.grammar name with
      | error cause =>
          rw [Interpretation.deferred_eq_halted _ found,
            Interpretation.deferred_eq_halted _ found]
          exact Matcher.shifted_halted _
      | ok rule =>
          rw [Interpretation.deferred_eq_framed _ found,
            Interpretation.deferred_eq_framed _ found]
          refine .framed _ _ fun frame frame' => ?_
          exact (shifted frame frame' (grammarCarries name rule found) .nil).mono carries
  | delayed number rule ih =>
      exact .framed _ _ fun _ _ => ih frame frame' carries envCarries
  | fresh rule ih =>
      exact .framed Cells.openFrame Cells.openFrame fun frame frame' =>
        ih frame frame' carries envCarries
  | reference place =>
      show Matcher.Shifted _ _ _ (again.reference env place) (again'.reference env' place)
      obtain ⟨_, inner, body, rest, rest', frame, frame', found, found', bodyCarries,
        restCarries⟩ := envCarries.lookup place
      unfold Interpretation.reference
      rw [found, found']
      exact (shifted frame frame' bodyCarries restCarries).mono carries
  | recursive body ih =>
      -- What holds of the values of the body is what references to it may rely on.
      obtain ⟨inside, carries, keeps⟩ := carries
      exact (ih frame frame' carries (.cons carries frame frame' envCarries)).mono keeps

/-- With the same allowance of steps a rule ends alike on a source and on the rest of it. -/
theorem apply_shifted (fits : input.source.size ≤ lastPosition)
    (inside : shift ≤ input.source.size)
    (grammarCarries : input.grammar.Carries input.source.size shift names) (steps : Nat)
    {rule : Rule N ε Γ α} {around : Correspondence Γ} {env env' : Env N ε Γ}
    {corresponds : α → α → Prop} (frame frame' : Nat)
    (carries : rule.Carries input.source.size shift names around corresponds)
    (envCarries : Env.Carries input.source.size shift names around env env') :
    Matcher.Shifted input.source.size shift corresponds (apply input steps rule env frame)
      (apply (input.rest shift) steps rule env' frame') := by
  induction steps generalizing Γ α frame frame' with
  | zero => exact Matcher.shifted_halted .exhausted
  | succ steps ih =>
      exact interpret_shifted fits inside grammarCarries (steps + 1)
        (fun frame frame' carries envCarries => ih frame frame' carries envCarries)
        frame frame' carries envCarries

/-- Applied from a position on, a rule ends as it does on the rest of the source alone: it
is halted at the same time or has a shifted outcome. Without spans the values are equal;
with spans they correspond as the functions of the rule carry them along. -/
theorem looks_at_rest_only {input : Input N ε} (fits : input.source.size ≤ lastPosition)
    {shift : Nat} (inside : shift ≤ input.source.size) :
    (input.grammar.Within (.unspanned input.source.size) →
      ∀ {α : Type} (rule : Rule N ε [] α), rule.Within (.unspanned input.source.size) →
      ∀ (steps : Nat) (session session' : Session),
        EndShifted input.source.size shift Eq (rule.runAt input steps session shift)
          (rule.run (input.rest shift) steps session')) ∧
    ∀ names : (name : N.Name) → N.Value name → N.Value name → Prop,
      input.grammar.Carries input.source.size shift names →
      ∀ {α : Type} (rule : Rule N ε [] α) (corresponds : α → α → Prop),
        rule.Carries input.source.size shift names (.equality []) corresponds →
      ∀ (steps : Nat) (session session' : Session),
        EndShifted input.source.size shift corresponds
          (rule.runAt input steps session shift)
          (rule.run (input.rest shift) steps session') := by
  refine ⟨fun grammarWithin α rule within steps session session' => ?_,
    fun names grammarCarries α rule corresponds carries steps session session' => ?_⟩
  · have grammarCarries : input.grammar.Carries input.source.size shift fun _ => Eq :=
      fun name rule found => (grammarWithin name rule found).carries
    exact apply_shifted fits inside grammarCarries steps 0 0 within.carries .nil
      session.withFreshContext session'.withFreshContext 0 inside
  · exact apply_shifted fits inside grammarCarries steps 0 0 carries .nil
      session.withFreshContext session'.withFreshContext 0 inside

/-- Single elements are read, and there are no literals. -/
theorem within_nestedNumbers_unspanned (size : Nat) :
    nestedNumbers.Within (.unspanned size) := by
  have reads {Γ : List Type} {α : Type} (read : Int → Except String α) :
      (nextAs read : Rule .none Int Γ α).Within (.unspanned size) :=
    ⟨trivial, trivial⟩
  exact ⟨reads _, ⟨⟨⟨trivial, trivial⟩, reads _⟩, ⟨reads _, trivial⟩⟩, reads _⟩

/-- Positive numbers, each with the positions it was found between. -/
def spannedNumbers : Rule .none Int [] (Array (Spanned Int)) :=
  (nextIf (0 < ·)).spanned.collect .any

/-- Arrays of values with corresponding spans. -/
def SpansShifted (shift : Nat) (far near : Array (Spanned Int)) : Prop :=
  List.Forall₂ (Spanned.Shifted shift Eq) far.toList near.toList

/-- Gathering values only carries their spans along. -/
theorem carries_spannedNumbers {size shift : Nat}
    {names : (name : Empty) → Empty.elim name → Empty.elim name → Prop} :
    spannedNumbers.Carries size shift names (.equality []) (SpansShifted shift) := by
  refine ⟨⟨Eq, rfl⟩, Spanned.Shifted shift Eq, ⟨Eq, fun _ _ _ => rfl, fun _ _ same => same⟩,
    .nil, ?_⟩
  intro acc acc' value value' carried same
  unfold SpansShifted
  rw [Array.toList_push, Array.toList_push]
  exact List.rel_append carried (.cons same .nil)

/-- The zero in front is left off, and the spans of the numbers behind it are moved. -/
theorem numbers_look_at_rest_only :
    let input : Input .none Int := ⟨#[0, 3, 4], .empty, .off⟩
    (input.source.size ≤ lastPosition ∧ 1 ≤ input.source.size ∧
      input.grammar.Within (.unspanned 3) ∧ nestedNumbers.Within (.unspanned 3) ∧
      EndShifted 3 1 Eq (nestedNumbers.runAt input 4 .initial 1)
        (nestedNumbers.run (input.rest 1) 4 .initial)) ∧
    ∃ names, input.grammar.Carries 3 1 names ∧
      spannedNumbers.Carries 3 1 names (.equality []) (SpansShifted 1) ∧
      EndShifted 3 1 (SpansShifted 1) (spannedNumbers.runAt input 4 .initial 1)
        (spannedNumbers.run (input.rest 1) 4 .initial) := by
  intro input
  have fits : input.source.size ≤ lastPosition := by decide
  have inside : 1 ≤ input.source.size := by decide
  have within : nestedNumbers.Within (.unspanned 3) :=
    within_nestedNumbers_unspanned 3
  have grammarWithin : input.grammar.Within (.unspanned 3) := Grammar.within_empty _
  have grammarCarries : input.grammar.Carries 3 1 fun name => Empty.elim name :=
    fun name => nomatch name
  obtain ⟨unspanned, spanned⟩ := looks_at_rest_only fits inside
  exact ⟨⟨fits, inside, grammarWithin, within,
      unspanned grammarWithin nestedNumbers within 4 .initial .initial⟩,
    _, grammarCarries, carries_spannedNumbers,
    spanned _ grammarCarries spannedNumbers _ carries_spannedNumbers 4 .initial .initial⟩

end Rule

end Rulebook
