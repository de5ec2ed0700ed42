/-
# What rejections are gathered from

A rejection is made of the failures of its parts. A single failure or a list that is not
empty is made into a collection, collections are put one behind the other, and labels are
put in front. All of this is said here once more of plain lists, where nothing rules the
empty list out, and none of it leads there: neither the ways to make a collection by hand
nor a rule, however it is built and applied.

So every collection has a first failure and a greatest position, and its filtered view has
a member. The view keeps what stands at that position, once each, as a single pass does that
knows what it has seen.
-/

import Rulebook.Failures.Exchange
import Rulebook.Proofs.Courses
import Rulebook.Proofs.Deepest

namespace Rulebook

namespace Failures

/-! ## Collections made by hand -/

/-- A way to make a collection. -/
inductive Making
  | single (failure : Failure)
  | listed (members : List Failure)
  | read (text : String)
  | append (left right : Making)
  | withPath (label : String) (making : Making)

/-- The list that a JSON text stands for, empty or not. -/
def listOfJson? (text : String) : Option (List Failure) :=
  match Json.Value.read (Json.tokens text) with
  | some (.array items, []) => items.mapM Failure.ofValue?
  | _ => none

namespace Making

/-- The collection that is made, unless a part is refused. -/
def build? : Making → Option Failures
  | .single failure => some (.single failure)
  | .listed members => ofList? members
  | .read text => (ofJson text).toOption
  | .append left right => do some ((← left.build?) ++ (← right.build?))
  | .withPath label making => making.build?.map (.withPath label)

/-- The members of what is made, as a plain list. Empty lists are refused where they come
in, and only there. -/
def members? : Making → Option (List Failure)
  | .single failure => some [failure]
  | .listed members => (some members).filter (· ≠ [])
  | .read text => (listOfJson? text).filter (· ≠ [])
  | .append left right => do some ((← left.members?) ++ (← right.members?))
  | .withPath label making => making.members?.map (·.map (·.withPath label))

end Making

theorem map_toList_ofList? (members : List Failure) :
    (ofList? members).map toList = (some members).filter (· ≠ []) := by
  cases members <;> rfl

theorem map_toList_ofJson (text : String) :
    (ofJson text).toOption.map toList = (listOfJson? text).filter (· ≠ []) := by
  unfold ofJson listOfJson?
  rcases Json.Value.read (Json.tokens text) with _ | ⟨value, rest⟩
  · rfl
  · cases value with
    | array items =>
        -- Only the list matters. What is reported where there is none does not.
        rcases found : items.mapM Failure.ofValue? with _ | _ | _ <;> cases rest <;>
          simp [found, ofList?, toList, Except.toOption, Option.filter_some]
    | _ => rfl

namespace Making

/-- A collection has the members that its making says. -/
theorem map_toList_build? (making : Making) :
    making.build?.map toList = making.members? := by
  induction making with
  | single failure => rfl
  | listed members => exact map_toList_ofList? members
  | read text => exact map_toList_ofJson text
  | append left right ihLeft ihRight =>
      rw [members?, ← ihLeft, ← ihRight, build?]
      cases left.build? <;> cases right.build? <;> rfl
  | withPath label making ih =>
      rw [members?, ← ih, build?, Option.map_map, Option.map_map]
      rfl

/-- No way leads to the empty list. -/
theorem members?_ne_nil {making : Making} {members : List Failure}
    (made : making.members? = some members) : members ≠ [] := by
  induction making generalizing members with
  | single failure =>
      cases made
      exact List.cons_ne_nil _ _
  | listed _ | read _ => exact of_decide_eq_true (Option.filter_eq_some_iff.mp made).2
  | append left right ihLeft ihRight =>
      obtain ⟨front, first, made⟩ := Option.bind_eq_some_iff.mp made
      obtain ⟨more, second, made⟩ := Option.bind_eq_some_iff.mp made
      cases made
      exact List.append_ne_nil_of_left_ne_nil (ihLeft first) more
  | withPath label making ih =>
      obtain ⟨inner, inside, rfl⟩ := Option.map_eq_some_iff.mp made
      exact fun none => ih inside (List.map_eq_nil_iff.mp none)

end Making

end Failures

/-! ## Rejections of rules -/

/-- Done at a position, the task rejects with these failures, as a plain list. They are the
failure of a leaf or of a check, or they are taken over from a part, with a label in front
or behind those of an alternative. -/
inductive Gathers {N : Nonterminals} {ε : Type} : {Γ : List Type} → {α : Type} →
    Setting N ε Γ → Task N ε Γ α → Nat → List Failure → Prop
  | leaf {Γ : List Type} {α : Type} {setting : Setting N ε Γ} {part : Leaf ε α}
      {position : Nat} {failures : Failures}
      (applied : part.apply setting.input.source setting.context position =
        .ok (.rejected failures)) :
      Gathers setting (.apply (.leaf part)) position failures.toList
  | behind {Γ : List Type} {α : Type} {setting : Setting N ε Γ} {rule : Rule N ε Γ α}
      {position : Nat} (behind : setting.size ≤ position) :
      Gathers setting (.apply rule.unfinished) position
        [.bare (outOfRange setting.size position) position]
  | unfinished {Γ : List Type} {α : Type} {setting : Setting N ε Γ} {rule : Rule N ε Γ α}
      {position : Nat} {members : List Failure} (inside : position < setting.size)
      (gathers : Gathers setting (.apply rule) position members) :
      Gathers setting (.apply rule.unfinished) position members
  | map {Γ : List Type} {α β : Type} {setting : Setting N ε Γ} {rule : Rule N ε Γ α}
      {position : Nat} {members : List Failure} (f : α → β)
      (gathers : Gathers setting (.apply rule) position members) :
      Gathers setting (.apply (rule.map f)) position members
  | flatMap {Γ : List Type} {α β : Type} {setting : Setting N ε Γ} {rule : Rule N ε Γ α}
      {next : α → Rule N ε Γ β} {position middle : Nat} {value : α} {members : List Failure}
      (accepts : rule.Yields setting position (.accepted value middle))
      (second : Gathers setting (.apply (next value)) middle members) :
      Gathers setting (.apply (rule.flatMap next)) position members
  | flatMapRejected {Γ : List Type} {α β : Type} {setting : Setting N ε Γ}
      {rule : Rule N ε Γ α} {next : α → Rule N ε Γ β} {position : Nat}
      {members : List Failure} (first : Gathers setting (.apply rule) position members) :
      Gathers setting (.apply (rule.flatMap next)) position members
  | thenWith {Γ : List Type} {α β γ : Type} {setting : Setting N ε Γ} {rule : Rule N ε Γ α}
      {next : Rule N ε Γ β} {position middle : Nat} {value : α} {members : List Failure}
      (combine : α → β → γ) (accepts : rule.Yields setting position (.accepted value middle))
      (second : Gathers setting (.apply next) middle members) :
      Gathers setting (.apply (rule.thenWith combine next)) position members
  | thenWithRejected {Γ : List Type} {α β γ : Type} {setting : Setting N ε Γ}
      {rule : Rule N ε Γ α} {next : Rule N ε Γ β} {position : Nat} {members : List Failure}
      (combine : α → β → γ) (first : Gathers setting (.apply rule) position members) :
      Gathers setting (.apply (rule.thenWith combine next)) position members
  | nonEmpty {Γ : List Type} {α : Type} {setting : Setting N ε Γ} {rule : Rule N ε Γ α}
      {position : Nat} {members : List Failure}
      (gathers : Gathers setting (.apply rule) position members) :
      Gathers setting (.apply rule.nonEmpty) position members
  /-- The part accepts without progress. -/
  | idle {Γ : List Type} {α : Type} {setting : Setting N ε Γ} {rule : Rule N ε Γ α}
      {position stop : Nat} {value : α}
      (accepts : rule.Yields setting position (.accepted value stop))
      (idle : stop ≤ position) :
      Gathers setting (.apply rule.nonEmpty) position
        [.bare "rule succeeded but consumed no input" position]
  | path {Γ : List Type} {α : Type} {setting : Setting N ε Γ} {rule : Rule N ε Γ α}
      {position : Nat} {members : List Failure} {label : String}
      (gathers : Gathers (setting.entered label) (.apply rule) position members) :
      Gathers setting (.apply (rule.path label)) position (members.map (·.withPath label))
  | traced {Γ : List Type} {α : Type} {setting : Setting N ε Γ} {rule : Rule N ε Γ α}
      {position : Nat} {members : List Failure} {label : String}
      (gathers : Gathers (setting.entered label) (.apply rule) position members) :
      Gathers setting (.apply (rule.traced label)) position members
  | orElse {Γ : List Type} {α : Type} {setting : Setting N ε Γ} {rule other : Rule N ε Γ α}
      {position : Nat} {members more : List Failure}
      (first : Gathers setting (.apply rule) position members)
      (second : Gathers setting (.apply other) position more) :
      Gathers setting (.apply (rule.orElse other)) position (members ++ more)
  | slice {Γ : List Type} {α : Type} {setting : Setting N ε Γ} {rule : Rule N ε Γ α}
      {position : Nat} {members : List Failure}
      (gathers : Gathers setting (.apply rule) position members) :
      Gathers setting (.apply rule.slice) position members
  /-- There is no such part of the source. -/
  | outside {Γ : List Type} {α : Type} {setting : Setting N ε Γ} {rule : Rule N ε Γ α}
      {position stop : Nat} {value : α}
      (accepts : rule.Yields setting position (.accepted value stop))
      (outside : span? setting.input.source position stop = none) :
      Gathers setting (.apply rule.slice) position
        [.bare (outOfRange setting.size stop) position]
  | spanned {Γ : List Type} {α : Type} {setting : Setting N ε Γ} {rule : Rule N ε Γ α}
      {position : Nat} {members : List Failure}
      (gathers : Gathers setting (.apply rule) position members) :
      Gathers setting (.apply rule.spanned) position members
  | repeated {Γ : List Type} {α β : Type} {setting : Setting N ε Γ} {bounds : Bounds}
      {separator : Rule N ε Γ Unit} {item : Rule N ε Γ α} {init : β} {fold : β → α → β}
      {position : Nat} {members : List Failure}
      (gathers : Gathers setting (.goOn bounds separator item fold 0 init) position members) :
      Gathers setting (.apply (.repeated bounds separator item init fold)) position members
  | attempted {Γ : List Type} {α β : Type} {setting : Setting N ε Γ} {bounds : Bounds}
      {separator : Rule N ε Γ Unit} {item : Rule N ε Γ α} {fold : β → α → β} {count : Nat}
      {acc : β} {position stop : Nat} {value : α} {members : List Failure}
      (unfilled : bounds.ceiling ≠ some count)
      (accepts : (Rule.attempt separator item count).Yields setting position
        (.accepted value stop))
      (rest : Gathers setting (.goOn bounds separator item fold (count + 1) (fold acc value))
        stop members) :
      Gathers setting (.goOn bounds separator item fold count acc) position members
  /-- There are too few matches. -/
  | short {Γ : List Type} {α β : Type} {setting : Setting N ε Γ} {bounds : Bounds}
      {separator : Rule N ε Γ Unit} {item : Rule N ε Γ α} {fold : β → α → β} {count : Nat}
      {acc : β} {position : Nat} {members : List Failure}
      (unfilled : bounds.ceiling ≠ some count) (short : count < bounds.floor)
      (last : Gathers setting (.apply (Rule.attempt separator item count)) position members) :
      Gathers setting (.goOn bounds separator item fold count acc) position members
  | deferred {Γ : List Type} {setting : Setting N ε Γ} {name : N.Name}
      {rule : Rule N ε [] (N.Value name)} {position : Nat} {members : List Failure}
      (number : Nat) (defined : setting.input.grammar name = .ok rule)
      (gathers : Gathers (setting.inside .nil) (.apply rule) position members) :
      Gathers setting (.apply (.deferred number name)) position members
  | delayed {Γ : List Type} {α : Type} {setting : Setting N ε Γ} {rule : Rule N ε Γ α}
      {position : Nat} {members : List Failure} (number : Nat)
      (gathers : Gathers setting (.apply rule) position members) :
      Gathers setting (.apply (.delayed number rule)) position members
  | fresh {Γ : List Type} {α : Type} {setting : Setting N ε Γ} {rule : Rule N ε Γ α}
      {position : Nat} {members : List Failure}
      (gathers : Gathers setting (.apply rule) position members) :
      Gathers setting (.apply rule.fresh) position members
  | undefined {Γ : List Type} {α : Type} {setting : Setting N ε Γ} {place : Member α Γ}
      {position : Nat} (found : setting.env.lookup place = .undefined) :
      Gathers setting (.apply (.reference place)) position
        [.bare "recursive rule used before it was defined" position]
  | dropped {Γ : List Type} {α : Type} {setting : Setting N ε Γ} {place : Member α Γ}
      {position : Nat} (found : setting.env.lookup place = .dropped) :
      Gathers setting (.apply (.reference place)) position
        [.bare "recursive rule used after it was dropped" position]
  | reference {Γ Δ : List Type} {α : Type} {setting : Setting N ε Γ} {place : Member α Γ}
      {rule : Rule N ε Δ α} {env : Env N ε Δ} {frame position : Nat} {members : List Failure}
      (found : setting.env.lookup place = .rule rule env frame)
      (gathers : Gathers (setting.inside env) (.apply rule) position members) :
      Gathers setting (.apply (.reference place)) position members
  | recursive {Γ : List Type} {α : Type} {setting : Setting N ε Γ} {body : Rule N ε (α :: Γ) α}
      {position : Nat} {members : List Failure} (frame : Nat)
      (gathers : Gathers (setting.inside (.cons (.defined body) frame setting.env))
        (.apply body) position members) :
      Gathers setting (.apply (.recursive body)) position members

variable {N : Nonterminals} {ε : Type} {Γ : List Type} {α : Type} {setting : Setting N ε Γ}
  {task : Task N ε Γ α} {rule : Rule N ε Γ α} {position : Nat} {outcome : Outcome α}
  {members : List Failure} {failures : Failures} {log : List Record}

/-- An application with an outcome has a course. -/
theorem Rule.Yields.exists_reports (yields : rule.Yields setting position outcome) :
    ∃ log, Reports setting (.apply rule) position outcome log := by
  obtain ⟨enough, run⟩ := yields
  obtain ⟨after, applied, -⟩ := run enough (Nat.le_refl enough) 0 setting.session rfl
  obtain ⟨log, reports, -⟩ := Rule.apply_reporting _ _ _ _ _ applied
  exact ⟨log, reports⟩

/-- In some course the task is rejected with these failures. -/
def Task.Rejects (setting : Setting N ε Γ) (task : Task N ε Γ α) (position : Nat)
    (members : List Failure) : Prop :=
  ∃ failures log, failures.toList = members ∧
    Reports setting task position (.rejected failures) log

/-- A rejection of a part is taken over. -/
theorem Task.Rejects.of_part {Δ : List Type} {β : Type} {inner : Setting N ε Δ}
    {part : Task N ε Δ β} {middle : Nat} (rejects : part.Rejects inner middle members)
    (takesOver : ∀ {failures log}, Reports inner part middle (.rejected failures) log →
      ∃ log', Reports setting task position (.rejected failures) log') :
    task.Rejects setting position members := by
  obtain ⟨failures, log, same, reports⟩ := rejects
  obtain ⟨log', taken⟩ := takesOver reports
  exact ⟨failures, log', same, taken⟩

namespace Gathers

/-- Nothing is gathered that is empty. -/
theorem ne_nil (gathers : Gathers setting task position members) : members ≠ [] := by
  induction gathers with
  | leaf | behind | idle | outside | undefined | dropped => exact List.cons_ne_nil _ _
  | path _ ih => exact fun none => ih (List.map_eq_nil_iff.mp none)
  | orElse _ _ ih _ => exact List.append_ne_nil_of_left_ne_nil ih _
  | unfinished _ _ ih | map _ _ ih | flatMap _ _ ih | flatMapRejected _ ih
  | thenWith _ _ _ ih | thenWithRejected _ _ ih | nonEmpty _ ih | traced _ ih | slice _ ih
  | spanned _ ih | repeated _ ih | attempted _ _ _ ih | short _ _ _ ih | deferred _ _ _ ih
  | delayed _ _ ih | fresh _ ih | reference _ _ ih | recursive _ _ ih => exact ih

/-- What is gathered is the collection of a course that is rejected. -/
theorem rejects (gathers : Gathers setting task position members) :
    task.Rejects setting position members := by
  induction gathers with
  | leaf applied => exact ⟨_, _, rfl, .leaf applied⟩
  | behind behind => exact ⟨.single _, _, rfl, .behind behind⟩
  | unfinished inside _ ih => exact ih.of_part fun reports => ⟨_, .unfinished inside reports⟩
  | map f _ ih => exact ih.of_part fun reports => ⟨_, .map f reports⟩
  | flatMap accepts _ ih =>
      obtain ⟨before, first⟩ := accepts.exists_reports
      exact ih.of_part fun second => ⟨_, .flatMap first second⟩
  | flatMapRejected _ ih => exact ih.of_part fun reports => ⟨_, .flatMapRejected reports⟩
  | thenWith combine accepts _ ih =>
      obtain ⟨before, first⟩ := accepts.exists_reports
      exact ih.of_part fun second => ⟨_, .thenWith combine first second⟩
  | thenWithRejected combine _ ih =>
      exact ih.of_part fun reports => ⟨_, .thenWithRejected combine reports⟩
  | nonEmpty _ ih => exact ih.of_part fun reports => ⟨_, .nonEmpty reports⟩
  | idle accepts idle =>
      obtain ⟨log, reports⟩ := accepts.exists_reports
      have judged := reports.nonEmpty
      rw [Outcome.revise_accepted, Matcher.judgeNonEmpty, if_pos idle] at judged
      exact ⟨.single _, log, rfl, judged⟩
  | path _ ih =>
      obtain ⟨failures, log, rfl, reports⟩ := ih
      exact ⟨_, log, failures.toList_withPath _, .path reports⟩
  | traced _ ih => exact ih.of_part fun reports => ⟨_, .traced reports⟩
  | orElse _ _ ih ihOther =>
      obtain ⟨failures, log, rfl, first⟩ := ih
      obtain ⟨more, log', rfl, second⟩ := ihOther
      exact ⟨_, _, failures.toList_append more, .orElse first second⟩
  | slice _ ih => exact ih.of_part fun reports => ⟨_, .slice reports⟩
  | outside accepts outside =>
      obtain ⟨log, reports⟩ := accepts.exists_reports
      have judged := reports.slice
      rw [Outcome.revise_accepted, Matcher.judgeSlice, outside] at judged
      exact ⟨.single _, log, rfl, judged⟩
  | spanned _ ih => exact ih.of_part fun reports => ⟨_, .spanned reports⟩
  | repeated _ ih => exact ih.of_part fun reports => ⟨_, .repeated reports⟩
  | attempted unfilled accepts _ ih =>
      obtain ⟨before, first⟩ := accepts.exists_reports
      exact ih.of_part fun rest => ⟨_, .attempted unfilled first rest⟩
  | @short _ _ _ setting bounds separator item fold count acc position _ unfilled short _ ih =>
      refine ih.of_part fun {failures log} last => ?_
      have ended : Reports setting (.goOn bounds separator item fold count acc) position
          (if count < bounds.floor then .rejected failures else .accepted acc position) log :=
        .ended unfilled last
      rw [if_pos short] at ended
      exact ⟨log, ended⟩
  | deferred number defined _ ih =>
      exact ih.of_part fun reports => ⟨_, .deferred number defined reports⟩
  | delayed number _ ih => exact ih.of_part fun reports => ⟨_, .delayed number reports⟩
  | fresh _ ih => exact ih.of_part fun reports => ⟨_, .fresh reports⟩
  | undefined found => exact ⟨.single _, _, rfl, .undefined found⟩
  | dropped found => exact ⟨.single _, _, rfl, .dropped found⟩
  | reference found _ ih => exact ih.of_part fun reports => ⟨_, .reference found reports⟩
  | recursive frame _ ih => exact ih.of_part fun reports => ⟨_, .recursive frame reports⟩

end Gathers

/-- The collection of a course that is rejected is gathered. -/
theorem Reports.gathers (reports : Reports setting task position outcome log) :
    ∀ {failures}, outcome = .rejected failures →
      Gathers setting task position failures.toList := by
  induction reports with
  | leaf applied => exact fun rejected => .leaf (rejected ▸ applied)
  | behind behind =>
      intro failures rejected
      cases rejected
      exact .behind behind
  | unfinished inside _ ih => exact fun rejected => .unfinished inside (ih rejected)
  | @map _ _ _ _ _ _ outcome _ f _ ih =>
      intro failures rejected
      cases outcome <;> cases rejected
      exact .map f (ih rfl)
  | flatMap first _ _ ih => exact fun rejected => .flatMap first.yields (ih rejected)
  | flatMapRejected _ ih =>
      intro failures rejected
      cases rejected
      exact .flatMapRejected (ih rfl)
  | @thenWith _ _ _ _ _ _ _ _ _ _ outcome _ _ combine first _ _ ih =>
      intro failures rejected
      cases outcome <;> cases rejected
      exact .thenWith combine first.yields (ih rfl)
  | thenWithRejected combine _ ih =>
      intro failures rejected
      cases rejected
      exact .thenWithRejected combine (ih rfl)
  | @nonEmpty _ _ _ _ _ outcome _ reports ih =>
      intro failures rejected
      cases outcome with
      | accepted value stop =>
          rw [Outcome.revise_accepted, Matcher.judgeNonEmpty] at rejected
          split at rejected <;> cases rejected
          next idle => exact .idle reports.yields idle
      | rejected found =>
          cases rejected
          exact .nonEmpty (ih rfl)
  | @path _ _ _ _ _ outcome _ _ _ ih =>
      intro failures rejected
      cases outcome <;> cases rejected
      exact .path (ih rfl)
  | traced _ ih => exact fun rejected => .traced (ih rejected)
  | @orElse _ _ _ _ _ _ kept candidate _ _ _ _ ih ihOther =>
      intro failures rejected
      cases kept <;> cases candidate
      · rw [Outcome.best] at rejected
        split at rejected <;> cases rejected
      · cases rejected
      · cases rejected
      · cases rejected
        exact .orElse (ih rfl) (ihOther rfl)
  | @slice _ _ _ _ _ outcome _ reports ih =>
      intro failures rejected
      cases outcome with
      | accepted value stop =>
          rw [Outcome.revise_accepted, Matcher.judgeSlice] at rejected
          split at rejected <;> cases rejected
          next outside => exact .outside reports.yields outside
      | rejected found =>
          cases rejected
          exact .slice (ih rfl)
  | @spanned _ _ _ _ _ outcome _ _ ih =>
      intro failures rejected
      cases outcome <;> cases rejected
      exact .spanned (ih rfl)
  | repeated _ ih => exact fun rejected => .repeated (ih rejected)
  | full =>
      intro failures rejected
      cases rejected
  | attempted unfilled first _ _ ih =>
      exact fun rejected => .attempted unfilled first.yields (ih rejected)
  | ended unfilled _ ih =>
      intro failures rejected
      split at rejected <;> cases rejected
      next short => exact .short unfilled short (ih rfl)
  | deferred number defined _ ih => exact fun rejected => .deferred number defined (ih rejected)
  | delayed number _ ih => exact fun rejected => .delayed number (ih rejected)
  | fresh _ ih => exact fun rejected => .fresh (ih rejected)
  | undefined found =>
      intro failures rejected
      cases rejected
      exact .undefined found
  | dropped found =>
      intro failures rejected
      cases rejected
      exact .dropped found
  | reference found _ ih => exact fun rejected => .reference found (ih rejected)
  | recursive frame _ ih => exact fun rejected => .recursive frame (ih rejected)

/-- A rule rejects with just what is gathered. -/
theorem gathers_iff :
    Gathers setting (.apply rule) position members ↔
      ∃ failures, failures.toList = members ∧
        rule.Yields setting position (.rejected failures) := by
  refine ⟨fun gathers => ?_, ?_⟩
  · obtain ⟨failures, log, same, reports⟩ := gathers.rejects
    exact ⟨failures, same, reports.yields⟩
  · rintro ⟨failures, rfl, yields⟩
    obtain ⟨log, reports⟩ := yields.exists_reports
    exact reports.gathers rfl

/-- Failures that differ in nothing but the path are kept side by side. -/
theorem Failures.both_paths_kept {failure : Failure} {path : List String}
    (deepest : failure.position = failures.furthest) (differs : path ≠ failure.path)
    (occurs : failure ∈ failures.toList)
    (occursToo : { failure with path := path } ∈ failures.toList) :
    failure ∈ failures.filtered ∧ { failure with path := path } ∈ failures.filtered ∧
      failure ≠ { failure with path := path } :=
  ⟨mem_filtered_iff.mpr ⟨occurs, deepest⟩, mem_filtered_iff.mpr ⟨occursToo, deepest⟩,
    fun same => differs (congrArg Failure.path same).symm⟩

/-- No collection is empty, whether it is made by hand or gathered by a rule, although
plain lists would allow for it. So a collection has a first failure, and its furthest
position is that of a member and an upper bound of all. The filtered view lists exactly
the members at the furthest position, once each, in the order of their first occurrences. It
is found in a single pass and keeps failures that differ only in their paths. -/
theorem Failures.filtered_lists_deepest :
    (∀ making : Making, making.build?.map toList = making.members? ∧
      ∀ members, making.members? = some members → members ≠ []) ∧
    (∀ {N : Nonterminals} {ε : Type} {Γ : List Type} {α : Type} (setting : Setting N ε Γ)
      (rule : Rule N ε Γ α) (position : Nat) (members : List Failure),
      (Gathers setting (.apply rule) position members ↔
        ∃ failures : Failures, failures.toList = members ∧
          rule.Yields setting position (.rejected failures)) ∧
      (Gathers setting (.apply rule) position members → members ≠ [])) ∧
    ∀ failures : Failures,
      (∃ making : Making, making.build? = some failures) ∧
      failures.toList.head? = some failures.first ∧
      (∃ failure ∈ failures.toList, failure.position = failures.furthest) ∧
      (∀ failure ∈ failures.toList, failure.position ≤ failures.furthest) ∧
      failures.filtered ≠ [] ∧
      failures.filtered.Nodup ∧
      (∀ failure, failure ∈ failures.filtered ↔
        failure ∈ failures.toList ∧ failure.position = failures.furthest) ∧
      (failures.filtered.Pairwise fun earlier later =>
        failures.toList.idxOf earlier < failures.toList.idxOf later) ∧
      (∀ (failure : Failure) (path : List String), failure.position = failures.furthest →
        path ≠ failure.path → failure ∈ failures.toList →
        { failure with path := path } ∈ failures.toList →
          failure ∈ failures.filtered ∧ { failure with path := path } ∈ failures.filtered ∧
            failure ≠ { failure with path := path }) ∧
      failures.filtered = firstSightings ∅ failures.deepest := by
  refine ⟨fun making => ?_, fun setting rule position members => ?_, fun failures => ?_⟩
  · exact ⟨making.map_toList_build?, fun _ => Making.members?_ne_nil⟩
  · exact ⟨gathers_iff, Gathers.ne_nil⟩
  · have made : (Making.listed failures.toList).build? = some failures :=
      ofList?_toList failures
    have onlyOnce : failures.filtered.Nodup := nodup_distinct failures.deepest
    exact ⟨⟨_, made⟩, rfl, exists_position_eq_furthest failures,
      fun _ => position_le_furthest, filtered_ne_nil failures, onlyOnce,
      fun _ => mem_filtered_iff, filtered_in_order failures, fun _ _ => both_paths_kept,
      filtered_eq_firstSightings failures⟩

/-- The same failure is found in two alternatives and in a third one below a label. -/
theorem Failures.labelledTwo_filtered :
    let two : Rule .none Int [] Int := .nextIf (· = 2)
    let rule := ((Rule.path "row" two).orElse two).orElse two
    let setting : Setting .none Int [] := ⟨⟨#[3], .empty, .off⟩, .nil, ∅⟩
    let unmet : Failure := .bare "condition unmet" 0
    let making : Making := .append (.withPath "row" (.single unmet)) (.listed [unmet, unmet])
    ∃ failures, rule.Yields setting 0 (.rejected failures) ∧
      making.members? = some failures.toList ∧ failures.toList ≠ [] ∧
      Gathers setting (.apply rule) 0 failures.toList ∧
      failures.filtered = [{ unmet with path := ["row"] }, unmet] ∧
      unmet ∈ failures.filtered ∧ { unmet with path := ["row"] } ∈ failures.filtered := by
  intro two rule setting unmet making
  obtain ⟨made, rejected, lists⟩ := filtered_lists_deepest
  let failures : Failures := ⟨{ unmet with path := ["row"] }, [unmet, unmet]⟩
  have yields : rule.Yields setting 0 (.rejected failures) :=
    Rule.yields_iff_apply.mpr ⟨0, _, rfl⟩
  have gathers := (rejected setting rule 0 failures.toList).1.mpr ⟨failures, rfl, yields⟩
  obtain ⟨-, -, -, -, -, -, -, -, bothKept, -⟩ := lists failures
  have both := bothKept unmet ["row"] (by decide) (by decide) (by decide) (by decide)
  exact ⟨failures, yields, rfl, (made making).2 _ rfl, gathers, by decide, both.1, both.2.1⟩

end Rulebook
