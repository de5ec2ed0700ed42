/-
# Guarded recursion terminates

A rule consumes if every acceptance of it moves the cursor forward. A recursive rule is
guarded if each reference to it comes behind something that consumes, and if only rules
that consume are repeated without a ceiling. Guarded recursive rules that consume
terminate at every position of every source.

Three things get smaller while such a rule is applied: what is left of the source from
one reference to the next, the rule between two references, and within a repetition what
is left of the source or up to the ceiling. That references consume is needed for the
last of these, and it is known for the same reason for which they terminate. So both are
shown at once, by induction on what is left of the source and then on the body.
-/

import Rulebook.Lexer.Tokenizer
import Rulebook.Proofs.Leaf
import Rulebook.Proofs.Repetition
import Rulebook.Proofs.Unrolling

namespace Rulebook

namespace Outcome

variable {ε α β : Type} {position bound : Nat} {strictly strictly' : Prop}

/-- An acceptance stops at or behind a position and not behind a bound; under a condition
it stops strictly behind the position. -/
def Proceeds (position bound : Nat) (strictly : Prop) : Outcome α → Prop
  | .accepted _ stop => position ≤ stop ∧ stop ≤ bound ∧ (strictly → position < stop)
  | .rejected _ => True

@[simp]
theorem proceeds_map {f : α → β} {outcome : Outcome α} :
    (outcome.map f).Proceeds position bound strictly ↔
      outcome.Proceeds position bound strictly := by
  cases outcome <;> rfl

@[simp]
theorem proceeds_withPath {label : String} {outcome : Outcome α} :
    (outcome.withPath label).Proceeds position bound strictly ↔
      outcome.Proceeds position bound strictly := by
  cases outcome <;> rfl

theorem Proceeds.weaken {outcome : Outcome α}
    (proceeds : outcome.Proceeds position bound strictly) (weaker : strictly' → strictly) :
    outcome.Proceeds position bound strictly' := by
  cases outcome with
  | accepted value stop =>
      obtain ⟨above, below, moves⟩ := proceeds
      exact ⟨above, below, fun holds => moves (weaker holds)⟩
  | rejected failures => trivial

/-- The better of two outcomes proceeds strictly if both do. -/
theorem Proceeds.best {kept candidate : Outcome α}
    (proceeds : kept.Proceeds position bound strictly)
    (proceedsCandidate : candidate.Proceeds position bound strictly') :
    (kept.best candidate).Proceeds position bound (strictly ∧ strictly') := by
  have left : kept.Proceeds position bound (strictly ∧ strictly') :=
    proceeds.weaken And.left
  have right : candidate.Proceeds position bound (strictly ∧ strictly') :=
    proceedsCandidate.weaken And.right
  cases kept with
  | accepted value stop =>
      cases candidate with
      | accepted found reach =>
          simp only [Outcome.best]
          split
          · exact left
          · exact right
      | rejected failures => exact left
  | rejected failures =>
      cases candidate with
      | accepted found reach => exact right
      | rejected more => trivial

/-- What passes the check for progress has moved. -/
theorem Proceeds.nonEmpty {outcome : Outcome α}
    (proceeds : outcome.Proceeds position bound strictly) :
    (outcome.revise (Matcher.judgeNonEmpty position)).Proceeds position bound True := by
  cases outcome with
  | rejected failures => trivial
  | accepted value stop =>
      rw [revise_accepted, Matcher.judgeNonEmpty]
      split
      · trivial
      · exact ⟨proceeds.1, proceeds.2.1, fun _ => by omega⟩

theorem Proceeds.slice {outcome : Outcome α}
    (proceeds : outcome.Proceeds position bound strictly) (source : Array ε) :
    (outcome.revise (Matcher.judgeSlice source position)).Proceeds position bound
      strictly := by
  cases outcome with
  | rejected failures => trivial
  | accepted value stop =>
      rw [revise_accepted, Matcher.judgeSlice]
      split
      · exact proceeds
      · trivial

end Outcome

namespace Leaf

variable {ε α : Type} {source : Array ε} {position bound : Nat}

/-- Every acceptance consumes an element. -/
def Consumes : Leaf ε α → Prop
  | .next _ => True
  | .window size _ _ _ => 0 < size
  | _ => False

/-- A comparison that succeeds stops behind what it compared. -/
theorem stop_of_compare {size : Nat} {agrees : Array ε → Bool} {mismatch : Array ε → String}
    {result value : α} {stop : Nat}
    (compared : compare source size agrees mismatch result position =
      .accepted value stop) : stop = position + size := by
  unfold compare at compared
  split at compared
  · split at compared
    · split at compared <;> cases compared
      rfl
    · cases compared
  · cases compared

/-- A leaf that consumes stops behind the cursor. -/
theorem Consumes.lt_stop {part : Leaf ε α} (consumes : part.Consumes) {context : Context}
    {value : α} {stop : Nat}
    (applied : part.apply source context position = .ok (.accepted value stop)) :
    position < stop := by
  cases part with
  | accept | reject | finish | skipWhile | custom => exact consumes.elim
  | next read =>
      simp only [apply] at applied
      split at applied
      · cases applied
      · split at applied
        · cases applied
        · simp only [advance] at applied
          split at applied <;> cases applied
          exact Nat.lt_succ_self position
  | window size agrees mismatch result =>
      have stops := stop_of_compare (Except.ok.inj applied)
      exact stops ▸ Nat.lt_add_of_pos_right consumes

/-- What a leaf of the library comes to proceeds, strictly so if the leaf consumes. -/
theorem proceeds_of_apply {part : Leaf ε α} (standard : part.Standard)
    (inside : source.size ≤ bound) (within : position ≤ bound) {context : Context}
    {outcome : Outcome α} (applied : part.apply source context position = .ok outcome) :
    outcome.Proceeds position bound part.Consumes := by
  cases outcome with
  | rejected failures => trivial
  | accepted value stop =>
      obtain ⟨above, below⟩ := plain_apply standard applied
      exact ⟨above, by omega, fun consumes => consumes.lt_stop applied⟩

end Leaf

variable {N : Nonterminals} {ε : Type} {Γ : List Type} {α β γ : Type}

namespace Rule

/-- By its form alone every acceptance of the rule moves the cursor forward. Of references
this is assumed or not. -/
def Consumes (references : Prop) : {Γ : List Type} → {α : Type} → Rule N ε Γ α → Prop
  | _, _, .leaf part => part.Consumes
  | _, _, .unfinished rule => rule.Consumes references
  | _, _, .map _ rule => rule.Consumes references
  | _, _, .flatMap _ _ => False
  | _, _, .thenWith _ rule next => rule.Consumes references ∨ next.Consumes references
  | _, _, .nonEmpty _ => True
  | _, _, .path _ rule => rule.Consumes references
  | _, _, .traced _ rule => rule.Consumes references
  | _, _, .orElse rule other => rule.Consumes references ∧ other.Consumes references
  | _, _, .slice rule => rule.Consumes references
  | _, _, .spanned rule => rule.Consumes references
  | _, _, .repeated bounds _ item _ _ => 1 ≤ bounds.floor ∧ item.Consumes references
  | _, _, .deferred _ _ => False
  | _, _, .delayed _ rule => rule.Consumes references
  | _, _, .fresh rule => rule.Consumes references
  | _, _, .reference _ => references
  | _, _, .recursive _ => False

/-- Every reference comes behind something that consumes, and only what consumes is
repeated without a ceiling. Whether the rule as a whole comes behind something that
consumes is given. No continuations, names, nested recursive rules and leaves written by
hand are used. -/
def Guarded : {Γ : List Type} → {α : Type} → (behind : Prop) → Rule N ε Γ α → Prop
  | _, _, _, .leaf part => part.Standard
  | _, _, behind, .unfinished rule => rule.Guarded behind
  | _, _, behind, .map _ rule => rule.Guarded behind
  | _, _, _, .flatMap _ _ => False
  | _, _, behind, .thenWith _ rule next =>
    rule.Guarded behind ∧ next.Guarded (behind ∨ rule.Consumes True)
  | _, _, behind, .nonEmpty rule => rule.Guarded behind
  | _, _, behind, .path _ rule => rule.Guarded behind
  | _, _, behind, .traced _ rule => rule.Guarded behind
  | _, _, behind, .orElse rule other => rule.Guarded behind ∧ other.Guarded behind
  | _, _, behind, .slice rule => rule.Guarded behind
  | _, _, behind, .spanned rule => rule.Guarded behind
  | _, _, behind, .repeated bounds separator item _ _ =>
    separator.Guarded behind ∧ item.Guarded behind ∧
      (bounds.ceiling = none → item.Consumes True)
  | _, _, _, .deferred _ _ => False
  | _, _, behind, .delayed _ rule => rule.Guarded behind
  | _, _, behind, .fresh rule => rule.Guarded behind
  | _, _, behind, .reference _ => behind
  | _, _, _, .recursive _ => False

/-- To assume more of references does not take away that a rule consumes. -/
theorem Consumes.mono {references references' : Prop} (more : references → references')
    {rule : Rule N ε Γ α} (consumes : rule.Consumes references) :
    rule.Consumes references' := by
  induction rule with
  | leaf | nonEmpty => exact consumes
  | flatMap | deferred | recursive => exact consumes.elim
  | unfinished _ ih | map _ _ ih | path _ _ ih | traced _ _ ih | slice _ ih | spanned _ ih
  | delayed _ _ ih | fresh _ ih => exact ih consumes
  | thenWith combine rule next ih ihNext => exact consumes.imp ih ihNext
  | orElse rule other ih ihOther => exact ⟨ih consumes.1, ihOther consumes.2⟩
  | repeated bounds separator item init fold ihSeparator ihItem =>
      exact ⟨consumes.1, ihItem consumes.2⟩
  | reference place => exact more consumes

/-- An alternation consumes if all alternatives do. -/
theorem consumes_fork_iff {references : Prop} {first : Rule N ε Γ α}
    {others : List (Rule N ε Γ α)} :
    (fork first others).Consumes references ↔
      ∀ rule ∈ first :: others, rule.Consumes references := by
  unfold fork
  induction others generalizing first with
  | nil => simp
  | cons other others ih =>
      rw [List.foldl_cons, ih]
      simp only [List.forall_mem_cons, Consumes, and_assoc]

/-- A rule between two others consumes if one of the three does. -/
theorem consumes_enclose_iff {references : Prop} {opening : Rule N ε Γ α}
    {closing : Rule N ε Γ β} {rule : Rule N ε Γ γ} :
    (enclose opening closing rule).Consumes references ↔
      opening.Consumes references ∨ rule.Consumes references ∨
        closing.Consumes references := by
  have nothing : ¬ (Chain.empty : Chain N ε Γ []).rule.Consumes references := id
  simp only [enclose, first, Chain.done, Chain.skip, Chain.push, Consumes, nothing, false_or,
    or_assoc]

/-- A text is consumed unless it is empty. -/
theorem consumes_literal_iff {references : Prop} {text : String} :
    (Lexer.literal text : Rule N Grapheme Γ Unit).Consumes references ↔ text ≠ "" := by
  have joined : String.join [text] = text := by simp [String.join]
  show 0 < (Text.graphemes (String.join [text])).size ↔ text ≠ ""
  rw [joined, Array.size_pos_iff]
  refine not_congr ⟨fun none => ?_, fun empty => ?_⟩
  · rw [← Text.concat_graphemes text, none]
    rfl
  · rw [empty]
    rfl

/-- Applied at a position, the rule terminates. -/
def Terminates (setting : Setting N ε Γ) (rule : Rule N ε Γ α) (position : Nat) : Prop :=
  ∃ outcome, rule.Yields setting position outcome

/-- Applied at a position, the rule terminates, and what it comes to proceeds. -/
def Proceeds (setting : Setting N ε Γ) (bound : Nat) (strictly : Prop)
    (rule : Rule N ε Γ α) (position : Nat) : Prop :=
  ∃ outcome, rule.Yields setting position outcome ∧
    outcome.Proceeds position bound strictly

variable {setting : Setting N ε Γ} {bound position : Nat} {strictly strictly' : Prop}
  {rule other : Rule N ε Γ α}

theorem Proceeds.weaken (proceeds : rule.Proceeds setting bound strictly position)
    (weaker : strictly' → strictly) : rule.Proceeds setting bound strictly' position := by
  obtain ⟨outcome, yields, proceeds⟩ := proceeds
  exact ⟨outcome, yields, proceeds.weaken weaker⟩

/-- A sequence proceeds if its second rule does wherever the first one stops, and strictly
so if one of the two does. -/
theorem Proceeds.thenWith {combine : α → β → γ} {next : Rule N ε Γ β}
    (first : rule.Proceeds setting bound strictly position)
    (second : ∀ middle, position ≤ middle → middle ≤ bound →
      (strictly → position < middle) → next.Proceeds setting bound strictly' middle) :
    (rule.thenWith combine next).Proceeds setting bound (strictly ∨ strictly') position := by
  obtain ⟨outcome, yields, proceeds⟩ := first
  cases outcome with
  | rejected failures =>
      exact ⟨.rejected failures, yields_thenWith_iff.mpr (.inr ⟨failures, yields, rfl⟩),
        trivial⟩
  | accepted value middle =>
      obtain ⟨above, below, moves⟩ := proceeds
      obtain ⟨found, goesOn, proceeds'⟩ := second middle above below moves
      refine ⟨found.map (combine value),
        yields_thenWith_iff.mpr (.inl ⟨value, middle, found, yields, goesOn, rfl⟩), ?_⟩
      cases found with
      | rejected failures => trivial
      | accepted last stop =>
          obtain ⟨above', below', moves'⟩ := proceeds'
          refine ⟨Nat.le_trans above above', below', ?_⟩
          intro some
          rcases some with firstMoves | secondMoves
          · exact Nat.lt_of_lt_of_le (moves firstMoves) above'
          · exact Nat.lt_of_le_of_lt above (moves' secondMoves)

end Rule

namespace Repetition

variable {setting : Setting N ε Γ} {repetition : Repetition N ε Γ} {item : Rule N ε Γ α}
  {start bound : Nat} {strictly : Prop}

/-- All attempts between a start and a bound terminate and proceed. -/
def AttemptsProceed (setting : Setting N ε Γ) (repetition : Repetition N ε Γ)
    (item : Rule N ε Γ α) (start bound : Nat) (strictly : Prop) : Prop :=
  ∀ index position, start ≤ position → position ≤ bound →
    ∃ outcome, Attempt setting repetition item index position outcome ∧
      outcome.Proceeds position bound strictly

/-- The attempts proceed if separator and item do. -/
theorem attemptsProceed {bounds : Bounds} {separator : Rule N ε Γ Unit}
    (separates : ∀ position, start ≤ position → position ≤ bound →
      separator.Proceeds setting bound False position)
    (repeats : ∀ position, start ≤ position → position ≤ bound →
      item.Proceeds setting bound strictly position) :
    AttemptsProceed setting ⟨bounds, some separator⟩ item start bound strictly := by
  intro index position above within
  cases index with
  | zero =>
      obtain ⟨outcome, yields, proceeds⟩ := repeats position above within
      exact ⟨outcome, attempt_zero_iff.mpr yields, proceeds⟩
  | succ index =>
      obtain ⟨outcome, yields, proceeds⟩ :
          (laterAttempt ⟨bounds, some separator⟩ item).Proceeds setting bound
            (False ∨ strictly) position :=
        (separates position above within).thenWith fun middle further inside _ =>
          repeats middle (Nat.le_trans above further) inside
      exact ⟨outcome, attempt_succ_iff.mpr yields, proceeds.weaken .inr⟩

/-- Successes stop further on, and strictly so if there are any that move. -/
theorem Successes.stop {values : List α} {stop : Nat}
    (attempts : AttemptsProceed setting repetition item start bound strictly)
    (inside : start ≤ bound)
    (successes : Successes setting repetition item start values stop) :
    start ≤ stop ∧ stop ≤ bound ∧ (strictly → values ≠ [] → start < stop) := by
  induction successes with
  | none => exact ⟨Nat.le_refl start, inside, fun _ nonempty => absurd rfl nonempty⟩
  | more successes succeeds ih =>
      obtain ⟨above, within, _⟩ := ih
      obtain ⟨outcome, attempt, proceeds⟩ := attempts _ _ above within
      rw [← succeeds.unique attempt] at proceeds
      obtain ⟨above', within', moves⟩ := proceeds
      exact ⟨Nat.le_trans above above', within',
        fun holds _ => Nat.lt_of_le_of_lt above (moves holds)⟩

/-- A repetition whose attempts proceed comes to a result, if there is a ceiling or the
attempts move. -/
theorem Successes.exists_result {values : List α} {position : Nat}
    (attempts : AttemptsProceed setting repetition item start bound strictly)
    (inside : start ≤ bound)
    (moving : repetition.bounds.ceiling = Option.none → strictly)
    (successes : Successes setting repetition item start values position)
    (within : ∀ limit ∈ repetition.bounds.ceiling, values.length ≤ limit) :
    ∃ result, Result setting repetition item start result := by
  obtain ⟨above, below, _⟩ := successes.stop attempts inside
  -- With every success there is less left up to the ceiling, or up to the bound.
  refine successes.exists_result_of_decreasing
    (fun position => start ≤ position ∧ position ≤ bound)
    (fun index position =>
      repetition.bounds.ceiling.elim (bound - position) (· - index))
    (fun index position between => ?_) (fun index position value stop room between attempt => ?_)
    ⟨above, below⟩ within
  · obtain ⟨outcome, attempt, _⟩ := attempts index position between.1 between.2
    exact ⟨outcome, attempt⟩
  · obtain ⟨outcome, attempt', proceeds⟩ := attempts index position between.1 between.2
    rw [← attempt.unique attempt'] at proceeds
    obtain ⟨further, below', moves⟩ := proceeds
    refine ⟨⟨Nat.le_trans between.1 further, below'⟩, ?_⟩
    cases ceiling : repetition.bounds.ceiling with
    | none =>
        have forward := moves (moving ceiling)
        simp only [Option.elim_none]
        omega
    | some limit =>
        have less := room limit ceiling
        simp only [Option.elim_some]
        omega

/-- A result with values enough for a floor stops where successes do. -/
theorem Result.proceeds {result : Outcome (List α)}
    (attempts : AttemptsProceed setting repetition item start bound strictly)
    (inside : start ≤ bound) (comes : Result setting repetition item start result) :
    result.Proceeds start bound (1 ≤ repetition.bounds.floor ∧ strictly) := by
  have reaches {values : List α} {stop : Nat}
      (successes : Successes setting repetition item start values stop)
      (enough : repetition.bounds.floor ≤ values.length) :
      (Outcome.accepted values stop).Proceeds start bound
        (1 ≤ repetition.bounds.floor ∧ strictly) := by
    obtain ⟨above, below, moves⟩ := successes.stop attempts inside
    refine ⟨above, below, fun ⟨positive, holds⟩ => moves holds ?_⟩
    exact List.ne_nil_of_length_pos (Nat.le_trans positive enough)
  cases comes with
  | full successes ceiling =>
      exact reaches successes (repetition.bounds.floor_le_ceiling _ ceiling)
  | short => trivial
  | ended successes room fails enough => exact reaches successes enough

/-- A repetition proceeds if its attempts do, and strictly so if it has to match something
that does. -/
theorem proceeds_foldMany {init : β} {fold : β → α → β}
    (attempts : AttemptsProceed setting repetition item start bound strictly)
    (inside : start ≤ bound) (moving : repetition.bounds.ceiling = none → strictly) :
    (item.foldMany repetition init fold).Proceeds setting bound
      (1 ≤ repetition.bounds.floor ∧ strictly) start := by
  obtain ⟨result, comes⟩ := Successes.exists_result attempts inside moving .none
    fun _ _ => Nat.zero_le _
  exact ⟨_, yields_foldMany_iff.mpr ⟨result, comes, rfl⟩,
    Outcome.proceeds_map.mpr (comes.proceeds attempts inside)⟩

end Repetition

/-! ## Rules whose references proceed -/

namespace Rule

variable {input : Input N ε} {low bound : Nat}

/-- References proceed strictly, behind a position, whatever labels are active. -/
def ReferencesProceed (input : Input N ε) (env : Env N ε Γ) (low bound : Nat) : Prop :=
  ∀ ⦃α : Type⦄ (place : Member α Γ) (context : Context) (position : Nat),
    low < position → position ≤ bound →
      (reference place).Proceeds ⟨input, env, context⟩ bound True position

/-- A guarded rule proceeds if references do behind where it starts, and strictly so if it
consumes. -/
theorem Guarded.proceeds (fits : input.source.size ≤ lastPosition)
    (inside : input.source.size ≤ bound) {env : Env N ε Γ}
    (references : ReferencesProceed input env low bound) {rule : Rule N ε Γ α}
    {behind : Prop} (guarded : rule.Guarded behind) (context : Context) {position : Nat}
    (above : low ≤ position) (passed : behind → low < position) (within : position ≤ bound) :
    rule.Proceeds ⟨input, env, context⟩ bound (rule.Consumes True) position := by
  induction rule generalizing behind context position with
  | leaf part =>
      obtain ⟨outcome, applied⟩ := Leaf.exists_apply fits _ context position
      exact ⟨outcome, yields_leaf_iff.mpr applied,
        Leaf.proceeds_of_apply guarded inside within applied⟩
  | flatMap | deferred | recursive => exact guarded.elim
  | reference place => exact references place context position (passed guarded) within
  | unfinished rule ih =>
      by_cases element : position < input.source.size
      · obtain ⟨outcome, yields, proceeds⟩ := ih references guarded context above passed within
        exact ⟨outcome, yields_unfinished_iff.mpr (.inl ⟨element, yields⟩), proceeds⟩
      · exact ⟨_, yields_unfinished_iff.mpr (.inr ⟨Nat.not_lt.mp element, rfl⟩), trivial⟩
  | map f rule ih =>
      obtain ⟨found, yields, proceeds⟩ := ih references guarded context above passed within
      exact ⟨_, yields_map_iff.mpr ⟨found, yields, rfl⟩, Outcome.proceeds_map.mpr proceeds⟩
  | thenWith combine rule next ih ihNext =>
      refine (ih references guarded.1 context above passed within).thenWith
        fun middle further inside moves => ?_
      -- A first rule that consumes has moved on, so references are fine behind it.
      refine ihNext references guarded.2 context (Nat.le_trans above further) ?_ inside
      intro either
      rcases either with before | consumes
      · exact Nat.lt_of_lt_of_le (passed before) further
      · exact Nat.lt_of_le_of_lt above (moves consumes)
  | nonEmpty rule ih =>
      obtain ⟨found, yields, proceeds⟩ := ih references guarded context above passed within
      exact ⟨_, yields_nonEmpty_iff.mpr ⟨found, yields, rfl⟩, proceeds.nonEmpty⟩
  | path label rule ih =>
      obtain ⟨found, yields, proceeds⟩ :=
        ih references guarded (context.enter label).2 above passed within
      exact ⟨_, yields_path_iff.mpr ⟨found, yields, rfl⟩,
        Outcome.proceeds_withPath.mpr proceeds⟩
  | traced label rule ih =>
      obtain ⟨outcome, yields, proceeds⟩ :=
        ih references guarded (context.enter label).2 above passed within
      exact ⟨outcome, yields_traced_iff.mpr yields, proceeds⟩
  | orElse rule other ih ihOther =>
      obtain ⟨kept, yields, proceeds⟩ := ih references guarded.1 context above passed within
      obtain ⟨candidate, yields', proceeds'⟩ :=
        ihOther references guarded.2 context above passed within
      exact ⟨_, yields_orElse_iff.mpr ⟨kept, candidate, yields, yields', rfl⟩,
        proceeds.best proceeds'⟩
  | slice rule ih =>
      obtain ⟨found, yields, proceeds⟩ := ih references guarded context above passed within
      exact ⟨_, yields_slice_iff.mpr ⟨found, yields, rfl⟩, proceeds.slice _⟩
  | spanned rule ih =>
      obtain ⟨found, yields, proceeds⟩ := ih references guarded context above passed within
      refine ⟨_, yields_spanned_iff.mpr ⟨found, yields, rfl⟩, ?_⟩
      cases found <;> exact proceeds
  | repeated bounds separator item init fold ihSeparator ihItem =>
      obtain ⟨separatorGuarded, itemGuarded, moving⟩ := guarded
      -- Later attempts start further on, and what was passed before is passed there too.
      have passed' {further : Nat} (onwards : position ≤ further) (before : behind) :
          low < further :=
        Nat.lt_of_lt_of_le (passed before) onwards
      have attempts : Repetition.AttemptsProceed ⟨input, env, context⟩
          ⟨bounds, some separator⟩ item position bound (item.Consumes True) := by
        refine Repetition.attemptsProceed (fun further onwards below => ?_)
          fun further onwards below => ?_
        · have proceeds := ihSeparator references separatorGuarded context
            (Nat.le_trans above onwards) (passed' onwards) below
          exact proceeds.weaken False.elim
        · exact ihItem references itemGuarded context (Nat.le_trans above onwards)
            (passed' onwards) below
      exact Repetition.proceeds_foldMany attempts within moving
  | delayed number rule ih =>
      obtain ⟨outcome, yields, proceeds⟩ := ih references guarded context above passed within
      exact ⟨outcome, yields_delayed_iff.mpr yields, proceeds⟩
  | fresh rule ih =>
      obtain ⟨outcome, yields, proceeds⟩ := ih references guarded context above passed within
      exact ⟨outcome, yields_fresh_iff.mpr yields, proceeds⟩

/-! ## Guarded recursion -/

/-- A guarded recursive rule that consumes proceeds everywhere. -/
theorem Guarded.recursive_proceeds (fits : input.source.size ≤ lastPosition)
    (inside : input.source.size ≤ bound) {body : Rule N ε [α] α}
    (guarded : body.Guarded False) (consumes : body.Consumes True) (context : Context)
    {position : Nat} (within : position ≤ bound) :
    (recursive body).Proceeds ⟨input, .nil, context⟩ bound True position := by
  -- A reference is followed only where less of the source is left.
  induction left : bound - position using Nat.strongRecOn generalizing context position with
  | ind left again =>
      have references :
          ReferencesProceed input (.cons (.defined body) 0 .nil) position bound := by
        intro β place context further beyond within'
        cases place with
        | there place => nomatch place
        | here =>
            obtain ⟨outcome, yields, proceeds⟩ :=
              again (bound - further) (by omega) context within' rfl
            exact ⟨outcome, yields_reference_here_iff.mpr yields, proceeds⟩
      obtain ⟨outcome, yields, proceeds⟩ := guarded.proceeds fits inside references context
        (Nat.le_refl position) False.elim within
      exact ⟨outcome, yields_recursive_iff.mpr yields, proceeds.weaken fun _ => consumes⟩

theorem Guarded.recursive_terminates (fits : input.source.size ≤ lastPosition)
    {body : Rule N ε [α] α} (guarded : body.Guarded False) (consumes : body.Consumes False)
    (context : Context) (position : Nat) :
    (recursive body).Terminates ⟨input, .nil, context⟩ position := by
  obtain ⟨outcome, yields, _⟩ := guarded.recursive_proceeds fits
    (Nat.le_max_right position input.source.size) (consumes.mono False.elim) context
    (Nat.le_max_left position input.source.size)
  exact ⟨outcome, yields⟩

/-- A guarded recursive rule that consumes terminates at every position of every source
whose length is a position. So does the definition with its own name in place of the
references, and the deferred rule of that name. -/
theorem guarded_recursion_terminates {input : Input N ε}
    (fits : input.source.size ≤ lastPosition) (context : Context) (position : Nat) :
    (∀ {α : Type} (body : Rule N ε [α] α), body.Consumes False → body.Guarded False →
      (recursive body).Terminates ⟨input, .nil, context⟩ position) ∧
    ∀ (name : N.Name) (number : Nat) (body : Rule N ε [N.Value name] (N.Value name)),
      body.Consumes False → body.Guarded False →
      input.grammar name = .ok (body.instantiate (.deferred number name)) →
      (body.instantiate (.deferred number name)).Terminates ⟨input, .nil, context⟩
        position ∧
      (deferred number name : Rule N ε [] _).Terminates ⟨input, .nil, context⟩ position := by
  refine ⟨fun body consumes guarded =>
    guarded.recursive_terminates fits consumes context position, ?_⟩
  intro name number body consumes guarded defined
  obtain ⟨outcome, yields⟩ := guarded.recursive_terminates fits consumes context position
  have unnamed := (yields_recursive_iff_definition defined).mp yields
  exact ⟨⟨outcome, unnamed⟩, outcome, (yields_deferred_iff defined).mpr unnamed⟩

theorem consumes_brackets : (brackets : Rule N Char [Nat] Nat).Consumes False :=
  consumes_enclose_iff.mpr (.inl trivial)

/-- The reference comes behind the opening bracket. -/
theorem guarded_brackets : (brackets : Rule N Char [Nat] Nat).Guarded False := by
  have behindBracket : (collect .any (.reference .here) : Rule N Char [Nat] _).Guarded
      (False ∨ False ∨ True) :=
    ⟨trivial, .inr (.inr trivial), fun _ => trivial⟩
  exact ⟨⟨⟨trivial, trivial⟩, behindBracket⟩, trivial⟩

/-- The number of digits in nested lists of digits. -/
def digits : Rule N Grapheme [Nat] Nat :=
  fork ((Lexer.anyOf "0123456789").yielding 1)
    [(enclose (Lexer.literal "(") (Lexer.literal ")")
      (collect (.separatedBy (Lexer.literal ",") .any) (.reference .here))).map
        fun counts => counts.foldl (· + ·) 0]

theorem consumes_digits : (digits : Rule N Grapheme [Nat] Nat).Consumes False := by
  rw [digits, consumes_fork_iff, List.forall_mem_cons, List.forall_mem_singleton]
  exact ⟨trivial, consumes_enclose_iff.mpr (.inl (consumes_literal_iff.mpr (by decide)))⟩

/-- The reference comes behind the opening parenthesis. -/
theorem guarded_digits : (digits : Rule N Grapheme [Nat] Nat).Guarded False := by
  have opens : (Lexer.literal "(" : Rule N Grapheme [Nat] Unit).Consumes True :=
    consumes_literal_iff.mpr (by decide)
  exact ⟨trivial, ⟨⟨trivial, trivial⟩, trivial, .inr (.inr opens), fun _ => trivial⟩, trivial⟩

/-- The outer list and the outer bracket are never closed. -/
theorem digits_and_brackets_terminate :
    let text : Input .none Grapheme := ⟨Lexer.feed "(1,(2,3)", .empty, .off⟩
    let input : Input bracketNames Char := ⟨#['[', '[', ']'], bracketGrammar, .off⟩
    (text.source.size ≤ lastPosition ∧
      (digits : Rule .none Grapheme [Nat] Nat).Consumes False ∧
      (digits : Rule .none Grapheme [Nat] Nat).Guarded False ∧
      (recursive digits).Terminates ⟨text, .nil, ∅⟩ 0) ∧
    input.source.size ≤ lastPosition ∧
      (brackets : Rule bracketNames Char [Nat] Nat).Consumes False ∧
      (brackets : Rule bracketNames Char [Nat] Nat).Guarded False ∧
      input.grammar () = .ok (brackets.instantiate (.deferred 0 ())) ∧
      (deferred 0 () : Rule bracketNames Char [] _).Terminates ⟨input, .nil, ∅⟩ 0 := by
  intro text input
  have textFits : text.source.size ≤ lastPosition := by cbv
  have fits : input.source.size ≤ lastPosition := by decide
  have recursion := (guarded_recursion_terminates textFits ∅ 0).1 digits consumes_digits
    guarded_digits
  have definition := (guarded_recursion_terminates fits ∅ 0).2 () 0 brackets
    consumes_brackets guarded_brackets rfl
  exact ⟨⟨textFits, consumes_digits, guarded_digits, recursion⟩,
    fits, consumes_brackets, guarded_brackets, rfl, definition.2⟩

end Rule

end Rulebook
