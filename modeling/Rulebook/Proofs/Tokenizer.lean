/-
# Tokens by the longest match

A tokenizer splits a text by taking the longest token at each place, the
earliest rule of several that reach as far, and by skipping what is ignored in
front of the first token and between two. It accepts exactly if this process
ends at the end of the text. Otherwise it says where the process ended, unless
what is ignored was rejected at the very beginning. Failures of token rules are
never reported, nor what was ignored after the last token.
-/

import Rulebook.Lexer.Tokenizer
import Rulebook.Proofs.Alternation
import Rulebook.Proofs.Chain
import Rulebook.Proofs.Reach
import Rulebook.Proofs.Repetition

namespace Rulebook

variable {N : Nonterminals} {ε : Type} {Γ : List Type} {α : Type}

namespace Rule

/-- From every position of the source the rule comes to an outcome, and where
it accepts it stops between that position and the end. -/
def StaysInside (setting : Setting N ε Γ) (rule : Rule N ε Γ α) : Prop :=
  ∀ position ≤ setting.size, (∃ outcome, rule.Yields setting position outcome) ∧
    ∀ value stop, rule.Yields setting position (.accepted value stop) →
      position ≤ stop ∧ stop ≤ setting.size

/-- Where a rule without leaves written by hand accepts, it stops between the cursor and
the end. -/
theorem Yields.stop_between {setting : Setting N ε Γ} {rule : Rule N ε Γ α}
    (grammarWithin : setting.input.grammar.Within .standard)
    (envWithin : setting.env.Within .standard) (within : rule.Within .standard)
    {position : Nat} (inside : position ≤ setting.size) {value : α} {stop : Nat}
    (accepts : rule.Yields setting position (.accepted value stop)) :
    position ≤ stop ∧ stop ≤ setting.size := by
  obtain ⟨steps, after, applied⟩ := yields_iff_apply.mp accepts
  obtain ⟨above, below⟩ := forward_apply grammarWithin (steps + 1) within envWithin 0 applied
  exact ⟨above, Nat.le_trans below (Nat.max_le.mpr ⟨inside, Nat.le_refl _⟩)⟩

/-- A rule without leaves written by hand stays inside if some number of steps is
enough everywhere. -/
theorem staysInside_of_isOk {setting : Setting N ε Γ} {rule : Rule N ε Γ α}
    (grammarWithin : setting.input.grammar.Within .standard)
    (envWithin : setting.env.Within .standard) (within : rule.Within .standard)
    (steps : Nat) (enough : ∀ position ≤ setting.size,
      (apply setting.input steps rule setting.env 0 setting.session position).isOk) :
    rule.StaysInside setting := by
  intro position inside
  have terminates : ∃ outcome, rule.Yields setting position outcome := by
    have ended := enough position inside
    cases applied : apply setting.input steps rule setting.env 0 setting.session position with
    | error cause => simp [applied, Except.isOk, Except.toBool] at ended
    | ok result => exact ⟨result.1, yields_of_apply rfl applied⟩
  exact ⟨terminates, fun value stop accepts =>
    accepts.stop_between grammarWithin envWithin within inside⟩

end Rule

namespace Lexer

/-- What is ignored at a position ends at `stop`. Without anything to ignore
that is the position itself. -/
def Skips (setting : Setting N Grapheme Γ) (ignored : Option (Rule N Grapheme Γ Unit))
    (position stop : Nat) : Prop :=
  match ignored with
  | none => stop = position
  | some rule => rule.Yields setting position (.accepted () stop)

/-- After `count` tokens, the last of which stopped at a position, the next token
is `value` and stops at `stop`. In front of the first token nothing is skipped
here. -/
def NextToken (setting : Setting N Grapheme Γ) (tokens : List (Rule N Grapheme Γ α))
    (ignored : Option (Rule N Grapheme Γ Unit)) (count position : Nat) (value : α)
    (stop : Nat) : Prop :=
  ∃ start, (if count = 0 then start = position else Skips setting ignored position start) ∧
    Rule.Longest setting tokens start value stop ∧ start < stop

/-- After `count` tokens there is no next one. -/
def NothingFollows (setting : Setting N Grapheme Γ) (tokens : List (Rule N Grapheme Γ α))
    (ignored : Option (Rule N Grapheme Γ Unit)) (count position : Nat) : Prop :=
  ∀ value stop, ¬ NextToken setting tokens ignored count position value stop

/-- From `start` on the longest matches are the given tokens, and the last of
them stops at a position. -/
inductive Lexes (setting : Setting N Grapheme Γ) (tokens : List (Rule N Grapheme Γ α))
    (ignored : Option (Rule N Grapheme Γ Unit)) (start : Nat) : List α → Nat → Prop
  | none : Lexes setting tokens ignored start [] start
  | more {values : List α} {position stop : Nat} {value : α}
      (lexes : Lexes setting tokens ignored start values position)
      (next : NextToken setting tokens ignored values.length position value stop) :
      Lexes setting tokens ignored start (values ++ [value]) stop

/-- The failure that says that the text goes on where the last token stopped. -/
def GoesOn (setting : Setting N Grapheme Γ) (stop : Nat) (failures : Failures) : Prop :=
  ∃ element, setting.input.source[stop]? = some element ∧
    failures = .single (.bare
      ("expected end of input, got " ++ Describe.describe element) stop)

variable {setting : Setting N Grapheme Γ} {first : Rule N Grapheme Γ α}
  {others : List (Rule N Grapheme Γ α)} {ignored : Option (Rule N Grapheme Γ Unit)}

/-- The rule for what is ignored, the empty match if there is none. -/
abbrev skipRule (ignored : Option (Rule N Grapheme Γ Unit)) : Rule N Grapheme Γ Unit :=
  ignored.getD (.accept ())

theorem yields_skipRule_iff {position stop : Nat} :
    (skipRule ignored).Yields setting position (.accepted () stop) ↔
      Skips setting ignored position stop := by
  cases ignored with
  | none =>
      simp only [skipRule, Option.getD_none, Rule.accept, Rule.yields_leaf_iff, Leaf.apply,
        Skips]
      simp [eq_comm]
  | some rule => rfl

theorem yields_skipRule_rejected_iff {position : Nat} {failures : Failures} :
    (skipRule ignored).Yields setting position (.rejected failures) ↔
      ∃ skipped ∈ ignored, skipped.Yields setting position (.rejected failures) := by
  cases ignored with
  | none =>
      rw [skipRule, Option.getD_none, Rule.yields_accept_iff]
      simp
  | some rule => simp [skipRule]

theorem staysInside_skipRule
    (ignoredInside : ∀ rule ∈ ignored, rule.StaysInside setting) :
    (skipRule ignored).StaysInside setting := by
  cases ignored with
  | none =>
      intro position inside
      refine ⟨⟨.accepted () position, yields_skipRule_iff.mpr rfl⟩, ?_⟩
      intro value stop yields
      obtain rfl : stop = position := yields_skipRule_iff.mp yields
      exact ⟨Nat.le_refl _, inside⟩
  | some rule => exact ignoredInside rule rfl

/-- The repetition of tokens in a tokenizer. -/
abbrev tokenRepetition (ignored : Option (Rule N Grapheme Γ Unit)) :
    Repetition N Grapheme Γ :=
  Repetition.any.separatedBy (skipRule ignored)

/-- The rule for one token. -/
abbrev tokenRule (first : Rule N Grapheme Γ α) (others : List (Rule N Grapheme Γ α)) :
    Rule N Grapheme Γ α :=
  (Rule.fork first others).nonEmpty

/-- A token is the longest match if that is not empty. -/
theorem yields_tokenRule_iff {position stop : Nat} {value : α}
    (tokensInside : ∀ rule ∈ first :: others, rule.StaysInside setting)
    (inside : position ≤ setting.size) :
    (tokenRule first others).Yields setting position (.accepted value stop) ↔
      Rule.Longest setting (first :: others) position value stop ∧ position < stop := by
  have terminating (rule : Rule N Grapheme Γ α) (occurs : rule ∈ first :: others) :=
    (tokensInside rule occurs position inside).1
  rw [Rule.yields_nonEmpty_accepted_iff, Rule.yields_fork_accepted_iff terminating]

theorem exists_yields_tokenRule {position : Nat}
    (tokensInside : ∀ rule ∈ first :: others, rule.StaysInside setting)
    (inside : position ≤ setting.size) :
    ∃ outcome, (tokenRule first others).Yields setting position outcome := by
  obtain ⟨outcome, yields⟩ := Rule.exists_yields_fork fun rule occurs =>
    (tokensInside rule occurs position inside).1
  exact ⟨_, Rule.yields_nonEmpty_iff.mpr ⟨outcome, yields, rfl⟩⟩

/-- The longest match among rules that stay inside stays inside. -/
theorem le_size_of_longest {position stop : Nat} {value : α}
    {tokens : List (Rule N Grapheme Γ α)}
    (tokensInside : ∀ rule ∈ tokens, rule.StaysInside setting)
    (inside : position ≤ setting.size)
    (longest : Rule.Longest setting tokens position value stop) : stop ≤ setting.size := by
  obtain ⟨before, rule, later, rfl, yields, _⟩ := longest
  exact ((tokensInside rule (by simp) position inside).2 value stop yields).2

/-- After the last token only the end of the text is accepted. -/
theorem yields_finish_iff {position : Nat} {outcome : Outcome Unit}
    (inside : position ≤ setting.size) :
    (Rule.finish : Rule N Grapheme Γ Unit).Yields setting position outcome ↔
      (position = setting.size ∧ outcome = .accepted () position) ∨
      ∃ failures, GoesOn setting position failures ∧ outcome = .rejected failures := by
  rw [Rule.finish, Rule.yields_leaf_iff]
  simp only [Leaf.apply, GoesOn, Outcome.reject]
  cases found : setting.input.source[position]? with
  | none =>
      have atEnd : position = setting.input.source.size :=
        Nat.le_antisymm inside (Array.getElem?_eq_none_iff.mp found)
      simp [atEnd, Setting.size, eq_comm]
  | some element =>
      have within := (Array.getElem?_eq_some_iff.mp found).1
      have goesOn : position ≠ setting.size := Nat.ne_of_lt within
      simp [goesOn, eq_comm]

theorem exists_yields_finish {position : Nat} (inside : position ≤ setting.size) :
    ∃ outcome, (Rule.finish : Rule N Grapheme Γ Unit).Yields setting position outcome := by
  simp only [yields_finish_iff inside]
  by_cases atEnd : position = setting.size
  · exact ⟨_, .inl ⟨atEnd, rfl⟩⟩
  · have within : position < setting.size := Nat.lt_of_le_of_ne inside atEnd
    exact ⟨_, .inr ⟨_, ⟨_, Array.getElem?_eq_getElem within, rfl⟩, rfl⟩⟩

section

variable (tokensInside : ∀ rule ∈ first :: others, rule.StaysInside setting)
  (ignoredInside : ∀ rule ∈ ignored, rule.StaysInside setting)

include tokensInside ignoredInside

/-- The attempts of the repetition look for the next token. -/
theorem attempt_accepted_iff {count position stop : Nat} {value : α}
    (inside : position ≤ setting.size) :
    Repetition.Attempt setting (tokenRepetition ignored) (tokenRule first others)
        count position (.accepted value stop) ↔
      NextToken setting (first :: others) ignored count position value stop := by
  unfold NextToken
  cases count with
  | zero =>
      rw [Repetition.attempt_zero_iff, yields_tokenRule_iff tokensInside inside]
      simp
  | succ count =>
      rw [Repetition.attempt_separatedBy_succ_iff]
      simp only [reduceCtorEq, Nat.succ_ne_zero, if_false, and_false, exists_false, or_false]
      have skipInside := staysInside_skipRule ignoredInside position inside
      refine ⟨fun holds => ?_, fun holds => ?_⟩
      · rcases holds with ⟨_, middle, skips, attempted⟩
        have middleInside := (skipInside.2 _ _ skips).2
        exact ⟨middle, yields_skipRule_iff.mp skips,
          (yields_tokenRule_iff tokensInside middleInside).mp attempted⟩
      · rcases holds with ⟨middle, skips, token⟩
        have yields := yields_skipRule_iff.mpr skips
        have middleInside := (skipInside.2 _ _ yields).2
        exact ⟨(), middle, yields,
          (yields_tokenRule_iff tokensInside middleInside).mpr token⟩

theorem exists_attempt (index : Nat) {position : Nat} (inside : position ≤ setting.size) :
    ∃ outcome, Repetition.Attempt setting (tokenRepetition ignored)
      (tokenRule first others) index position outcome := by
  cases index with
  | zero =>
      obtain ⟨outcome, yields⟩ := exists_yields_tokenRule tokensInside inside
      exact ⟨outcome, Repetition.attempt_zero_iff.mpr yields⟩
  | succ index =>
      simp only [Repetition.attempt_separatedBy_succ_iff]
      obtain ⟨⟨⟨value, middle⟩ | failures, skips⟩, bounded⟩ :=
        staysInside_skipRule ignoredInside position inside
      · obtain ⟨outcome, yields⟩ :=
          exists_yields_tokenRule tokensInside (bounded _ _ skips).2
        exact ⟨outcome, .inl ⟨value, middle, skips, yields⟩⟩
      · exact ⟨_, .inr ⟨failures, skips, rfl⟩⟩

/-- The next token moves on and stays inside. -/
theorem NextToken.forward {count position stop : Nat} {value : α}
    (inside : position ≤ setting.size)
    (next : NextToken setting (first :: others) ignored count position value stop) :
    position < stop ∧ stop ≤ setting.size := by
  obtain ⟨start, resumes, longest, forward⟩ := next
  have startInside : position ≤ start ∧ start ≤ setting.size := by
    split at resumes
    · omega
    · exact (staysInside_skipRule ignoredInside position inside).2 _ _
        (yields_skipRule_iff.mpr resumes)
  exact ⟨by omega, le_size_of_longest tokensInside startInside.2 longest⟩

theorem Lexes.le_size {start position : Nat} {values : List α}
    (inside : start ≤ setting.size)
    (lexes : Lexes setting (first :: others) ignored start values position) :
    position ≤ setting.size := by
  induction lexes with
  | none => exact inside
  | more _ next ih => exact (next.forward tokensInside ignoredInside ih).2

/-- The successes of the repetition are the tokens found. -/
theorem successes_iff_lexes {start position : Nat} {values : List α}
    (inside : start ≤ setting.size) :
    Repetition.Successes setting (tokenRepetition ignored) (tokenRule first others) start
        values position ↔
      Lexes setting (first :: others) ignored start values position := by
  refine ⟨fun successes => ?_, fun lexes => ?_⟩
  · induction successes with
    | none => exact .none
    | more _ succeeds ih =>
        have reached := ih.le_size tokensInside ignoredInside inside
        exact ih.more ((attempt_accepted_iff tokensInside ignoredInside reached).mp succeeds)
  · induction lexes with
    | none => exact .none
    | more lexes next ih =>
        have reached := lexes.le_size tokensInside ignoredInside inside
        exact ih.more ((attempt_accepted_iff tokensInside ignoredInside reached).mpr next)

/-- An attempt fails exactly where no token follows. -/
theorem attempt_rejected_iff {count position : Nat}
    (inside : position ≤ setting.size) :
    (∃ failures, Repetition.Attempt setting (tokenRepetition ignored)
        (tokenRule first others) count position (.rejected failures)) ↔
      NothingFollows setting (first :: others) ignored count position := by
  refine ⟨?_, fun none => ?_⟩
  · intro ⟨failures, fails⟩ value stop next
    cases fails.unique ((attempt_accepted_iff tokensInside ignoredInside inside).mpr next)
  · obtain ⟨⟨value, stop⟩ | failures, attempt⟩ :=
      exists_attempt tokensInside ignoredInside count inside
    · have next := (attempt_accepted_iff tokensInside ignoredInside inside).mp attempt
      exact absurd next (none value stop)
    · exact ⟨failures, attempt⟩

/-- The repetition takes tokens as long as one follows, and never rejects. -/
theorem yields_tokens_iff {start : Nat} {outcome : Outcome (Array α)}
    (inside : start ≤ setting.size) :
    ((tokenRule first others).collect (tokenRepetition ignored)).Yields setting start
        outcome ↔
      ∃ values stop, Lexes setting (first :: others) ignored start values stop ∧
        NothingFollows setting (first :: others) ignored values.length stop ∧
        outcome = .accepted values.toArray stop := by
  rw [Repetition.yields_collect_iff]
  refine ⟨fun holds => ?_, fun holds => ?_⟩
  · rcases holds with ⟨result, comes, rfl⟩
    cases comes with
    | full _ ceiling => cases ceiling
    | short _ _ _ below => exact absurd below (Nat.not_lt_zero _)
    | ended successes _ fails _ =>
        have lexes := (successes_iff_lexes tokensInside ignoredInside inside).mp successes
        have reached := lexes.le_size tokensInside ignoredInside inside
        exact ⟨_, _, lexes,
          (attempt_rejected_iff tokensInside ignoredInside reached).mp ⟨_, fails⟩, rfl⟩
  · rcases holds with ⟨values, stop, lexes, none, rfl⟩
    have reached := lexes.le_size tokensInside ignoredInside inside
    obtain ⟨failures, fails⟩ :=
      (attempt_rejected_iff tokensInside ignoredInside reached).mpr none
    have successes := (successes_iff_lexes tokensInside ignoredInside inside).mpr lexes
    refine ⟨.accepted values stop, .ended successes ?_ fails (Nat.zero_le _), rfl⟩
    intro limit ceiling
    cases ceiling

theorem exists_yields_tokens {start : Nat}
    (inside : start ≤ setting.size) :
    ∃ outcome, ((tokenRule first others).collect (tokenRepetition ignored)).Yields setting
      start outcome := by
  have total (index position : Nat) (within : position ≤ setting.size) :=
    exists_attempt tokensInside ignoredInside index within
  have progress (index position : Nat) (value : α) (stop : Nat)
      (within : position ≤ setting.size)
      (attempt : Repetition.Attempt setting (tokenRepetition ignored)
        (tokenRule first others) index position (.accepted value stop)) :
      position < stop ∧ stop ≤ setting.size :=
    ((attempt_accepted_iff tokensInside ignoredInside within).mp attempt).forward
      tokensInside ignoredInside within
  obtain ⟨values, stop, failures, successes, _, fails⟩ :=
    Repetition.Successes.exists_fails total progress .none inside
  refine ⟨_, Repetition.yields_collect_iff.mpr
    ⟨_, .ended successes ?_ fails (Nat.zero_le _), rfl⟩⟩
  intro limit ceiling
  cases ceiling

/-- Behind the end of the text there are no tokens. -/
theorem nothingFollows_size (count : Nat) :
    NothingFollows setting (first :: others) ignored count setting.size := by
  intro value stop next
  have forward := next.forward tokensInside ignoredInside (Nat.le_refl _)
  omega

/-- The tokenizer accepts if the last token ends where the text ends. -/
theorem yields_tokenizer_accepted_iff {values : Array α} {stop : Nat} :
    (tokenizer first others (skipRule ignored)).Yields setting 0 (.accepted values stop) ↔
      stop = setting.size ∧ ∃ start, Skips setting ignored 0 start ∧
        Lexes setting (first :: others) ignored start values.toList setting.size := by
  have skipInside := staysInside_skipRule ignoredInside 0 (Nat.zero_le _)
  refine Rule.yields_enclose_accepted_iff.trans ⟨?_, ?_⟩
  · intro holds
    rcases holds with ⟨_, start, reach, _, skips, found, finishes⟩
    have inside := (skipInside.2 _ _ skips).2
    obtain ⟨list, _, lexes, _, ⟨⟩⟩ :=
      (yields_tokens_iff tokensInside ignoredInside inside).mp found
    have reached := lexes.le_size tokensInside ignoredInside inside
    obtain ⟨atEnd, ⟨⟩⟩ | ⟨_, _, ⟨⟩⟩ := (yields_finish_iff reached).mp finishes
    rw [atEnd] at lexes
    exact ⟨atEnd, start, yields_skipRule_iff.mp skips, lexes⟩
  · intro holds
    rcases holds with ⟨rfl, start, skips, lexes⟩
    have skips := yields_skipRule_iff.mpr skips
    have inside := (skipInside.2 _ _ skips).2
    have nothing := nothingFollows_size tokensInside ignoredInside values.toList.length
    have found := (yields_tokens_iff tokensInside ignoredInside inside).mpr
      ⟨values.toList, setting.size, lexes, nothing, rfl⟩
    have finishes := (yields_finish_iff (Nat.le_refl setting.size)).mpr (.inl ⟨rfl, rfl⟩)
    exact ⟨(), start, setting.size, (), skips, found, finishes⟩

/-- The tokenizer rejects what is rejected in front of the first token, and
otherwise a text that goes on after the last one. -/
theorem yields_tokenizer_rejected_iff {failures : Failures} :
    (tokenizer first others (skipRule ignored)).Yields setting 0 (.rejected failures) ↔
      (∃ skipped ∈ ignored, skipped.Yields setting 0 (.rejected failures)) ∨
      ∃ start values stop, Skips setting ignored 0 start ∧
        Lexes setting (first :: others) ignored start values stop ∧
        NothingFollows setting (first :: others) ignored values.length stop ∧
        GoesOn setting stop failures := by
  have skipInside := staysInside_skipRule ignoredInside 0 (Nat.zero_le _)
  rw [← yields_skipRule_rejected_iff]
  refine Rule.yields_enclose_rejected_iff.trans (or_congr Iff.rfl ⟨?_, ?_⟩)
  · intro holds
    rcases holds with ⟨_, start, skips, rejects⟩
    have inside := (skipInside.2 _ _ skips).2
    have skipped := yields_skipRule_iff.mp skips
    obtain rejects | ⟨_, reach, found, finishes⟩ := rejects
    · obtain ⟨_, _, _, _, ⟨⟩⟩ :=
        (yields_tokens_iff tokensInside ignoredInside inside).mp rejects
    · obtain ⟨list, _, lexes, nothing, ⟨⟩⟩ :=
        (yields_tokens_iff tokensInside ignoredInside inside).mp found
      have reached := lexes.le_size tokensInside ignoredInside inside
      obtain ⟨_, ⟨⟩⟩ | ⟨_, goesOn, ⟨⟩⟩ := (yields_finish_iff reached).mp finishes
      exact ⟨start, list, reach, skipped, lexes, nothing, goesOn⟩
  · intro holds
    rcases holds with ⟨start, values, stop, skipped, lexes, nothing, goesOn⟩
    have skips := yields_skipRule_iff.mpr skipped
    have inside := (skipInside.2 _ _ skips).2
    have reached := lexes.le_size tokensInside ignoredInside inside
    have found := (yields_tokens_iff tokensInside ignoredInside inside).mpr
      ⟨values, stop, lexes, nothing, rfl⟩
    have finishes := (yields_finish_iff reached).mpr (.inr ⟨failures, goesOn, rfl⟩)
    exact ⟨(), start, skips, .inr ⟨values.toArray, stop, found, finishes⟩⟩

theorem exists_yields_tokenizer :
    ∃ outcome, (tokenizer first others (skipRule ignored)).Yields setting 0 outcome := by
  obtain ⟨⟨⟨_, start⟩ | failures, skips⟩, skipInside⟩ :=
    staysInside_skipRule ignoredInside 0 (Nat.zero_le _)
  · have inside := (skipInside _ _ skips).2
    obtain ⟨_, found⟩ := exists_yields_tokens tokensInside ignoredInside inside
    obtain ⟨values, stop, lexes, _, rfl⟩ :=
      (yields_tokens_iff tokensInside ignoredInside inside).mp found
    have reached := lexes.le_size tokensInside ignoredInside inside
    obtain ⟨⟨⟨⟩, last⟩ | failures, finishes⟩ := exists_yields_finish reached
    · exact ⟨_, Rule.yields_enclose_accepted_iff.mpr
        ⟨_, _, _, _, skips, found, finishes⟩⟩
    · exact ⟨_, Rule.yields_enclose_rejected_iff.mpr
        (.inr ⟨_, _, skips, .inr ⟨_, _, found, finishes⟩⟩)⟩
  · exact ⟨_, Rule.yields_enclose_rejected_iff.mpr (.inl skips)⟩

end

/-- A tokenizer whose rules terminate inside the text takes the longest match
over and over. It accepts exactly if that leads to the end of the text, and
otherwise it says where the text goes on, unless what is ignored was rejected at
the very beginning. -/
theorem tokenizer_takes_longest {tokens : List (Rule N Grapheme Γ α)}
    (inhabited : tokens ≠ [])
    (tokensInside : ∀ rule ∈ tokens, rule.StaysInside setting)
    (ignoredInside : ∀ rule ∈ ignored, rule.StaysInside setting) :
    ∃ rule, tokenizer? tokens ignored = .ok rule ∧
      (∃ outcome, rule.Yields setting 0 outcome) ∧
      (∀ values stop, rule.Yields setting 0 (.accepted values stop) ↔
        stop = setting.size ∧ ∃ start, Skips setting ignored 0 start ∧
          Lexes setting tokens ignored start values.toList setting.size) ∧
      ∀ failures, rule.Yields setting 0 (.rejected failures) ↔
        (∃ skipped ∈ ignored, skipped.Yields setting 0 (.rejected failures)) ∨
        ∃ start values stop, Skips setting ignored 0 start ∧
          Lexes setting tokens ignored start values stop ∧
          NothingFollows setting tokens ignored values.length stop ∧
          GoesOn setting stop failures := by
  obtain ⟨first, others, rfl⟩ := List.exists_cons_of_ne_nil inhabited
  refine ⟨tokenizer first others (skipRule ignored), rfl, ?_, fun values stop => ?_,
    fun failures => ?_⟩
  · exact exists_yields_tokenizer tokensInside ignoredInside
  · exact yields_tokenizer_accepted_iff tokensInside ignoredInside
  · exact yields_tokenizer_rejected_iff tokensInside ignoredInside

/-- A word of the letters in "fix". -/
def word : Rule .none Grapheme [] String :=
  slice (.skipMany (.atLeast 1) (.nextIf fun letter => ["f", "i", "x"].contains letter))

/-- The word "if", which is not a word like others. -/
def reserved : Rule .none Grapheme [] String :=
  .yielding "IF" (.thenWith (fun _ last => last) (.token "i") (.token "f"))

/-- White space of any length. -/
def blank : Rule .none Grapheme [] Unit :=
  .skipMany .any whitespace

/-- The text "if ifx". -/
def phrase : Setting .none Grapheme [] :=
  ⟨⟨#["i", "f", " ", "i", "f", "x"], .empty, .off⟩, .nil, ∅⟩

theorem word_staysInside : word.StaysInside phrase :=
  Rule.staysInside_of_isOk (Grammar.within_empty _) trivial ⟨trivial, trivial⟩ 5 (by decide)

theorem reserved_staysInside : reserved.StaysInside phrase :=
  Rule.staysInside_of_isOk (Grammar.within_empty _) trivial ⟨trivial, trivial⟩ 1 (by decide)

theorem blank_staysInside : blank.StaysInside phrase :=
  Rule.staysInside_of_isOk (Grammar.within_empty _) trivial ⟨trivial, trivial⟩ 5 (by decide)

/-- Both rules match the first word, and the earlier one decides. Of the second
word the earlier rule matches less than the later one. -/
theorem phrase_takes_longest :
    (∀ rule ∈ [reserved, word], rule.StaysInside phrase) ∧
      (∀ rule ∈ some blank, rule.StaysInside phrase) ∧
      ∃ start, Skips phrase (some blank) 0 start ∧
        Lexes phrase [reserved, word] (some blank) start ["IF", "ifx"] 6 := by
  have tokensInside : ∀ rule ∈ [reserved, word], rule.StaysInside phrase := by
    simp [reserved_staysInside, word_staysInside]
  have blankInside : ∀ rule ∈ some blank, rule.StaysInside phrase := by
    simp [blank_staysInside]
  obtain ⟨rule, built, _, accepts, _⟩ :=
    tokenizer_takes_longest (by simp) tokensInside blankInside
  cases built
  have applied : (tokenizer reserved [word] blank).Yields phrase 0
      (.accepted #["IF", "ifx"] 6) := Rule.yields_iff_apply.mpr ⟨5, _, rfl⟩
  exact ⟨tokensInside, blankInside, ((accepts _ _).mp applied).2⟩

end Lexer

end Rulebook
