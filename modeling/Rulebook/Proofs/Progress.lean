/-
# Where to check for progress

A token has to consume something. This can be checked of the longest match, or of any of the
alternatives before the longest is looked for, and it makes a difference: an alternative that
does not move wins a tie in one case and is rejected in the other, with failures of its own.

The tokenizer is the same all the same. A longest match that moves is longer than all that do
not, so it is found wherever the check is made. Which failures are reported if there is none
differs, but the repetition of tokens has no floor and drops them.
-/

import Rulebook.Proofs.Elements
import Rulebook.Proofs.Tokenizer

namespace Rulebook

variable {N : Nonterminals} {ε : Type} {Γ : List Type} {α β γ : Type}

namespace Rule

variable {setting : Setting N ε Γ} {position : Nat} {rule other third : Rule N ε Γ α}

/-- The rules accept the same at every position of every source, and reject at the same
positions, with whatever failures. -/
def AcceptAlike (rule other : Rule N ε Γ α) : Prop :=
  ∀ (setting : Setting N ε Γ) (position : Nat),
    (∀ value stop, rule.Yields setting position (.accepted value stop) ↔
      other.Yields setting position (.accepted value stop)) ∧
    (rule.Rejects setting position ↔ other.Rejects setting position)

theorem AcceptAlike.symm (alike : rule.AcceptAlike other) : other.AcceptAlike rule :=
  fun setting position =>
    ⟨fun value stop => ((alike setting position).1 value stop).symm,
      (alike setting position).2.symm⟩

theorem AcceptAlike.trans (alike : rule.AcceptAlike other) (alike' : other.AcceptAlike third) :
    rule.AcceptAlike third :=
  fun setting position =>
    ⟨fun value stop => ((alike setting position).1 value stop).trans
        ((alike' setting position).1 value stop),
      (alike setting position).2.trans (alike' setting position).2⟩

theorem Equivalent.acceptAlike (same : rule.Equivalent other) : rule.AcceptAlike other :=
  fun setting position => ⟨fun _ _ => same setting position _,
    exists_congr fun _ => same setting position _⟩

/-- Rules that terminate and accept alike reject alike. -/
theorem acceptAlike_of_terminates
    (accepts : ∀ (setting : Setting N ε Γ) position value stop,
      rule.Yields setting position (.accepted value stop) ↔
        other.Yields setting position (.accepted value stop))
    (terminates : ∀ (setting : Setting N ε Γ) position,
      rule.Terminates setting position ↔ other.Terminates setting position) :
    rule.AcceptAlike other := fun setting position =>
  ⟨accepts setting position, by
    simp only [rejects_iff_terminates, terminates setting position, accepts setting position]⟩

/-- What stands in front of a rule does not tell it from one that accepts alike. -/
theorem AcceptAlike.thenWith {next next' : Rule N ε Γ β} (alike : next.AcceptAlike next')
    (rule : Rule N ε Γ α) (combine : α → β → γ) :
    (rule.thenWith combine next).AcceptAlike (rule.thenWith combine next') := by
  intro setting position
  refine ⟨fun value stop => ?_, ?_⟩
  · simp only [yields_thenWith_accepted_iff, (alike setting _).1]
  · have rejected {next : Rule N ε Γ β} :
        (rule.thenWith combine next).Rejects setting position ↔
          rule.Rejects setting position ∨
          ∃ value middle, rule.Yields setting position (.accepted value middle) ∧
            next.Rejects setting middle := by
      simp only [Rejects, yields_thenWith_rejected_iff, exists_or]
      refine or_congr_right ⟨?_, ?_⟩
      · rintro ⟨failures, value, middle, accepts, rejects⟩
        exact ⟨value, middle, accepts, failures, rejects⟩
      · rintro ⟨value, middle, accepts, failures, rejects⟩
        exact ⟨failures, value, middle, accepts, rejects⟩
    rw [rejected, rejected]
    simp only [(alike setting _).2]

end Rule

namespace Repetition

variable {setting : Setting N ε Γ} {repetition : Repetition N ε Γ}
  {item item' : Rule N ε Γ α} {start : Nat} (alike : item.AcceptAlike item')

include alike

/-- The attempts of items that accept alike succeed alike and fail alike. -/
theorem attempt_of_acceptAlike (index position : Nat) :
    (∀ value stop, Attempt setting repetition item index position (.accepted value stop) ↔
      Attempt setting repetition item' index position (.accepted value stop)) ∧
    ((∃ failures, Attempt setting repetition item index position (.rejected failures)) ↔
      ∃ failures, Attempt setting repetition item' index position (.rejected failures)) := by
  cases index with
  | zero =>
      simp only [attempt_zero_iff]
      exact alike setting position
  | succ index =>
      simp only [attempt_succ_iff]
      exact alike.thenWith _ _ setting position

theorem Successes.of_acceptAlike {values : List α} {stop : Nat}
    (successes : Successes setting repetition item start values stop) :
    Successes setting repetition item' start values stop := by
  induction successes with
  | none => exact .none
  | @more values position stop value _ succeeds ih =>
      exact ih.more (((attempt_of_acceptAlike alike _ position).1 _ _).mp succeeds)

/-- Without a floor the failures of an attempt are dropped. -/
theorem Result.of_acceptAlike (noFloor : repetition.bounds.floor = 0)
    {result : Outcome (List α)} (comes : Result setting repetition item start result) :
    Result setting repetition item' start result := by
  cases comes with
  | full successes ceiling => exact .full (successes.of_acceptAlike alike) ceiling
  | short _ _ _ below =>
      rw [noFloor] at below
      exact absurd below (Nat.not_lt_zero _)
  | ended successes room fails enough =>
      obtain ⟨failures, fails'⟩ := (attempt_of_acceptAlike alike _ _).2.mp ⟨_, fails⟩
      exact .ended (successes.of_acceptAlike alike) room fails' enough

theorem equivalent_foldMany (noFloor : repetition.bounds.floor = 0) (init : β)
    (fold : β → α → β) :
    (item.foldMany repetition init fold).Equivalent (item'.foldMany repetition init fold) := by
  intro setting start outcome
  simp only [yields_foldMany_iff]
  refine ⟨?_, ?_⟩
  · rintro ⟨result, comes, same⟩
    exact ⟨result, comes.of_acceptAlike alike noFloor, same⟩
  · rintro ⟨result, comes, same⟩
    exact ⟨result, comes.of_acceptAlike alike.symm noFloor, same⟩

end Repetition

namespace Rule

variable {setting : Setting N ε Γ} {position : Nat} {rule rule' : Rule N ε Γ α}
  {rules checked : List (Rule N ε Γ α)} {first first' : Rule N ε Γ α}
  {others others' : List (Rule N ε Γ α)}

/-- The rules are the same, but the second one may be checked for progress. -/
def MayCheck (rule rule' : Rule N ε Γ α) : Prop :=
  rule' = rule ∨ rule' = rule.nonEmpty

theorem terminates_nonEmpty_iff :
    rule.nonEmpty.Terminates setting position ↔ rule.Terminates setting position := by
  simp only [Terminates, yields_nonEmpty_iff]
  refine ⟨?_, ?_⟩
  · rintro ⟨_, found, yields, _⟩
    exact ⟨found, yields⟩
  · rintro ⟨found, yields⟩
    exact ⟨_, found, yields, rfl⟩

theorem MayCheck.terminates_iff (may : MayCheck rule rule') :
    rule.Terminates setting position ↔ rule'.Terminates setting position := by
  obtain rfl | rfl := may
  · rfl
  · exact terminates_nonEmpty_iff.symm

/-- Checked or not, a rule accepts the same where it moves forward. -/
theorem MayCheck.accepted_iff (may : MayCheck rule rule') {value : α} {stop : Nat}
    (forward : position < stop) :
    rule.Yields setting position (.accepted value stop) ↔
      rule'.Yields setting position (.accepted value stop) := by
  obtain rfl | rfl := may
  · rfl
  · simp [yields_nonEmpty_accepted_iff, forward]

/-- An alternation terminates exactly if all alternatives do. -/
theorem terminates_fork_iff :
    (fork first others).Terminates setting position ↔
      ∀ rule ∈ first :: others, rule.Terminates setting position := by
  refine ⟨fun terminates => ?_, exists_yields_fork⟩
  obtain ⟨outcome, yields⟩ := terminates
  obtain ⟨_, _, all, _⟩ := yields_fork_iff.mp yields
  intro rule occurs
  obtain ⟨index, inside, rfl⟩ := List.getElem_of_mem occurs
  have inside' := all.length_eq ▸ inside
  exact ⟨_, all.get inside inside'⟩

theorem terminates_of_mayCheck (may : List.Forall₂ MayCheck rules checked) :
    (∀ rule ∈ rules, rule.Terminates setting position) ↔
      ∀ rule ∈ checked, rule.Terminates setting position := by
  induction may with
  | nil => simp
  | cons may _ ih => simp only [List.forall_mem_cons, may.terminates_iff, ih]

/-- If the longest match is checked for progress, it does not matter which alternatives are
checked before. -/
theorem nonEmpty_fork_acceptAlike
    (may : List.Forall₂ MayCheck (first :: others) (first' :: others')) :
    (fork first others).nonEmpty.AcceptAlike (fork first' others').nonEmpty := by
  have terminates (setting : Setting N ε Γ) (position : Nat) :
      (fork first others).Terminates setting position ↔
        (fork first' others').Terminates setting position := by
    rw [terminates_fork_iff, terminates_fork_iff, terminates_of_mayCheck may]
  refine acceptAlike_of_terminates (fun setting position value stop => ?_)
    fun setting position => by simp only [terminates_nonEmpty_iff, terminates setting position]
  rw [yields_nonEmpty_accepted_iff, yields_nonEmpty_accepted_iff]
  refine and_congr_left fun forward => ?_
  by_cases ends : (fork first others).Terminates setting position
  · rw [yields_fork_accepted_iff (terminates_fork_iff.mp ends),
      yields_fork_accepted_iff (terminates_fork_iff.mp ((terminates setting position).mp ends))]
    refine (reachesFurthest_congr_from (may.imp ?_)).2 _ _ (Nat.succ_le_of_lt forward)
    intro rule rule' may found reach above
    exact may.accepted_iff above
  · refine ⟨fun accepts => absurd ⟨_, accepts⟩ ends, fun accepts => absurd ?_ ends⟩
    exact (terminates setting position).mpr ⟨_, accepts⟩

/-- A rule that always moves forward may be checked for progress once more. -/
theorem nonEmpty_equivalent
    (forward : ∀ (setting : Setting N ε Γ) position value stop,
      rule.Yields setting position (.accepted value stop) → position < stop) :
    rule.nonEmpty.Equivalent rule := by
  intro setting position outcome
  have kept {found : Outcome α} (yields : rule.Yields setting position found) :
      found.revise (Matcher.judgeNonEmpty position) = found := by
    cases found with
    | rejected failures => rfl
    | accepted value stop => exact if_neg (Nat.not_le.mpr (forward _ _ _ _ yields))
  rw [yields_nonEmpty_iff]
  refine ⟨?_, fun yields => ⟨outcome, yields, (kept yields).symm⟩⟩
  rintro ⟨found, yields, rfl⟩
  rwa [kept yields]

/-- The longest match among alternatives that are all checked moves forward. -/
theorem lt_stop_of_fork_nonEmpty {value : α} {stop : Nat}
    (accepts : (fork first.nonEmpty (others.map nonEmpty)).Yields setting position
      (.accepted value stop)) :
    position < stop := by
  obtain ⟨rule, occurs, yields⟩ := exists_accepts_of_fork accepts
  rw [← List.map_cons, List.mem_map] at occurs
  obtain ⟨alternative, _, rfl⟩ := occurs
  exact (yields_nonEmpty_accepted_iff.mp yields).2

/-- To check the longest match is to check all alternatives. -/
theorem nonEmpty_fork_acceptAlike_fork_nonEmpty :
    (fork first others).nonEmpty.AcceptAlike (fork first.nonEmpty (others.map nonEmpty)) := by
  have may : List.Forall₂ MayCheck (first :: others)
      (first.nonEmpty :: others.map nonEmpty) := by
    rw [← List.map_cons, List.forall₂_map_right_iff, List.forall₂_same]
    exact fun _ _ => .inr rfl
  refine (nonEmpty_fork_acceptAlike may).trans (Equivalent.acceptAlike ?_)
  exact nonEmpty_equivalent fun _ _ _ _ => lt_stop_of_fork_nonEmpty

end Rule

namespace Lexer

/-- A tokenizer comes to the same outcomes at every position of every text, failures
included, whichever of its token rules are checked for progress, and whatever the rules are:
they may accept without consuming anything, or go back. An alternation that is checked
accepts as the alternation of the checked rules does, and rejects at the same positions. -/
theorem progress_checked_anywhere {tokens checked : List (Rule N Grapheme Γ α)}
    (inhabited : tokens ≠ []) (may : List.Forall₂ Rule.MayCheck tokens checked)
    (ignored : Option (Rule N Grapheme Γ Unit)) :
    (∃ rule rule', tokenizer? tokens ignored = .ok rule ∧
      tokenizer? checked ignored = .ok rule' ∧
      ∀ (setting : Setting N Grapheme Γ) (position : Nat) (outcome : Outcome (Array α)),
        rule.Yields setting position outcome ↔ rule'.Yields setting position outcome) ∧
    ∀ {ε : Type} {N : Nonterminals} {Γ : List Type} {α : Type} (rules : List (Rule N ε Γ α)),
      rules ≠ [] → ∃ chosen chosen', Rule.fork? rules = .ok chosen ∧
        Rule.fork? (rules.map .nonEmpty) = .ok chosen' ∧
        ∀ (setting : Setting N ε Γ) (position : Nat),
          (∀ value stop, chosen.nonEmpty.Yields setting position (.accepted value stop) ↔
            chosen'.Yields setting position (.accepted value stop)) ∧
          (chosen.nonEmpty.Rejects setting position ↔ chosen'.Rejects setting position) := by
  refine ⟨?_, fun rules inhabited => ?_⟩
  · obtain ⟨first, others, rfl⟩ := List.exists_cons_of_ne_nil inhabited
    obtain ⟨first', others', _, _, rfl⟩ := List.forall₂_cons_left_iff.mp may
    let repetition : Repetition N Grapheme Γ :=
      Repetition.any.separatedBy (ignored.getD (.accept ()))
    have noFloor : repetition.bounds.floor = 0 := rfl
    have same := Repetition.equivalent_foldMany (Rule.nonEmpty_fork_acceptAlike may) noFloor
      #[] Array.push
    exact ⟨_, _, rfl, rfl, same.enclose _ _⟩
  · obtain ⟨first, others, rfl⟩ := List.exists_cons_of_ne_nil inhabited
    exact ⟨_, _, rfl, rfl, Rule.nonEmpty_fork_acceptAlike_fork_nonEmpty⟩

/-- The empty token. -/
def nothing : Rule .none Grapheme [] String :=
  .accept ""

/-- A token that goes back to the start of the text. -/
def rewinding : Rule .none Grapheme [] String :=
  .custom fun _ _ _ => .accepted "rewound" 0

/-- The empty token ties with the one that goes back at the start of the text, and neither
is found, checked or not. -/
theorem phrase_checked_anywhere :
    let tokens := [nothing, rewinding, word]
    let checked := [nothing.nonEmpty, rewinding, word.nonEmpty]
    tokens ≠ [] ∧ List.Forall₂ Rule.MayCheck tokens checked ∧
      (∃ rule', tokenizer? checked (some blank) = .ok rule' ∧
        rule'.Yields phrase 0 (.accepted #["if", "ifx"] 6)) ∧
      ∃ chosen', Rule.fork? (tokens.map .nonEmpty) = .ok chosen' ∧
        chosen'.Rejects phrase 2 := by
  intro tokens checked
  have inhabited : tokens ≠ [] := by simp [tokens]
  have may : List.Forall₂ Rule.MayCheck tokens checked :=
    .cons (.inr rfl) (.cons (.inl rfl) (.cons (.inr rfl) .nil))
  obtain ⟨⟨rule, rule', built, built', same⟩, anywhere⟩ :=
    progress_checked_anywhere inhabited may (some blank)
  cases built
  obtain ⟨chosen, chosen', forked, forked', alike⟩ := anywhere tokens inhabited
  cases forked
  refine ⟨inhabited, may, ⟨rule', built', (same phrase 0 _).mp ?_⟩, chosen', forked',
    (alike phrase 2).2.mp ⟨?_, ?_⟩⟩
  · exact Rule.yields_iff_apply.mpr ⟨5, _, rfl⟩
  · exact .single (.bare "rule succeeded but consumed no input" 2)
  · exact Rule.yields_iff_apply.mpr ⟨5, _, rfl⟩

end Lexer

end Rulebook
