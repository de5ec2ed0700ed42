/-
# Cursors beyond the source

A rule may be applied at any position, also where the source has long ended. A rule that has
to consume then rejects with a single failure at the cursor, and so does every chain that
starts with it. No position is computed on the way that might not exist.

What the failure says depends on the rule. Rules that read one element report that the cursor
is out of range. A literal reports this only if there is no position where the literal would
end. Otherwise it compares its text with what is left of the source, and as nothing is left,
it complains of an empty text.
-/

import Rulebook.Lexer.Tokenizer
import Rulebook.Proofs.Steps
import Rulebook.Rule.Token

namespace Rulebook

open Lexer

namespace Leaf

variable {ε α : Type} {source : Array ε} {position : Nat}

/-- Where no element is left, none is read. -/
theorem apply_next_of_size_le (ended : source.size ≤ position) (read : ε → Except String α)
    (context : Context) :
    (next read).apply source context position =
      .ok (.reject (outOfRange source.size position) position) := by
  rw [apply, Array.getElem?_eq_none ended]

/-- Beyond the source a comparison that could end at some position finds nothing, and any other
one is out of range. -/
theorem compare_of_size_lt (beyond : source.size < position) (size : Nat)
    (agrees : Array ε → Bool) (mismatch : Array ε → String) (value : α) :
    compare source size agrees mismatch value position =
      .reject (if position + size ≤ lastPosition then mismatch #[]
        else outOfRange source.size position) position := by
  have outside : ¬(position ≤ position + size ∧ position + size ≤ source.size) := by omega
  have nothing : source.extract position source.size = #[] := by
    rw [Array.extract_eq_empty_iff]
    omega
  rw [compare, span?_eq_none outside]
  split
  · simp only [nothing]
  · rfl

end Leaf

namespace Rule

variable {N : Nonterminals} {ε : Type} {Γ types : List Type} {α : Type}
  {rule : Rule N ε Γ α} {text? : Option String}

/-- The rules that have to consume: those that read one element, and those that stand for a
text, each with that text. -/
inductive MustConsume : {ε α : Type} → Rule N ε Γ α → Option String → Prop
  | nextIf {ε : Type} (holds : ε → Bool) : MustConsume (nextIf holds) none
  | nextAs {ε α : Type} (read : ε → Except String α) : MustConsume (nextAs read) none
  | token {ε : Type} [Describe ε] [DecidableEq ε] (expected : ε) :
      MustConsume (token expected) none
  | tokenWhere {ε : Type} [Describe ε] (description : String) (holds : ε → Bool) :
      MustConsume (tokenWhere description holds) none
  | anyOf (set : String) : MustConsume (anyOf set) none
  | noneOf (set : String) : MustConsume (noneOf set) none
  | whitespace : MustConsume whitespace none
  | literal (text : String) : MustConsume (literal text) (some text)
  | literals (parts : List String) : MustConsume (literals parts) (some (String.join parts))
  | keyword {α : Type} (tag : α) (display : String) :
      MustConsume (keyword tag display) (some display)
  | opening {α : Type} (kind : α) (opening closing : String) :
      MustConsume (delimiters kind opening closing).1 (some opening)
  | closing {α : Type} (kind : α) (opening closing : String) :
      MustConsume (delimiters kind opening closing).2 (some closing)

/-- What such a rule says at a position beyond a source of the given size. -/
def complaint (size position : Nat) : Option String → String
  | none => outOfRange size position
  | some text =>
    if position + (feed text).size ≤ lastPosition then mismatch text #[]
    else outOfRange size position

variable {β γ : Type} {input : Input N ε} {steps frame position : Nat} {env : Env N ε Γ}
  {session after : Session} {failures : Failures}

/-- A rejection has no value to be changed. -/
theorem apply_map_of_rejected (f : α → β)
    (rejected : apply input steps rule env frame session position =
      .ok (.rejected failures, after)) :
    apply input steps (rule.map f) env frame session position =
      .ok (.rejected failures, after) := by
  cases steps with
  | zero => cases rejected
  | succ steps => rw [apply_map, Matcher.map, rejected]; rfl

/-- Where nothing was consumed yet, the next rule is applied at the same place. -/
theorem apply_accept_thenWith_of_rejected {value : β} {combine : β → α → γ}
    (rejected : apply input (steps + 1) rule env frame session position =
      .ok (.rejected failures, after)) :
    apply input (steps + 1) ((accept value).thenWith combine rule) env frame session position =
      .ok (.rejected failures, after) := by
  rw [apply_thenWith_eq_flatMap, apply_flatMap]
  exact Matcher.flatMap_eq_ok_iff.mpr
    (.inl ⟨value, position, session, rfl, apply_map_of_rejected _ rejected⟩)

theorem apply_nextAs_of_size_lt (beyond : input.source.size < position)
    (read : ε → Except String α) :
    apply input (steps + 1) (nextAs read) env frame session position =
      .ok (.reject (outOfRange input.source.size position) position, session) :=
  Matcher.leaf_eq_ok_iff.mpr
    ⟨Leaf.apply_next_of_size_le (Nat.le_of_lt beyond) read session.context, rfl⟩

section Text

variable {input : Input N Grapheme} {env : Env N Grapheme Γ}

theorem apply_literals_of_size_lt (beyond : input.source.size < position)
    (parts : List String) :
    apply input (steps + 1) (literals parts) env frame session position =
      .ok (.reject (complaint input.source.size position (some (String.join parts))) position,
        session) :=
  Matcher.leaf_eq_ok_iff.mpr ⟨congrArg Except.ok (Leaf.compare_of_size_lt beyond ..), rfl⟩

theorem apply_literal_of_size_lt (beyond : input.source.size < position) (text : String) :
    apply input (steps + 1) (literal text) env frame session position =
      .ok (.reject (complaint input.source.size position (some text)) position, session) := by
  rw [literal, apply_literals_of_size_lt beyond, String.join_cons, String.join_nil,
    String.append_empty]

theorem apply_keyword_of_size_lt (beyond : input.source.size < position) (tag : α)
    (display : String) :
    apply input (steps + 1) (keyword tag display) env frame session position =
      .ok (.reject (complaint input.source.size position (some display)) position, session) :=
  apply_map_of_rejected _ (apply_literal_of_size_lt beyond display)

end Text

/-- Beyond the source all these rules reject with what they have to say, at the cursor. -/
theorem MustConsume.apply_of_size_lt (consumes : rule.MustConsume text?)
    (beyond : input.source.size < position) :
    apply input (steps + 1) rule env frame session position =
      .ok (.reject (complaint input.source.size position text?) position, session) := by
  cases consumes with
  | nextAs | nextIf | token | tokenWhere | anyOf | noneOf | whitespace =>
      exact apply_nextAs_of_size_lt beyond _
  | literal text => exact apply_literal_of_size_lt beyond text
  | literals parts => exact apply_literals_of_size_lt beyond parts
  | keyword tag display => exact apply_keyword_of_size_lt beyond tag display
  | opening kind opening closing => exact apply_keyword_of_size_lt beyond _ opening
  | closing kind opening closing => exact apply_keyword_of_size_lt beyond _ closing

end Rule

namespace Chain

variable {N : Nonterminals} {ε : Type} {Γ types : List Type} {α : Type} {input : Input N ε}
  {steps frame position : Nat} {env : Env N ε Γ} {session after : Session} {failures : Failures}

/-- A chain that starts with a rejection comes to it. -/
theorem apply_of_first_rejected (assembly : Assembly N ε Γ types) {first : Step N ε Γ}
    {later : List (Step N ε Γ)} (starts : assembly.steps = first :: later)
    (rejected : Rule.apply input (steps + 1) first.rule env frame session position =
      .ok (.rejected failures, after)) :
    Rule.apply input (steps + 1) assembly.chain.done env frame session position =
      .ok (.rejected failures, after) := by
  have alone : Rule.apply input (steps + 1) (extend ⟨[], .empty⟩ first).2.done env frame session
      position = .ok (.rejected failures, after) := by
    obtain ⟨rule, _ | _⟩ := first
    · exact Rule.apply_accept_thenWith_of_rejected rejected
    · exact Rule.apply_accept_thenWith_of_rejected rejected
  have goesOn := apply_foldl_extend _ alone later
  rwa [← List.foldl_cons, ← starts, ← assembly_eq_foldl assembly] at goesOn

end Chain

/-! ## Which of the two is said -/

namespace Rule

variable {N : Nonterminals} {ε α : Type} {size position : Nat}

theorem head?_append {first : String} {letter : Char}
    (begins : first.toList.head? = some letter) (rest : String) :
    (first ++ rest).toList.head? = some letter := by
  rw [String.toList_append, List.head?_append, begins]
  rfl

/-- The two messages differ in their first letters. -/
theorem mismatch_ne_outOfRange (text : String) (found : Array Grapheme) :
    mismatch text found ≠ outOfRange size position := by
  intro same
  have expected : (mismatch text found).toList.head? = some 'e' :=
    head?_append (head?_append (head?_append rfl _) _) _
  have cursor : (outOfRange size position).toList.head? = some 'c' :=
    head?_append (head?_append (head?_append (head?_append rfl _) _) _) _
  rw [same, cursor] at expected
  exact absurd expected (by decide)

/-- Only a text for whose end there is no position is out of range. -/
theorem complaint_eq_outOfRange_iff {text? : Option String} :
    complaint size position text? = outOfRange size position ↔
      ∀ text ∈ text?, lastPosition < position + (feed text).size := by
  cases text? with
  | none => simp [complaint]
  | some text =>
      rw [complaint]
      split
      · next ends => simp [mismatch_ne_outOfRange, ends]
      · next overflows => simpa using overflows

/-- Only the empty text has no clusters. -/
theorem size_feed_pos {text : String} (present : text ≠ "") : 0 < (feed text).size := by
  by_contra none
  have empty : feed text = #[] := Array.eq_empty_of_size_eq_zero (by omega)
  have joined := Text.concat_graphemes text
  rw [← feed, empty] at joined
  exact present joined.symm

/-- Beyond the source a rule that has to consume rejects with a single failure at the cursor,
and so does every chain that starts with it, whatever follows. The failure says that the cursor
is out of range just if no text of the rule could end at a position behind it: for the rules
that read one element always, and for a literal if its clusters reach past the last position.
Any other literal complains of the text that it expects. At the last position itself, nothing
but the empty literal does so. -/
theorem rejects_beyond_source {rule : Rule N ε [] α} {text? : Option String}
    (consumes : rule.MustConsume text?) (input : Input N ε) {position : Nat}
    (beyond : input.source.size < position) :
    ∃ message,
      (∀ steps session, rule.runAt input (steps + 1) session position =
        .ok (.reject message position, session.withFreshContext)) ∧
      (∀ {types : List Type} (assembly : Assembly N ε [] types) (pushed : Bool)
        (later : List (Step N ε [])), assembly.steps = ⟨rule, pushed⟩ :: later →
        ∀ steps session, assembly.chain.done.runAt input (steps + 1) session position =
          .ok (.reject message position, session.withFreshContext)) ∧
      (message = outOfRange input.source.size position ↔
        ∀ text ∈ text?, lastPosition < position + (feed text).size) ∧
      (∀ text ∈ text?, position + (feed text).size ≤ lastPosition →
        message = mismatch text #[]) ∧
      (position = lastPosition → (∀ text ∈ text?, text ≠ "") →
        message = outOfRange input.source.size position) := by
  refine ⟨complaint input.source.size position text?,
    fun steps session => consumes.apply_of_size_lt beyond,
    fun assembly pushed later starts steps session =>
      Chain.apply_of_first_rejected assembly starts (consumes.apply_of_size_lt beyond),
    complaint_eq_outOfRange_iff, ?_, ?_⟩
  · rintro text ⟨⟩ ends
    exact if_pos ends
  · rintro rfl present
    refine complaint_eq_outOfRange_iff.mpr fun text stands => ?_
    exact Nat.lt_add_of_pos_right (size_feed_pos (present text stands))

/-- Two letters are out of range at the position before the last one, for there is only one
position left behind it. -/
theorem twoLetters_reject_beyond_source :
    let input : Input .none Grapheme := ⟨feed "a", .empty, .off⟩
    let position := lastPosition - 1
    input.source.size < position ∧
    ∃ message,
      (∀ steps session, (literal "ab").runAt input (steps + 1) session position =
        .ok (.reject message position, session.withFreshContext)) ∧
      message = outOfRange 1 position := by
  intro input position
  have beyond : input.source.size < position := by decide
  obtain ⟨message, rejects, -, reported, -⟩ :=
    rejects_beyond_source (.literal "ab") input beyond
  exact ⟨beyond, message, rejects, reported.mpr (by rintro _ ⟨⟩; decide)⟩

/-- One letter is not out of range there: it would end at the last position, and it complains
that nothing is left to compare it with. -/
theorem oneLetter_complains_beyond_source :
    let input : Input .none Grapheme := ⟨feed "a", .empty, .off⟩
    let position := lastPosition - 1
    input.source.size < position ∧ position ≤ lastPosition ∧
    (literal "a").runAt input 1 .initial position =
      .ok (.reject "expected \"a\" got \"\"" position, Session.initial.withFreshContext) ∧
    "expected \"a\" got \"\"" ≠ outOfRange input.source.size position := by
  intro input position
  have beyond : input.source.size < position := by decide
  have complains : complaint input.source.size position (some "a") =
      "expected \"a\" got \"\"" := by decide
  refine ⟨beyond, by decide, ?_, ?_⟩
  · rw [← complains]
    exact apply_literal_of_size_lt beyond "a"
  · exact mismatch_ne_outOfRange "a" #[]

end Rule

end Rulebook
