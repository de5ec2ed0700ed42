/-
# Failures at a token point at its text

A grammar over tokens speaks of positions that count tokens. A report turns them into
ranges of bytes: the tokens know which clusters they consist of, and a map knows the bytes
of the clusters. Three units are counted here, and the report underlines the right bytes
because the tokenizer moves on with every token, in their order and up to the end of the
text. So no span is empty or reversed, and none lies behind the text.

That the rules terminate is not needed. Whatever a tokenizer accepts has been accepted by
its rules, one token behind the other.
-/

import Rulebook.Diagnostics.Printer
import Rulebook.Proofs.ByteOffsets
import Rulebook.Proofs.Tokenizer

namespace Rulebook

namespace Printer

variable {printer : Printer} {spans : Array (Nat × Nat)} {map : SourceMap}
  {position start stop : Nat}

/-- A token is underlined where its span says. -/
theorem byteRange_of_getElem? (spanned : printer.tokenSpans = some spans)
    (present : spans[position]? = some (start, stop)) :
    printer.byteRange map position = map.byteRange start stop := by
  simp only [byteRange, clusterRange, spanned, present]

/-- Behind the last token the place is underlined where it ends. -/
theorem byteRange_of_size_le (spanned : printer.tokenSpans = some spans)
    (behind : spans.size ≤ position) (last : spans.back? = some (start, stop)) :
    printer.byteRange map position = map.byteRange stop stop := by
  simp only [byteRange, clusterRange, spanned, Array.getElem?_eq_none behind, last,
    Option.map_some, Option.getD_some]

end Printer

namespace Lexer

variable {N : Nonterminals} {Γ : List Type} {α : Type} {setting : Setting N Grapheme Γ}
  {tokens : List (Rule N Grapheme Γ α)} {ignored : Option (Rule N Grapheme Γ Unit)}

/-- One of the rules reads the token where its span says. -/
structure Located (setting : Setting N Grapheme Γ) (tokens : List (Rule N Grapheme Γ α))
    (token : Spanned α) : Prop where
  moves : token.start < token.stop
  read : ∃ rule ∈ tokens, rule.Yields setting token.start (.accepted token.value token.stop)

/-- Tokens that one of the rules reads where their spans say, one behind the other and the
last of them up to a position. -/
structure LocatedUpTo (setting : Setting N Grapheme Γ) (tokens : List (Rule N Grapheme Γ α))
    (values : List (Spanned α)) (position : Nat) : Prop where
  located : ∀ token ∈ values, Located setting tokens token
  ordered : values.Pairwise fun token later => token.stop ≤ later.start
  before : ∀ token ∈ values, token.stop ≤ position
  last : ∀ token ∈ values.getLast?, token.stop = position

theorem locatedUpTo_nil (position : Nat) :
    LocatedUpTo setting tokens [] position := by
  constructor <;> simp

/-- A further token starts behind the ones so far. -/
theorem LocatedUpTo.concat {values : List (Spanned α)} {position : Nat} {token : Spanned α}
    (upTo : LocatedUpTo setting tokens values position) (further : position ≤ token.start)
    (located : Located setting tokens token) :
    LocatedUpTo setting tokens (values ++ [token]) token.stop where
  located := by
    simp only [List.mem_append, List.mem_singleton]
    rintro other (earlier | rfl)
    · exact upTo.located other earlier
    · exact located
  ordered := by
    refine List.pairwise_append.mpr ⟨upTo.ordered, List.pairwise_singleton _ _, ?_⟩
    intro other earlier last present
    obtain rfl := List.mem_singleton.mp present
    exact Nat.le_trans (upTo.before other earlier) further
  before := by
    simp only [List.mem_append, List.mem_singleton]
    rintro other (earlier | rfl)
    · have reached := upTo.before other earlier
      have moves := located.moves
      omega
    · exact Nat.le_refl _
  last := by simp

/-- The rule for one token reads a token where its span says. -/
theorem located_of_tokenRule {first : Rule N Grapheme Γ α}
    {others : List (Rule N Grapheme Γ α)} {position stop : Nat} {token : Spanned α}
    (accepts : (tokenRule first.spanned (others.map Rule.spanned)).Yields setting position
      (.accepted token stop)) :
    token.start = position ∧ token.stop = stop ∧ Located setting (first :: others) token := by
  obtain ⟨chosen, forward⟩ := Rule.yields_nonEmpty_accepted_iff.mp accepts
  obtain ⟨spanned, occurs, yields⟩ := Rule.exists_accepts_of_fork chosen
  obtain ⟨rule, among, rfl⟩ := List.mem_map.mp (List.map_cons ▸ occurs)
  obtain ⟨read, rfl, rfl⟩ := Rule.yields_spanned_accepted_iff.mp yields
  exact ⟨rfl, rfl, forward, rule, among, read⟩

section Within

variable {first : Rule N Grapheme Γ α} {others : List (Rule N Grapheme Γ α)}
  (grammarWithin : setting.input.grammar.Within .standard)
  (envWithin : setting.env.Within .standard)
  (tokensWithin : ∀ rule ∈ first :: others, rule.Within .standard)
  (ignoredWithin : ∀ rule ∈ ignored, rule.Within .standard)

include grammarWithin envWithin

theorem skipRule_stop_between (ignoredWithin : ∀ rule ∈ ignored, rule.Within .standard)
    {position middle : Nat} (inside : position ≤ setting.size)
    (skips : (skipRule ignored).Yields setting position (.accepted () middle)) :
    position ≤ middle ∧ middle ≤ setting.size := by
  cases ignored with
  | none =>
      obtain rfl : middle = position := yields_skipRule_iff.mp skips
      exact ⟨Nat.le_refl _, inside⟩
  | some rule => exact skips.stop_between grammarWithin envWithin (ignoredWithin rule rfl) inside

include tokensWithin ignoredWithin

/-- The next token is read behind what is ignored. -/
theorem located_of_attempt {count position stop : Nat} {token : Spanned α}
    (inside : position ≤ setting.size)
    (attempt : Repetition.Attempt setting (tokenRepetition ignored)
      (tokenRule first.spanned (others.map Rule.spanned)) count position
        (.accepted token stop)) :
    Located setting (first :: others) token ∧ position ≤ token.start ∧ token.stop = stop ∧
      stop ≤ setting.size := by
  have starts : ∃ start, position ≤ start ∧ start ≤ setting.size ∧
      (tokenRule first.spanned (others.map Rule.spanned)).Yields setting start
        (.accepted token stop) := by
    cases count with
    | zero => exact ⟨position, Nat.le_refl _, inside, Repetition.attempt_zero_iff.mp attempt⟩
    | succ count =>
        rcases Repetition.attempt_separatedBy_succ_iff.mp attempt with
          ⟨_, middle, skips, read⟩ | ⟨failures, _, rejected⟩
        · obtain ⟨above, below⟩ := skipRule_stop_between grammarWithin envWithin
            ignoredWithin inside skips
          exact ⟨middle, above, below, read⟩
        · cases rejected
  obtain ⟨start, above, below, read⟩ := starts
  obtain ⟨rfl, rfl, located⟩ := located_of_tokenRule read
  obtain ⟨rule, among, accepts⟩ := located.read
  exact ⟨located, above, rfl,
    (accepts.stop_between grammarWithin envWithin (tokensWithin rule among) below).2⟩

/-- All tokens are read one behind the other. -/
theorem locatedUpTo_of_successes {start position : Nat} {values : List (Spanned α)}
    (inside : start ≤ setting.size)
    (successes : Repetition.Successes setting (tokenRepetition ignored)
      (tokenRule first.spanned (others.map Rule.spanned)) start values position) :
    LocatedUpTo setting (first :: others) values position ∧ position ≤ setting.size := by
  induction successes with
  | none => exact ⟨locatedUpTo_nil start, inside⟩
  | more successes succeeds ih =>
      obtain ⟨upTo, reached⟩ := ih
      obtain ⟨located, further, rfl, below⟩ := located_of_attempt grammarWithin envWithin
        tokensWithin ignoredWithin reached succeeds
      exact ⟨upTo.concat further located, below⟩

/-- The tokens of a text that is accepted reach up to its end. -/
theorem locatedUpTo_size {values : Array (Spanned α)} {stop : Nat}
    (accepts : (tokenizer first.spanned (others.map Rule.spanned) (skipRule ignored)).Yields
      setting 0 (.accepted values stop)) :
    LocatedUpTo setting (first :: others) values.toList setting.size := by
  obtain ⟨_, start, reach, _, skips, found, finishes⟩ :=
    Rule.yields_enclose_accepted_iff.mp accepts
  obtain ⟨-, inside⟩ := skipRule_stop_between grammarWithin envWithin ignoredWithin
    (Nat.zero_le _) skips
  obtain ⟨successes, -⟩ := (Repetition.yields_collect_any_accepted_iff rfl).mp found
  obtain ⟨upTo, reached⟩ := locatedUpTo_of_successes grammarWithin envWithin tokensWithin
    ignoredWithin inside successes
  rcases (yields_finish_iff reached).mp finishes with ⟨atEnd, -⟩ | ⟨_, -, rejected⟩
  · exact atEnd ▸ upTo
  · cases rejected

end Within

/-- The ends of the spans of tokens. -/
def spansOf (values : Array (Spanned α)) : Array (Nat × Nat) :=
  values.map fun token => (token.start, token.stop)

section Reports

variable {values : Array (Spanned α)} {printer : Printer} {p q : Nat}
  (upTo : LocatedUpTo setting tokens values.toList setting.size)

include upTo

theorem LocatedUpTo.getElem (inside : p < values.size) :
    Located setting tokens values[p] ∧ values[p].stop ≤ setting.size := by
  have occurs : values[p] ∈ values.toList := Array.getElem_mem_toList inside
  exact ⟨upTo.located _ occurs, upTo.before _ occurs⟩

theorem LocatedUpTo.stop_le_start (earlier : p < q) (inside : q < values.size) :
    values[p].stop ≤ values[q].start :=
  List.pairwise_iff_getElem.mp upTo.ordered p q (Nat.lt_trans earlier inside) inside earlier

theorem LocatedUpTo.stop_of_back? {token : Spanned α} (last : token ∈ values.back?) :
    token.stop = setting.size := by
  rw [← Array.getLast?_toList] at last
  exact upTo.last token last

variable (spanned : printer.tokenSpans = some (spansOf values))

include spanned

/-- At a token the bytes of its clusters are underlined. -/
theorem LocatedUpTo.byteRange_getElem (inside : p < values.size) :
    printer.byteRange (.ofClusters setting.input.source) p =
      ⟨Text.bytesBefore setting.input.source values[p].start,
        Text.bytesBefore setting.input.source values[p].stop⟩ := by
  have present : (spansOf values)[p]? = some (values[p].start, values[p].stop) := by
    simp [spansOf, inside]
  rw [Printer.byteRange_of_getElem? spanned present,
    SourceMap.byteRange_of_lt (upTo.getElem inside).1.moves]

/-- Behind the last token the end of the text is underlined. -/
theorem LocatedUpTo.byteRange_behind (behind : values.size ≤ p) (inhabited : 1 ≤ values.size) :
    printer.byteRange (.ofClusters setting.input.source) p =
      ⟨(Text.concat setting.input.source).utf8ByteSize,
        (Text.concat setting.input.source).utf8ByteSize⟩ := by
  obtain ⟨last, present⟩ : ∃ last, values.back? = some last := by
    simp only [Array.back?_eq_getElem?]
    exact ⟨_, Array.getElem?_eq_getElem (Nat.sub_lt inhabited Nat.one_pos)⟩
  have back : (spansOf values).back? = some (last.start, last.stop) := by
    simp [spansOf, present]
  have none : (spansOf values).size ≤ p := by simpa [spansOf] using behind
  rw [Printer.byteRange_of_size_le spanned none back, upTo.stop_of_back? present]
  exact SourceMap.byteRange_of_size_le (Nat.le_refl _) (Nat.le_refl _)

end Reports

/-- If a tokenizer with spans accepts a text, then every token consists of clusters, the
tokens are in order, and the last one ends where the text ends. A failure at a token is
reported with the bytes of what the token consumed, which are some, and those of two tokens
are apart from each other in their order. A failure behind the last token is reported at
the end of the text. -/
theorem token_failures_point_at_text {text : String}
    (solid : ∀ cluster ∈ setting.input.source, cluster ≠ "")
    (whole : Text.concat setting.input.source = text)
    (grammarWithin : setting.input.grammar.Within .standard)
    (envWithin : setting.env.Within .standard)
    (tokensWithin : ∀ rule ∈ tokens, rule.Within .standard)
    (ignoredWithin : ∀ rule ∈ ignored, rule.Within .standard)
    {rule : Rule N Grapheme Γ (Array (Spanned α))}
    (built : tokenizer? (tokens.map Rule.spanned) ignored = .ok rule)
    {values : Array (Spanned α)} {stop : Nat}
    (accepts : rule.Yields setting 0 (.accepted values stop))
    {printer : Printer} (spanned : printer.tokenSpans = some (spansOf values)) :
    let map := SourceMap.ofClusters setting.input.source
    (∀ (i : Nat) (inside : i < values.size), values[i].start < values[i].stop ∧
      ∀ next : i + 1 < values.size, values[i].stop ≤ values[i + 1].start) ∧
    (∀ last ∈ values.back?, last.stop = setting.size) ∧
    (∀ (p : Nat) (inside : p < values.size),
      let token := values[p]
      let range := printer.byteRange map p
      (∃ rule ∈ tokens,
        rule.Yields setting token.start (.accepted token.value token.stop)) ∧
      range = ⟨Text.bytesBefore setting.input.source token.start,
        Text.bytesBefore setting.input.source token.stop⟩ ∧
      range.start < range.stop ∧
      Text.Covers text range
        (Text.concat (setting.input.source.extract token.start token.stop))) ∧
    (∀ p q, p < q → q < values.size →
      (printer.byteRange map p).stop ≤ (printer.byteRange map q).start) ∧
    ∀ p, values.size ≤ p → 1 ≤ values.size →
      printer.byteRange map p = ⟨text.utf8ByteSize, text.utf8ByteSize⟩ := by
  intro map
  obtain ⟨first, others, rfl⟩ : ∃ first others, tokens = first :: others := by
    cases tokens with
    | nil => cases built
    | cons first others => exact ⟨first, others, rfl⟩
  cases built
  have upTo := locatedUpTo_size grammarWithin envWithin tokensWithin ignoredWithin accepts
  refine ⟨?_, ?_, ?_, ?_, ?_⟩
  · intro i inside
    exact ⟨(upTo.getElem inside).1.moves, upTo.stop_le_start (Nat.lt_succ_self i)⟩
  · intro last present
    exact upTo.stop_of_back? present
  · intro p inside token range
    obtain ⟨⟨moves, read⟩, within⟩ := upTo.getElem inside
    have bytes : range = _ := upTo.byteRange_getElem spanned inside
    refine ⟨read, bytes, ?_, ?_⟩
    · rw [bytes]
      exact Text.bytesBefore_lt solid moves within
    · rw [bytes, ← whole]
      exact Text.covers_clusters (Nat.le_of_lt moves) within
  · intro p q earlier inside
    rw [upTo.byteRange_getElem spanned (Nat.lt_trans earlier inside),
      upTo.byteRange_getElem spanned inside]
    exact Text.bytesBefore_mono (upTo.stop_le_start earlier inside)
  · intro p behind inhabited
    rw [← whole]
    exact upTo.byteRange_behind spanned behind inhabited

/-- Everything up to the next blank. -/
def letters : Rule .none Grapheme [] String :=
  slice (.skipMany (.atLeast 1) (.nextIf fun letter => !spaces.contains letter))

/-- The text "né à", in which two clusters take two bytes each. -/
def twoWords : Setting .none Grapheme [] :=
  ⟨⟨#["n", "é", " ", "à"], .empty, .off⟩, .nil, ∅⟩

/-- The second word is underlined without the blank in front of it. -/
theorem twoWords_failures_point_at_text :
    let text := "né à"
    let values : Array (Spanned String) := #[⟨"né", 0, 2⟩, ⟨"à", 3, 4⟩]
    let printer : Printer := { source := some text, tokenSpans := some (spansOf values) }
    feed text = twoWords.input.source ∧ letters.Within .standard ∧ blank.Within .standard ∧
      (∃ rule, tokenizer? ([letters].map Rule.spanned) (some blank) = .ok rule ∧
        rule.Yields twoWords 0 (.accepted values 4)) ∧
      printer.byteRange (.ofText text) 1 = ⟨4, 6⟩ ∧
      Text.Covers text (printer.byteRange (.ofText text) 1) "à" ∧
      printer.byteRange (.ofText text) lastPosition = ⟨6, 6⟩ := by
  intro text values printer
  have fed : feed text = twoWords.input.source := by decide
  have map : SourceMap.ofText text = .ofClusters twoWords.input.source := by
    rw [SourceMap.ofText_eq_ofClusters, ← fed, feed]
  have lettersWithin : letters.Within .standard := ⟨trivial, trivial⟩
  have blankWithin : blank.Within .standard := ⟨trivial, trivial⟩
  have built : tokenizer? ([letters].map Rule.spanned) (some blank) =
      .ok (tokenizer letters.spanned [] blank) := rfl
  have accepts : (tokenizer letters.spanned [] blank).Yields twoWords 0
      (.accepted values 4) := Rule.yields_iff_apply.mpr ⟨5, _, rfl⟩
  have spanned : printer.tokenSpans = some (spansOf values) := rfl
  have solid : ∀ cluster ∈ twoWords.input.source, cluster ≠ "" := by decide
  have whole : Text.concat twoWords.input.source = text := by decide
  obtain ⟨-, -, points, -, behind⟩ := token_failures_point_at_text solid whole
    (Grammar.within_empty _) trivial (by simpa using lettersWithin)
    (by simpa using blankWithin) built accepts spanned
  obtain ⟨-, bytes, -, covers⟩ := points 1 (by decide)
  rw [map]
  refine ⟨fed, lettersWithin, blankWithin, ⟨_, built, accepts⟩, bytes.trans ?_, ?_, ?_⟩
  · decide
  · exact covers
  · exact behind lastPosition (by decide) (by decide)

end Lexer

end Rulebook
