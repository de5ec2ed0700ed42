/-
# Nested lists are read as they are written

A tree is a number or a list of trees. It is written as a sequence of tokens, a list with
its members between an opening and a closing token and with commas between them. The
grammar for this is short, and it is recursive in a repetition whose last attempt is given
back: after a member the grammar looks for a comma, and does without if no member follows.

The grammar accepts exactly what is written for a tree, and its value is that tree. A list
starts with a token of its own, so what the grammar does at a position is known from what
it does further on. This is why the main statement is shown for both directions at once, by
induction on what is left of the source and not on the tree.
-/

import Mathlib.Data.List.Chain
import Mathlib.Data.List.Induction
import Mathlib.Data.List.Infix
import Rulebook.Proofs.Alternation
import Rulebook.Proofs.Elements
import Rulebook.Proofs.Stands

namespace Rulebook

namespace NestedList

variable {N : Nonterminals} {Γ : List Type}

/-- The tokens that nested lists of numbers are written with. -/
inductive Token
  | opening
  | closing
  | comma
  | number (n : Int)
  deriving DecidableEq, Repr

instance : Describe Token where
  describe
    | .opening => "Open"
    | .closing => "Close"
    | .comma => "Comma"
    | .number n => "Num(" ++ toString n ++ ")"

/-- A number, or a list of trees. -/
inductive Tree
  | leaf (n : Int)
  | list (children : List Tree)

/-- The tokens written for a tree. -/
def Tree.encode : Tree → List Token
  | .leaf n => [.number n]
  | .list children =>
    .opening :: ([.comma].intercalate (children.map fun child => child.encode) ++ [.closing])

/-- The tokens written for the members of a list. -/
def encodeMembers (children : List Tree) : List Token :=
  [.comma].intercalate (children.map Tree.encode)

/-- One number. -/
def number : Rule N Token Γ Int :=
  (Rule.tokenWhere "number" fun
    | .number _ => true
    | _ => false).map fun
    | .number n => n
    | _ => 0

/-- A tree that is a number. -/
def leafTree : Rule N Token Γ Tree :=
  number.map .leaf

/-- The members of a list are read by references to the grammar. -/
def members : Rule N Token (Tree :: Γ) (Array Tree) :=
  .collect (.separatedBy (.token .comma) .any) (.reference .here)

/-- A tree that is a list. -/
def listTree : Rule N Token (Tree :: Γ) Tree :=
  (Rule.enclose (.token .opening) (.token .closing) members).map fun children =>
    .list children.toList

/-- What the grammar says about a tree. -/
def tree : Rule N Token (Tree :: Γ) Tree :=
  .fork leafTree [listTree]

/-- The grammar of nested lists. -/
def grammar : Rule N Token Γ Tree :=
  .recursive tree

@[simp]
theorem encode_leaf (n : Int) : (Tree.leaf n).encode = [.number n] := by
  simp [Tree.encode]

@[simp]
theorem encode_list (children : List Tree) :
    (Tree.list children).encode = .opening :: (encodeMembers children ++ [.closing]) := by
  simp [Tree.encode, encodeMembers]

@[simp]
theorem encodeMembers_nil : encodeMembers [] = [] := rfl

/-- A last member stands behind a comma unless it is the only one. -/
theorem encodeMembers_concat (children : List Tree) (last : Tree) :
    encodeMembers (children ++ [last]) =
      if children = [] then last.encode
      else encodeMembers children ++ .comma :: last.encode := by
  induction children with
  | nil => simp [encodeMembers]
  | cons child children ih =>
      cases children with
      | nil => simp [encodeMembers]
      | cons next rest =>
          simp only [encodeMembers, List.cons_append, List.map_cons,
            List.intercalate_cons_cons, reduceCtorEq, if_false] at ih ⊢
          rw [ih]
          simp

/-! ## What is written for a tree -/

section Written

theorem encode_ne_nil (result : Tree) : result.encode ≠ [] := by
  cases result <;> simp

theorem encodeMembers_ne_nil {children : List Tree} (some : children ≠ []) :
    encodeMembers children ≠ [] := by
  rcases children.eq_nil_or_concat with rfl | ⟨children, last, rfl⟩
  · exact absurd rfl some
  · rw [List.concat_eq_append, encodeMembers_concat]
    split
    · exact encode_ne_nil last
    · simp

section Induction

variable {motive : List Token → Prop} (none : motive [])
  (between : ∀ written more, written ≠ [] → more ≠ [] → motive written → motive more →
    motive (written ++ .comma :: more))

include none between

/-- What is written for members has a property that commas between them keep. -/
theorem encodeMembers_induction {children : List Tree}
    (each : ∀ child ∈ children, motive child.encode) : motive (encodeMembers children) := by
  induction children using List.reverseRecOn with
  | nil => exact none
  | append_singleton children last ih =>
      have behind := each last (by simp)
      rw [encodeMembers_concat]
      split
      · exact behind
      · next some =>
          have before := ih fun child present => each child (by simp [present])
          exact between _ _ (encodeMembers_ne_nil some) (encode_ne_nil last) before behind

/-- What is written for a tree has a property that commas between members and the tokens
around a list keep. -/
theorem encode_induction (single : ∀ n, motive [.number n])
    (around : ∀ written, motive written → motive (.opening :: (written ++ [.closing])))
    (result : Tree) : motive result.encode := by
  induction result using Tree.encode.induct with
  | case1 n =>
      rw [encode_leaf]
      exact single n
  | case2 children ih =>
      rw [encode_list]
      exact around _ (encodeMembers_induction none between ih)

end Induction

/-- What is written for a tree is closed as often as it is opened. -/
theorem count_encode (result : Tree) :
    result.encode.count .closing = result.encode.count .opening := by
  refine encode_induction
    (motive := fun written => written.count Token.closing = written.count Token.opening)
    ?_ ?_ ?_ ?_ result
  · rfl
  · intro written more _ _ before behind
    simp [before, behind]
  · intro n
    simp
  · intro written balanced
    simp [balanced]

/-- A tree that is written may start with the token. -/
def Token.Starts (token : Token) : Prop :=
  token ≠ .comma ∧ token ≠ .closing

/-- A tree that is written may end with the token. -/
def Token.Ends (token : Token) : Prop :=
  token ≠ .comma ∧ token ≠ .opening

/-- Of two tokens next to each other, a comma is behind the end of a member and in front
of the start of one. -/
def Separated (left right : Token) : Prop :=
  (right = .comma → left.Ends) ∧ (left = .comma → right.Starts)

/-- Every comma stands between two members. -/
structure CommasPlaced (written : List Token) : Prop where
  chain : written.IsChain Separated
  starts : ∀ token ∈ written.head?, token.Starts
  ends : ∀ token ∈ written.getLast?, token.Ends

variable {written more : List Token}

theorem CommasPlaced.between (some : written ≠ []) (others : more ≠ [])
    (placed : CommasPlaced written) (placed' : CommasPlaced more) :
    CommasPlaced (written ++ .comma :: more) where
  chain := by
    refine placed.chain.append (List.isChain_cons.mpr ⟨?_, placed'.chain⟩) ?_
    · intro token present
      have starts := placed'.starts token present
      exact ⟨fun separates => absurd separates starts.1, fun _ => starts⟩
    · rintro token present _ ⟨⟩
      have ends := placed.ends token present
      exact ⟨fun _ => ends, fun separates => absurd separates ends.1⟩
  starts := by
    rw [List.head?_append_of_ne_nil _ some]
    exact placed.starts
  ends := by
    rw [List.getLast?_append_of_ne_nil _ (by simp), List.getLast?_cons_of_ne_nil others]
    exact placed'.ends

theorem CommasPlaced.around (placed : CommasPlaced written) :
    CommasPlaced (.opening :: (written ++ [.closing])) where
  chain := by
    refine List.isChain_cons.mpr ⟨?_, placed.chain.append (.singleton _) ?_⟩
    · intro token present
      cases written with
      | nil =>
          cases present
          constructor <;> rintro ⟨⟩
      | cons first rest =>
          have starts := placed.starts token present
          exact ⟨fun separates => absurd separates starts.1, fun opens => (nomatch opens)⟩
    · rintro token present _ ⟨⟩
      have ends := placed.ends token present
      exact ⟨fun closes => (nomatch closes), fun separates => absurd separates ends.1⟩
  starts := by simp [Token.Starts]
  ends := by simp [Token.Ends, List.getLast?_cons]

theorem commasPlaced_encode (result : Tree) : CommasPlaced result.encode := by
  refine encode_induction (motive := CommasPlaced) ?_ ?_ ?_ ?_ result
  · constructor <;> simp
  · intro written more some others placed placed'
    exact placed.between some others placed'
  · intro n
    constructor <;> simp [Token.Starts, Token.Ends]
  · intro written placed
    exact placed.around

end Written

/-! ## The alternatives at one position -/

section Alternatives

variable {setting : Setting N Token Γ} {position stop : Nat}
  (fits : setting.size ≤ lastPosition)

include fits

theorem yields_number_accepted_iff {n : Int} :
    number.Yields setting position (.accepted n stop) ↔
      setting.input.source[position]? = some (.number n) ∧ stop = position + 1 := by
  rw [number, Rule.yields_map_accepted_iff, Rule.tokenWhere]
  simp only [Rule.yields_nextAs_accepted_iff fits]
  constructor
  · rintro ⟨found, ⟨element, present, judged, rfl⟩, rfl⟩
    cases element <;> cases judged
    exact ⟨present, rfl⟩
  · rintro ⟨present, rfl⟩
    exact ⟨.number n, ⟨_, present, rfl, rfl⟩, rfl⟩

theorem number_rejects (absent : ∀ n, setting.input.source[position]? ≠ some (.number n)) :
    number.Rejects setting position := by
  have terminates : number.Terminates setting position := by
    obtain ⟨outcome, yields⟩ := Rule.nextAs_terminates fits _
    exact ⟨_, Rule.yields_map_iff.mpr ⟨outcome, yields, rfl⟩⟩
  refine terminates.rejects_iff.mpr fun n stop accepts => ?_
  exact absent n ((yields_number_accepted_iff fits).mp accepts).1

theorem yields_leafTree_accepted_iff {result : Tree} :
    leafTree.Yields setting position (.accepted result stop) ↔
      ∃ n, setting.input.source[position]? = some (.number n) ∧ stop = position + 1 ∧
        result = .leaf n := by
  simp only [leafTree, Rule.yields_map_accepted_iff, yields_number_accepted_iff fits,
    and_assoc]

end Alternatives

section Members

variable {setting : Setting N Token (Tree :: Γ)} {position stop : Nat}
  (fits : setting.size ≤ lastPosition)

include fits

/-- A list is closed where its last member ended. -/
theorem yields_listTree_accepted_iff {result : Tree} :
    listTree.Yields setting position (.accepted result stop) ↔
      ∃ children reach, setting.input.source[position]? = some .opening ∧
        members.Yields setting (position + 1) (.accepted children reach) ∧
        setting.input.source[reach]? = some .closing ∧ stop = reach + 1 ∧
        result = .list children.toList := by
  simp only [listTree, Rule.yields_map_accepted_iff, Rule.yields_enclose_accepted_iff,
    Rule.yields_token_accepted_iff fits]
  constructor
  · rintro ⟨children, ⟨_, _, reach, _, ⟨opens, -, rfl⟩, found, closes, -, rfl⟩, rfl⟩
    exact ⟨children, reach, opens, found, closes, rfl, rfl⟩
  · rintro ⟨children, reach, opens, found, closes, rfl, rfl⟩
    exact ⟨children, ⟨_, _, reach, _, ⟨opens, rfl, rfl⟩, found, closes, rfl, rfl⟩, rfl⟩

theorem listTree_rejects (absent : setting.input.source[position]? ≠ some .opening) :
    listTree.Rejects setting position :=
  (Rule.token_rejects fits absent).enclose.map

/-- The first token decides between the alternatives, so either of them is accepted as if
it were alone. -/
theorem yields_tree_accepted_iff {result : Tree} :
    tree.Yields setting position (.accepted result stop) ↔
      leafTree.Yields setting position (.accepted result stop) ∨
        listTree.Yields setting position (.accepted result stop) := by
  refine Rule.yields_orElse_iff.trans ⟨?_, ?_⟩
  · rintro ⟨kept, candidate, leaf, list, same⟩
    rcases Outcome.eq_or_eq_of_best_eq_accepted same.symm with rfl | rfl
    · exact .inl leaf
    · exact .inr list
  · rintro (leaf | list)
    · obtain ⟨n, present, -⟩ := (yields_leafTree_accepted_iff fits).mp leaf
      have absent : setting.input.source[position]? ≠ some .opening := by simp [present]
      obtain ⟨failures, rejects⟩ := listTree_rejects fits absent
      exact ⟨_, _, leaf, rejects, rfl⟩
    · obtain ⟨_, _, opens, -⟩ := (yields_listTree_accepted_iff fits).mp list
      have absent (n : Int) : setting.input.source[position]? ≠ some (.number n) := by
        simp [opens]
      obtain ⟨failures, rejects⟩ := (number_rejects fits absent).map
      exact ⟨_, _, rejects, list, rfl⟩

/-- A tree starts with a number or with an opening token. -/
theorem tree_rejects (closed : setting.input.source[position]? ≠ some .opening)
    (absent : ∀ n, setting.input.source[position]? ≠ some (.number n)) :
    tree.Rejects setting position := by
  obtain ⟨failures, leaf⟩ : leafTree.Rejects setting position :=
    (number_rejects fits absent).map
  obtain ⟨more, list⟩ := listTree_rejects fits closed
  exact ⟨_, Rule.yields_orElse_iff.mpr ⟨_, _, leaf, list, rfl⟩⟩

end Members

/-! ## From one position to the next -/

section Recursion

variable {input : Input N Token} {context : Context}

/-- Where the grammar is applied. -/
abbrev outside (input : Input N Token) (context : Context) : Setting N Token [] :=
  ⟨input, .nil, context⟩

/-- Where its alternatives are applied. -/
abbrev inside (input : Input N Token) (context : Context) : Setting N Token [Tree] :=
  ⟨input, .cons (.defined tree) 0 .nil, context⟩

/-- From a position on, references read what is written for a tree. -/
def ReadsFrom (input : Input N Token) (context : Context) (start : Nat) : Prop :=
  ∀ middle, start ≤ middle → ∀ child stop,
    (Rule.reference .here).Yields (inside input context) middle (.accepted child stop) ↔
      Stands input.source child.encode middle stop

/-- How the members of a list are repeated. -/
abbrev separated : Repetition N Token (Tree :: Γ) :=
  .separatedBy (.token .comma) .any

variable (fits : input.source.size ≤ lastPosition)

include fits

theorem member_rejects {position : Nat}
    (closed : input.source[position]? ≠ some .opening)
    (absent : ∀ n, input.source[position]? ≠ some (.number n)) :
    (Rule.reference .here).Rejects (inside input context) position := by
  have short : (inside input context).size ≤ lastPosition := fits
  obtain ⟨failures, rejects⟩ := tree_rejects short closed absent
  exact ⟨failures, Rule.yields_reference_here_iff.mpr (Rule.yields_recursive_iff.mpr rejects)⟩

/-- If references read what is written for a tree, members are read as they are written. -/
theorem successes_iff_stands {start stop : Nat} {children : List Tree}
    (within : start ≤ input.source.size) (reads : ReadsFrom input context start) :
    Repetition.Successes (inside input context) separated (.reference .here) start children
        stop ↔
      Stands input.source (encodeMembers children) start stop := by
  have short : (inside input context).size ≤ lastPosition := fits
  induction children using List.reverseRecOn generalizing stop with
  | nil =>
      rw [Repetition.successes_nil_iff, encodeMembers_nil, stands_nil_iff]
      simp [within]
  | append_singleton children last ih =>
      rw [Repetition.successes_concat_iff, encodeMembers_concat]
      cases children with
      | nil =>
          simp only [Repetition.successes_nil_iff, List.length_nil,
            Repetition.attempt_zero_iff, exists_eq_left, if_true]
          exact reads start (Nat.le_refl start) last stop
      | cons child children =>
          simp only [ih, List.length_cons, Repetition.attempt_separatedBy_succ_iff,
            Rule.yields_token_accepted_iff short, reduceCtorEq, and_false, exists_false,
            or_false, if_false, stands_append_iff, stands_cons_iff]
          constructor
          · rintro ⟨middle, before, _, _, ⟨separates, -, rfl⟩, succeeds⟩
            have above := before.bounds.1
            exact ⟨middle, before, separates, (reads _ (by omega) last stop).mp succeeds⟩
          · rintro ⟨middle, before, separates, encoded⟩
            have above := before.bounds.1
            exact ⟨middle, before, _, _, ⟨separates, rfl, rfl⟩,
              (reads _ (by omega) last stop).mpr encoded⟩

/-- In front of a closing token no further member is found. -/
theorem attempt_rejects_closing {position : Nat}
    (closes : input.source[position]? = some .closing) (count : Nat) :
    ∃ failures, Repetition.Attempt (inside input context) separated (.reference .here) count
      position (.rejected failures) := by
  have short : (inside input context).size ≤ lastPosition := fits
  cases count with
  | zero =>
      obtain ⟨failures, rejects⟩ : (Rule.reference .here).Rejects (inside input context)
          position := member_rejects fits (by simp [closes]) (by simp [closes])
      exact ⟨failures, Repetition.attempt_zero_iff.mpr rejects⟩
  | succ count =>
      have absent : (inside input context).input.source[position]? ≠ some .comma := by
        simp [closes]
      obtain ⟨failures, rejects⟩ := Rule.token_rejects short absent
      exact ⟨failures, Repetition.attempt_separatedBy_succ_iff.mpr
        (.inr ⟨failures, rejects, rfl⟩)⟩

theorem yields_members_accepted_iff {start reach : Nat} {children : Array Tree}
    (within : start ≤ input.source.size) (reads : ReadsFrom input context start)
    (closes : input.source[reach]? = some .closing) :
    members.Yields (inside input context) start (.accepted children reach) ↔
      Stands input.source (encodeMembers children.toList) start reach := by
  rw [members, Repetition.yields_collect_any_accepted_iff rfl,
    successes_iff_stands fits within reads]
  exact and_iff_left (attempt_rejects_closing fits closes children.size)

/-- The grammar accepts exactly what is written for a tree. -/
theorem yields_grammar_accepted_iff {position stop : Nat} {result : Tree} :
    grammar.Yields (outside input context) position (.accepted result stop) ↔
      Stands input.source result.encode position stop := by
  have short : (inside input context).size ≤ lastPosition := fits
  -- Members of a list start behind the token that opens it.
  induction left : input.source.size - position using Nat.strongRecOn
    generalizing position result stop with
  | ind left again =>
      have reads (opened : position < input.source.size) :
          ReadsFrom input context (position + 1) := by
        intro middle above child stop
        exact Rule.yields_reference_here_iff.trans
          (again (input.source.size - middle) (by omega) rfl)
      rw [grammar, Rule.yields_recursive_iff, yields_tree_accepted_iff short,
        yields_leafTree_accepted_iff short, yields_listTree_accepted_iff short]
      cases result with
      | leaf n => simp [stands_singleton_iff]
      | list children =>
          simp only [encode_list, stands_cons_iff, stands_append_iff, stands_nil_iff,
            reduceCtorEq, and_false, exists_false, false_or]
          constructor
          · rintro ⟨array, reach, opens, found, closes, rfl, same⟩
            obtain ⟨opened, -⟩ := Array.getElem?_eq_some_iff.mp opens
            obtain ⟨closed, -⟩ := Array.getElem?_eq_some_iff.mp closes
            cases same
            have encoded :=
              (yields_members_accepted_iff fits opened (reads opened) closes).mp found
            exact ⟨opens, reach, encoded, closes, rfl, closed⟩
          · rintro ⟨opens, reach, encoded, closes, rfl, -⟩
            obtain ⟨opened, -⟩ := Array.getElem?_eq_some_iff.mp opens
            have found :=
              (yields_members_accepted_iff fits opened (reads opened) closes).mpr encoded
            exact ⟨children.toArray, reach, opens, found, closes, rfl, rfl⟩

end Recursion

/-! ## What is not written for a tree -/

theorem consumes_tree : (tree : Rule N Token [Tree] Tree).Consumes False := by
  rw [tree, Rule.consumes_fork_iff, List.forall_mem_cons, List.forall_mem_singleton]
  exact ⟨trivial, Rule.consumes_enclose_iff.mpr (.inl trivial)⟩

/-- The reference comes behind the opening token. -/
theorem guarded_tree : (tree : Rule N Token [Tree] Tree).Guarded False :=
  ⟨trivial, ⟨⟨trivial, trivial⟩, trivial, .inr (.inr trivial), fun _ => trivial⟩, trivial⟩

/-- What is written so far has not closed everything that it opened. -/
def StaysOpen (written : List Token) : Prop :=
  ∀ first, first <+: written → first ≠ [] → first ≠ written →
    first.count .closing < first.count .opening

/-- If a tree is written where something else stands that stays open, then that is the
start of what is written for the tree. -/
theorem StaysOpen.isPrefix_encode {source : Array Token} {written : List Token}
    {result : Tree} {start reach stop : Nat} (opened : StaysOpen written)
    (stands : Stands source written start reach)
    (encoded : Stands source result.encode start stop) : written <+: result.encode := by
  rcases stands.prefix_or_prefix encoded with shorter | longer
  · exact shorter
  · by_cases same : result.encode = written
    · exact same ▸ List.prefix_rfl
    · have unbalanced := opened _ longer (encode_ne_nil result) same
      exact absurd (count_encode result) (Nat.ne_of_lt unbalanced)

/-- The grammar accepts exactly what is written for a tree, and its value is that tree.
Whatever stands in front of a tree and behind it, the tree is read back, and no other one
is accepted there. Where nothing is written for a tree the grammar rejects. In particular
it rejects a list, however deep in the outermost one, with a comma behind the token that
opens it, behind another comma or in front of the token that closes it. -/
theorem grammar_reads_what_is_written {input : Input N Token}
    (fits : input.source.size ≤ lastPosition) (context : Context) :
    (∀ position result stop,
      grammar.Yields (outside input context) position (.accepted result stop) ↔
        span? input.source position stop = some result.encode.toArray) ∧
    (∀ before result after, input.source.toList = before ++ result.encode ++ after →
      grammar.Yields (outside input context) before.length
        (.accepted result (before.length + result.encode.length))) ∧
    (∀ position result stop result' stop',
      grammar.Yields (outside input context) position (.accepted result stop) →
      grammar.Yields (outside input context) position (.accepted result' stop') →
        result' = result ∧ stop' = stop) ∧
    (∀ position, grammar.Rejects (outside input context) position ↔
      ∀ (result : Tree) stop,
        span? input.source position stop ≠ some result.encode.toArray) ∧
    ∀ position reach written, span? input.source position reach = some written.toArray →
      StaysOpen written → ¬ written.IsChain Separated →
        grammar.Rejects (outside input context) position := by
  have accepts (position : Nat) (result : Tree) (stop : Nat) :
      grammar.Yields (outside input context) position (.accepted result stop) ↔
        span? input.source position stop = some result.encode.toArray :=
    (yields_grammar_accepted_iff fits).trans span?_eq_some_iff_stands.symm
  have rejects (position : Nat) : grammar.Rejects (outside input context) position ↔
      ∀ (result : Tree) stop,
        span? input.source position stop ≠ some result.encode.toArray := by
    have terminates : grammar.Terminates (outside input context) position :=
      guarded_tree.recursive_terminates fits consumes_tree context position
    simp only [terminates.rejects_iff, accepts, ne_eq]
  refine ⟨accepts, ?_, ?_, rejects, ?_⟩
  · intro before result after split
    refine (yields_grammar_accepted_iff fits).mpr ⟨before, after, split, rfl, ?_⟩
    exact List.length_append
  · intro position result stop result' stop' first second
    cases first.unique second
    exact ⟨rfl, rfl⟩
  · intro position reach written stands opened misplaced
    refine (rejects position).mpr fun result stop encoded => misplaced ?_
    have isPrefix := opened.isPrefix_encode (span?_eq_some_iff_stands.mp stands)
      (span?_eq_some_iff_stands.mp encoded)
    exact List.IsChain.prefix (commasPlaced_encode result).chain isPrefix

/-- Two lists one behind the other, the second of them with a doubled comma inside. -/
def listAndSlip : Input .none Token where
  source := #[.opening, .number 1, .comma, .opening, .closing, .closing,
    .opening, .opening, .number 2, .comma, .comma, .closing, .closing]
  grammar := .empty
  verbosity := .off

/-- The first list is read, up to the token that opens the second, which is rejected. -/
theorem listAndSlip_read :
    let second : List Token := [.opening, .opening, .number 2, .comma, .comma]
    listAndSlip.source.size ≤ lastPosition ∧
      grammar.Yields (outside listAndSlip ∅) 0 (.accepted (.list [.leaf 1, .list []]) 6) ∧
      span? listAndSlip.source 6 11 = some second.toArray ∧
      StaysOpen second ∧ ¬ second.IsChain Separated ∧
      grammar.Rejects (outside listAndSlip ∅) 6 := by
  intro second
  have fits : listAndSlip.source.size ≤ lastPosition := by decide
  have starts : ∀ first ∈ second.inits, first ≠ [] → first ≠ second →
      first.count .closing < first.count .opening := by decide
  have opened : StaysOpen second := fun first isPrefix =>
    starts first ((List.mem_inits first second).mpr isPrefix)
  have misplaced : ¬ second.IsChain Separated := by
    simp [second, Separated, Token.Ends]
  have stands : span? listAndSlip.source 6 11 = some second.toArray := by decide
  obtain ⟨accepts, -, -, -, rejects⟩ := grammar_reads_what_is_written fits ∅
  have written : (Tree.list [.leaf 1, .list []]).encode =
      [.opening, .number 1, .comma, .opening, .closing, .closing] := by
    simp [encodeMembers]
  have encoded : span? listAndSlip.source 0 6 =
      some (Tree.list [.leaf 1, .list []]).encode.toArray := by
    rw [written]
    decide
  exact ⟨fits, (accepts 0 _ 6).mpr encoded, stands, opened, misplaced,
    rejects 6 11 second stands opened misplaced⟩

end NestedList

end Rulebook
