/-
# Failures survive their exchange

Failures that are written as JSON and read again are the same failures in the same order,
whatever characters stand in their texts, as long as every position is one. The way back has
two stages. The tokens of the text are those it was written from, and a sequence of tokens
in front of any others denotes a value: an item reads its own tokens and leaves the rest, so
arrays and objects of such items do as well.

What is read has positions only, so it survives being written and read again. An array
without items is no rejection, however it is written.
-/

import Rulebook.Failures.Exchange
import Rulebook.Proofs.JsonTokens

namespace Rulebook

namespace Json

/-- In front of any other tokens, these are read as the value. -/
def Denotes (depth : Nat) (found : List Token) (value : Value) : Prop :=
  ∀ rest, readValue depth (found ++ rest) = some (value, rest)

theorem denotes_text (depth : Nat) (content : Option String) :
    Denotes depth [.text content] (.text content) := by
  intro rest
  cases depth <;> rfl

theorem denotes_number (depth : Nat) (number : Option Nat) :
    Denotes depth [.number number] (.number number) := by
  intro rest
  cases depth <;> rfl

/-- A value does not begin with the end of an array, and not with nothing. -/
theorem Denotes.exists_cons {depth : Nat} {found : List Token} {value : Value}
    (denotes : Denotes depth found value) :
    ∃ first more, found = first :: more ∧ first ≠ .closeArray := by
  have alone := denotes []
  cases found with
  | nil => cases depth <;> cases alone
  | cons first more =>
      refine ⟨first, more, rfl, ?_⟩
      rintro rfl
      cases depth <;> cases alone

section Parts

variable {α : Type} {read : List Token → Option (α × List Token)} {limit : Nat}

/-- Items that are read one by one are read with the commas between them. -/
theorem readItems_intercalate {founds : List (List Token)} {items : List α}
    (reads : List.Forall₂ (fun found item => ∀ rest, read (found ++ rest) = some (item, rest))
      founds items)
    (inhabited : founds ≠ []) (limited : founds.length ≤ limit) (rest : List Token) :
    readItems read limit ([Token.comma].intercalate founds ++ .closeArray :: rest) =
      some (items, rest) := by
  induction reads generalizing limit with
  | nil => exact absurd rfl inhabited
  | @cons found item founds items first others ih =>
      obtain ⟨limit, rfl⟩ : ∃ less, limit = less + 1 :=
        ⟨limit - 1, by rw [List.length_cons] at limited; omega⟩
      cases others with
      | nil => simp [readItems, List.intercalate_singleton, first]
      | cons second others =>
          rw [List.length_cons] at limited
          have remaining := ih (List.cons_ne_nil _ _) (Nat.le_of_succ_le_succ limited)
          rw [List.intercalate_cons_cons, List.append_assoc, List.append_assoc, readItems,
            first]
          simp [remaining]

/-- Members whose values are read one by one are read with the commas between them. -/
theorem readMembers_intercalate {founds : List (String × List Token)}
    {members : List (Option String × α)}
    (reads : List.Forall₂ (fun found member => member.1 = some found.1 ∧
      ∀ rest, read (found.2 ++ rest) = some (member.2, rest)) founds members)
    (inhabited : founds ≠ []) (limited : founds.length ≤ limit) (rest : List Token) :
    readMembers read limit
        ([Token.comma].intercalate (founds.map memberTokens) ++ .closeObject :: rest) =
      some (members, rest) := by
  induction reads generalizing limit with
  | nil => exact absurd rfl inhabited
  | @cons found member founds members first others ih =>
      obtain ⟨limit, rfl⟩ : ∃ less, limit = less + 1 :=
        ⟨limit - 1, by rw [List.length_cons] at limited; omega⟩
      obtain ⟨name, found⟩ := found
      obtain ⟨_, value⟩ := member
      obtain ⟨rfl, first⟩ := first
      cases others with
      | nil => simp [readMembers, List.intercalate_singleton, memberTokens, first]
      | cons second others =>
          rw [List.length_cons] at limited
          have remaining := ih (List.cons_ne_nil _ _) (Nat.le_of_succ_le_succ limited)
          rw [List.map_cons] at remaining
          rw [List.map_cons, List.map_cons, List.intercalate_cons_cons, List.append_assoc,
            List.append_assoc, memberTokens, List.cons_append, List.cons_append, readMembers,
            first]
          simp [remaining]

end Parts

/-- Between two items stands a comma, so there are no more of them than tokens and one. -/
theorem length_le_intercalate (founds : List (List Token)) :
    founds.length ≤ ([Token.comma].intercalate founds).length + 1 := by
  induction founds with
  | nil => exact Nat.zero_le _
  | cons found founds ih =>
      cases founds with
      | nil => exact Nat.le_add_left 1 _
      | cons second founds =>
          rw [List.intercalate_cons_cons]
          simp only [List.length_cons, List.length_append] at ih ⊢
          omega

/-- An array that does not end at once is read item by item. -/
theorem readValue_openArray (depth : Nat) {first : Token} (more : List Token)
    (continued : first ≠ .closeArray) :
    readValue (depth + 1) (.openArray :: first :: more) =
      (readItems (readValue depth) ((first :: more).length + 1) (first :: more)).map
        fun (items, rest) => (.array items, rest) := by
  rw [readValue]
  rintro rest ⟨⟩
  exact continued rfl

theorem denotes_array {depth : Nat} {founds : List (List Token)} {items : List Value}
    (denote : List.Forall₂ (Denotes depth) founds items) :
    Denotes (depth + 1) (arrayTokens founds) (.array items) := by
  intro rest
  have split : arrayTokens founds ++ rest =
      .openArray :: ([Token.comma].intercalate founds ++ .closeArray :: rest) := by
    simp [arrayTokens]
  rw [split]
  cases denote with
  | nil => rfl
  | @cons found item founds items first others =>
      obtain ⟨token, more, rfl, continued⟩ := first.exists_cons
      have counted := length_le_intercalate ((token :: more) :: founds)
      have limited : ((token :: more) :: founds).length ≤
          ([Token.comma].intercalate ((token :: more) :: founds) ++
            .closeArray :: rest).length + 1 := by
        rw [List.length_append]
        omega
      have reads := readItems_intercalate (.cons first others) (List.cons_ne_nil _ _) limited
        rest
      rw [List.intercalate_cons_cons_left, List.cons_append] at reads ⊢
      rw [readValue_openArray depth _ continued, reads, Option.map_some]

theorem denotes_object {depth : Nat} {founds : List (String × List Token)}
    {members : List (Option String × Value)}
    (denote : List.Forall₂ (fun found member => member.1 = some found.1 ∧
      Denotes depth found.2 member.2) founds members) :
    Denotes (depth + 1) (objectTokens founds) (.object members) := by
  intro rest
  have split : objectTokens founds ++ rest =
      .openObject :: ([Token.comma].intercalate (founds.map memberTokens) ++
        .closeObject :: rest) := by
    simp [objectTokens]
  rw [split]
  cases denote with
  | nil => rfl
  | @cons found member founds members first others =>
      have counted := length_le_intercalate ((found :: founds).map memberTokens)
      have limited : (found :: founds).length ≤
          ([Token.comma].intercalate ((found :: founds).map memberTokens) ++
            .closeObject :: rest).length + 1 := by
        rw [List.length_map] at counted
        rw [List.length_append]
        omega
      have reads := readMembers_intercalate (.cons first others) (List.cons_ne_nil _ _) limited
        rest
      rw [List.map_cons, memberTokens, List.intercalate_cons_cons_left,
        List.cons_append] at reads ⊢
      rw [readValue, reads, Option.map_some]
      rintro _ ⟨⟩

theorem Value.le_of_asPosition? {value : Value} {n : Nat}
    (found : value.asPosition? = some n) : n ≤ lastPosition := by
  unfold asPosition? at found
  split at found
  · rename_i m
    by_cases placed : m ≤ lastPosition
    · rw [if_pos placed] at found
      cases found
      exact placed
    · rw [if_neg placed] at found
      cases found
  · cases found

end Json

/-- A list is read back if each of its items is. -/
theorem mapM_map_eq_some {α β : Type} {write : α → β} {read : β → Option α} {items : List α}
    (inverse : ∀ item ∈ items, read (write item) = some item) :
    (items.map write).mapM read = some items := by
  induction items with
  | nil => rfl
  | cons item items ih =>
      rw [List.forall_mem_cons] at inverse
      rw [List.map_cons, List.mapM_cons, inverse.1, ih inverse.2]
      rfl

theorem exists_of_mem_mapM {α β : Type} {read : β → Option α} {values : List β}
    {items : List α} (found : values.mapM read = some items) :
    ∀ item ∈ items, ∃ value ∈ values, read value = some item := by
  induction values generalizing items with
  | nil =>
      cases found
      exact List.forall_mem_nil _
  | cons value values ih =>
      rw [List.mapM_cons] at found
      obtain ⟨item, first, found⟩ := Option.bind_eq_some_iff.mp found
      obtain ⟨others, rest, found⟩ := Option.bind_eq_some_iff.mp found
      cases found
      rw [List.forall_mem_cons]
      refine ⟨⟨value, List.mem_cons_self, first⟩, fun item occurs => ?_⟩
      obtain ⟨value, member, read⟩ := ih rest item occurs
      exact ⟨value, List.mem_cons_of_mem _ member, read⟩

namespace Failure

/-- The tokens of a failure. -/
def jsonTokens (failure : Failure) : List Json.Token :=
  Json.objectTokens
    [("path", Json.arrayTokens (failure.path.map fun label => [.text (some label)])),
      ("message", [.text (some failure.message)]),
      ("pos", [.number (some failure.position)])]

/-- The value that a failure is read from. -/
def jsonValue (failure : Failure) : Json.Value :=
  .object
    [(some "path", .array (failure.path.map fun label => .text (some label))),
      (some "message", .text (some failure.message)),
      (some "pos", .number (some failure.position))]

theorem spells_toJson (failure : Failure) :
    Json.Spells failure.toJson.toList failure.jsonTokens := by
  have path : Json.Spells (Json.array (failure.path.map Json.text)).toList
      (Json.arrayTokens (failure.path.map fun label => [.text (some label)])) := by
    apply Json.spells_array
    rw [List.forall₂_map_left_iff, List.forall₂_map_right_iff, List.forall₂_same]
    exact fun label _ => (Json.spells_text label).before
  have message := (Json.spells_text failure.message).before
  have position := Json.spellsBefore_number failure.position
  exact Json.spells_object
    (.cons ⟨rfl, path.before⟩ (.cons ⟨rfl, message⟩ (.cons ⟨rfl, position⟩ .nil)))

theorem denotes_jsonTokens (failure : Failure) (depth : Nat) :
    Json.Denotes (depth + 2) failure.jsonTokens failure.jsonValue := by
  have path : Json.Denotes (depth + 1)
      (Json.arrayTokens (failure.path.map fun label => [.text (some label)]))
      (.array (failure.path.map fun label => .text (some label))) := by
    apply Json.denotes_array
    rw [List.forall₂_map_left_iff, List.forall₂_map_right_iff, List.forall₂_same]
    exact fun label _ => Json.denotes_text depth (some label)
  have message := Json.denotes_text (depth + 1) (some failure.message)
  have position := Json.denotes_number (depth + 1) (some failure.position)
  exact Json.denotes_object
    (.cons ⟨rfl, path⟩ (.cons ⟨rfl, message⟩ (.cons ⟨rfl, position⟩ .nil)))

theorem ofValue?_jsonValue {failure : Failure} (placed : failure.position ≤ lastPosition) :
    ofValue? failure.jsonValue = some failure := by
  have path : (failure.path.map fun label => Json.Value.text (some label)).mapM
      Json.Value.asText? = some failure.path := mapM_map_eq_some fun label _ => rfl
  simp [ofValue?, jsonValue, Json.Value.member?, ofParts?, Json.Value.asPath?, path,
    Json.Value.asText?, Json.Value.asPosition?, placed]

theorem position_le_of_ofParts? {path message position : Json.Value} {failure : Failure}
    (found : ofParts? path message position = some failure) :
    failure.position ≤ lastPosition := by
  unfold ofParts? at found
  obtain ⟨_, _, found⟩ := Option.bind_eq_some_iff.mp found
  obtain ⟨_, _, found⟩ := Option.bind_eq_some_iff.mp found
  obtain ⟨n, placed, found⟩ := Option.bind_eq_some_iff.mp found
  cases found
  exact Json.Value.le_of_asPosition? placed

/-- What is read as a failure has a position. -/
theorem position_le_of_ofValue? {value : Json.Value} {failure : Failure}
    (found : ofValue? value = some failure) : failure.position ≤ lastPosition := by
  unfold ofValue? at found
  split at found
  · split at found
    · cases found
    · obtain ⟨_, _, found⟩ := Option.bind_eq_some_iff.mp found
      obtain ⟨_, _, found⟩ := Option.bind_eq_some_iff.mp found
      obtain ⟨_, _, found⟩ := Option.bind_eq_some_iff.mp found
      exact position_le_of_ofParts? found
  · exact position_le_of_ofParts? found
  · cases found

end Failure

namespace Failures

theorem tokens_toJson (failures : Failures) :
    Json.tokens failures.toJson =
      Json.arrayTokens (failures.toList.map Failure.jsonTokens) := by
  apply Json.Spells.tokens_eq
  apply Json.spells_array
  rw [List.forall₂_map_left_iff, List.forall₂_map_right_iff, List.forall₂_same]
  exact fun failure _ => (failure.spells_toJson).before

theorem read_toJson (failures : Failures) :
    Json.Value.read (Json.tokens failures.toJson) =
      some (.array (failures.toList.map Failure.jsonValue), []) := by
  have denotes (depth : Nat) : Json.Denotes (depth + 3)
      (Json.arrayTokens (failures.toList.map Failure.jsonTokens))
      (.array (failures.toList.map Failure.jsonValue)) := by
    apply Json.denotes_array
    rw [List.forall₂_map_left_iff, List.forall₂_map_right_iff, List.forall₂_same]
    exact fun failure _ => failure.denotes_jsonTokens depth
  -- The first failure alone has tokens enough for the depth of the nesting.
  obtain ⟨depth, deep⟩ : ∃ depth,
      (Json.arrayTokens (failures.toList.map Failure.jsonTokens)).length = depth + 3 := by
    obtain ⟨more, begins⟩ : ∃ more, failures.first.jsonTokens = .openObject :: more := ⟨_, rfl⟩
    rw [toList, List.map_cons, begins, Json.arrayTokens, List.intercalate_cons_cons_left,
      List.length_append, List.length_cons, List.length_cons]
    exact ⟨_, rfl⟩
  have reads := denotes depth []
  rwa [List.append_nil, ← deep, ← Json.Value.read, ← tokens_toJson] at reads

/-- What was written is read again. -/
theorem ofJson_toJson {failures : Failures}
    (placed : ∀ failure ∈ failures.toList, failure.position ≤ lastPosition) :
    ofJson failures.toJson = .ok failures := by
  have found : (failures.toList.map Failure.jsonValue).mapM Failure.ofValue? =
      some failures.toList :=
    mapM_map_eq_some fun failure occurs => Failure.ofValue?_jsonValue (placed failure occurs)
  simp only [ofJson, read_toJson, found, ofList?_toList]

/-- What was read has positions only. -/
theorem position_le_of_ofJson {text : String} {failures : Failures}
    (found : ofJson text = .ok failures) :
    ∀ failure ∈ failures.toList, failure.position ≤ lastPosition := by
  unfold ofJson at found
  split at found
  · split at found
    · cases found
    · rename_i items rest _ _ read
      split at found
      · cases found
      · rename_i listed
        cases found
        intro failure occurs
        rw [toList_of_ofList? listed] at occurs
        obtain ⟨value, _, valued⟩ := exists_of_mem_mapM read failure occurs
        exact Failure.position_le_of_ofValue? valued
      · cases found
  · cases found

theorem ofJson_eq_empty {text : String} {rest : List Json.Token}
    (read : Json.Value.read (Json.tokens text) = some (.array [], rest)) :
    ofJson text = .error .empty := by
  rw [ofJson, read]
  rfl

/-- An array without items may have blanks around and in it. -/
theorem read_blank_array {before inside after : List Char}
    (blank : ∀ c ∈ before ++ inside ++ after, Json.isBlank c) :
    Json.Value.read (Json.tokens (String.ofList (before ++ '[' :: inside ++ ']' :: after))) =
      some (.array [], []) := by
  simp only [List.forall_mem_append] at blank
  obtain ⟨⟨blankBefore, blankInside⟩, blankAfter⟩ := blank
  have opening : Json.Spells ['['] [.openArray] :=
    Json.spells_of_begin (fun _ => rfl) (by decide)
  have closing : Json.Spells [']'] [.closeArray] :=
    Json.spells_of_begin (fun _ => rfl) (by decide)
  have spells := (Json.spells_blanks blankBefore).append
    ((opening.append (Json.spells_blanks blankInside)).append
      (closing.append (Json.spells_blanks blankAfter)))
  have tokens : Json.tokens (String.ofList (before ++ '[' :: inside ++ ']' :: after)) =
      [.openArray, .closeArray] := by
    apply Json.Spells.tokens_eq
    rw [String.toList_ofList]
    simpa using spells
  rw [tokens]
  rfl

/-- Failures with positions are the same after being written and read. What is read is not
empty, and it is the same when it is written and read again. A text for an array without
items is refused, whatever blanks it has. -/
theorem exchange_is_lossless :
    (∀ failures : Failures, (∀ failure ∈ failures.toList, failure.position ≤ lastPosition) →
      ofJson failures.toJson = .ok failures) ∧
    (∀ text failures, ofJson text = .ok failures →
      failures.toList ≠ [] ∧ ofJson failures.toJson = .ok failures) ∧
    (∀ text rest, Json.Value.read (Json.tokens text) = some (.array [], rest) →
      ofJson text = .error .empty) ∧
    ∀ before inside after : List Char, (∀ c ∈ before ++ inside ++ after, Json.isBlank c) →
      ofJson (String.ofList (before ++ '[' :: inside ++ ']' :: after)) = .error .empty := by
  refine ⟨fun failures placed => ofJson_toJson placed, fun text failures found => ?_,
    fun text rest read => ofJson_eq_empty read, fun before inside after blank => ?_⟩
  · exact ⟨List.cons_ne_nil _ _, ofJson_toJson (position_le_of_ofJson found)⟩
  · exact ofJson_eq_empty (read_blank_array blank)

/-- Two failures whose texts need every kind of escape, the first one at the last position. -/
def unusualFailures : Failures :=
  ⟨⟨["say \"it\"", "a\\b/c"], "tab\tbell\x07 smile 😀 \u2028", lastPosition⟩,
    [⟨[], "", 0⟩]⟩

/-- A failure may also be read from an array of its parts. It is written as an object. -/
theorem unusualFailures_exchanged :
    let text := "[ [[\"list\"], \"caf\\u00e9\", 3] ]"
    let found : Failures := .single ⟨["list"], "café", 3⟩
    (∀ failure ∈ unusualFailures.toList, failure.position ≤ lastPosition) ∧
      ofJson unusualFailures.toJson = .ok unusualFailures ∧
      ofJson text = .ok found ∧ found.toList ≠ [] ∧ ofJson found.toJson = .ok found ∧
      Json.Value.read (Json.tokens "[]") = some (.array [], []) ∧
      ofJson "[]" = .error .empty ∧
      (∀ c ∈ [' '] ++ ['\n'] ++ [], Json.isBlank c) ∧
      ofJson (String.ofList [' ', '[', '\n', ']']) = .error .empty := by
  intro text found
  have placed : ∀ failure ∈ unusualFailures.toList, failure.position ≤ lastPosition := by
    simp [unusualFailures, toList]
  have tokens : Json.tokens text =
      [.openArray, .openArray, .openArray, .text (some "list"), .closeArray, .comma,
        .text (some "café"), .comma, .number (some 3), .closeArray, .closeArray] := by decide
  have read : ofJson text = .ok found := by
    rw [ofJson, tokens]
    rfl
  have none : Json.Value.read (Json.tokens "[]") = some (.array [], []) := rfl
  have blank : ∀ c ∈ [' '] ++ ['\n'] ++ [], Json.isBlank c :=
    List.all_eq_true.mp rfl
  obtain ⟨written, again, empty, padded⟩ := exchange_is_lossless
  obtain ⟨inhabited, same⟩ := again text found read
  exact ⟨placed, written _ placed, read, inhabited, same, none, empty _ _ none, blank,
    padded _ _ _ blank⟩

end Failures

end Rulebook
