/-
# Tokens of what is written

The tokens of a text are found character by character, and only a number does not end where
its last character stands: what follows might belong to it. So two things are said of
written characters. They spell tokens if reading them leads from a place between two tokens
to another one, or they do so as soon as something follows that can be in no number. Both
are closed under concatenation, and what the writer puts around and between its items always
ends a number.

With that every text, number, array and object is read as the tokens it was written from.
-/

import Mathlib.Data.List.Forall2
import Mathlib.Data.List.TakeWhile
import Rulebook.Json.Token
import Rulebook.Json.Writer

namespace Rulebook.Json

/-- The characters add the tokens, from a place between two tokens to another one. -/
def Spells (chars : List Char) (found : List Token) : Prop :=
  ∀ tokens : Array Token,
    chars.foldl Scan.read ⟨tokens, .between⟩ = ⟨tokens ++ found.toArray, .between⟩

/-- The characters add the tokens as soon as something follows that is in no number. -/
def SpellsBefore (chars : List Char) (found : List Token) : Prop :=
  ∀ (tokens : Array Token) (next : Char), isNumberChar next = false →
    (chars.foldl Scan.read ⟨tokens, .between⟩).read next =
      Scan.read ⟨tokens ++ found.toArray, .between⟩ next

variable {chars more : List Char} {found others : List Token} {next : Char}

theorem spells_nil : Spells [] [] := by
  intro tokens
  rw [List.foldl_nil, Array.append_empty]

theorem Spells.append (spells : Spells chars found) (spells' : Spells more others) :
    Spells (chars ++ more) (found ++ others) := by
  intro tokens
  rw [List.foldl_append, spells, spells', Array.append_assoc, List.append_toArray found others]

theorem Spells.before (spells : Spells chars found) : SpellsBefore chars found := by
  intro tokens next _
  rw [spells]

theorem Spells.append_before (spells : Spells chars found)
    (spells' : SpellsBefore more others) : SpellsBefore (chars ++ more) (found ++ others) := by
  intro tokens next outside
  rw [List.foldl_append, spells, spells' _ _ outside, Array.append_assoc,
    List.append_toArray found others]

/-- What follows ends the number. -/
theorem SpellsBefore.append (spells : SpellsBefore chars found)
    (outside : isNumberChar next = false) (spells' : Spells (next :: more) others) :
    Spells (chars ++ next :: more) (found ++ others) := by
  intro tokens
  rw [List.foldl_append, List.foldl_cons, spells _ _ outside, ← List.foldl_cons, spells',
    Array.append_assoc, List.append_toArray found others]

/-- The tokens of a text are those that its characters spell. -/
theorem Spells.tokens_eq {content : String} (spells : Spells content.toList found) :
    tokens content = found := by
  rw [tokens, Scan.start, spells]
  simp [Scan.finish, Scan.settle]

/-! ## Punctuation and blanks -/

theorem spells_of_begin {c : Char} {token : Token}
    (begins : ∀ scan : Scan, scan.begin c = scan.complete token) (valid : token ≠ .invalid) :
    Spells [c] [token] := by
  intro tokens
  rw [List.foldl_cons, List.foldl_nil, Scan.read, begins, Scan.complete, if_neg valid,
    Array.push_eq_append]

theorem spells_comma : Spells [','] [.comma] :=
  spells_of_begin (fun _ => rfl) (by decide)

theorem spells_blanks (blank : ∀ c ∈ chars, isBlank c) : Spells chars [] := by
  induction chars with
  | nil => exact spells_nil
  | cons c chars ih =>
      intro tokens
      rw [List.forall_mem_cons] at blank
      rw [List.foldl_cons, Scan.read, Scan.begin, if_pos blank.1]
      exact ih blank.2 tokens

/-! ## Texts -/

theorem hexValue?_hexDigit : ∀ n < 16, hexValue? (hexDigit n) = some n := by
  decide

/-- An escaped character is read as the character. -/
theorem read_escape (tokens : Array Token) (written : String) (c : Char) :
    (escape c).toList.foldl Scan.read ⟨tokens, .text ⟨written, none, false⟩ .outside⟩ =
      ⟨tokens, .text ⟨written.push c, none, false⟩ .outside⟩ := by
  by_cases named : c = '"' ∨ c = '\\' ∨ c = '\x08' ∨ c = '\t' ∨ c = '\n' ∨ c = '\x0c' ∨
      c = '\r'
  · rcases named with rfl | rfl | rfl | rfl | rfl | rfl | rfl <;> rfl
  · simp only [not_or] at named
    obtain ⟨quote, backslash, b, t, n, f, r⟩ := named
    rw [escape, if_neg quote, if_neg backslash, if_neg b, if_neg t, if_neg n, if_neg f,
      if_neg r]
    by_cases control : c.toNat < 0x20
    · -- The four digits are those of the code point, which is below 32.
      have high := hexValue?_hexDigit (c.toNat / 16) (by omega)
      have low := hexValue?_hexDigit (c.toNat % 16) (by omega)
      have whole : c.toNat / 16 * 16 + c.toNat % 16 = c.toNat := by omega
      have zero : hexValue? '0' = some 0 := rfl
      have unit :
          Content.pushUnit ⟨written, none, false⟩ c.toNat = ⟨written.push c, none, false⟩ := by
        rw [Content.pushUnit, if_neg (by simp; omega), if_neg (by simp; omega),
          Char.ofNat_toNat]
        rfl
      rw [if_pos control, String.toList_ofList]
      simp [List.foldl_cons, Scan.read, Scan.continueText, zero, high, low, whole, unit]
    · rw [if_neg control, String.toList_singleton, List.foldl_cons, List.foldl_nil]
      simp only [Scan.read, Scan.continueText, if_neg quote, if_neg backslash, if_neg control]
      rfl

/-- The escaped characters of a text are read as its characters. -/
theorem read_content (tokens : Array Token) (content : List Char) (written : String) :
    (content.flatMap fun c => (escape c).toList).foldl Scan.read
        ⟨tokens, .text ⟨written, none, false⟩ .outside⟩ =
      ⟨tokens, .text ⟨written ++ String.ofList content, none, false⟩ .outside⟩ := by
  induction content generalizing written with
  | nil => simp
  | cons c content ih =>
      have joined : written.push c ++ String.ofList content =
          written ++ String.ofList (c :: content) := by
        simp [← String.toList_inj]
      rw [List.flatMap_cons, List.foldl_append, read_escape, ih, joined]

theorem spells_text (content : String) : Spells (text content).toList [.text (some content)] := by
  intro tokens
  have escaped : (text content).toList =
      '"' :: (content.toList.flatMap fun c => (escape c).toList) ++ ['"'] := by
    simp [text, String.toList_join, List.flatMap_map]
  have opened : Scan.read ⟨tokens, .between⟩ '"' =
      ⟨tokens, .text ⟨"", none, false⟩ .outside⟩ := rfl
  rw [escaped, List.cons_append, List.foldl_cons, opened, List.foldl_append, read_content,
    String.empty_append, String.ofList_toList]
  rfl

/-! ## Numbers -/

/-- The characters that begin other tokens, and the blanks. -/
def marks : List Char :=
  [' ', '\t', '\n', '\r', '[', ']', '\x7b', '\x7d', ',', ':', '"']

theorem not_mem_marks {c : Char} (digit : c.isDigit) : c ∉ marks := by
  have plain : marks.all fun mark => !mark.isDigit := rfl
  intro occurs
  have other := List.all_eq_true.mp plain c occurs
  rw [digit] at other
  cases other

/-- A digit begins a number. -/
theorem read_digit (tokens : Array Token) {c : Char} (digit : c.isDigit) :
    Scan.read ⟨tokens, .between⟩ c = ⟨tokens, .number [c]⟩ := by
  have plain := not_mem_marks digit
  simp only [marks, List.mem_cons, List.not_mem_nil, or_false, not_or] at plain
  simp [Scan.read, Scan.begin, isBlank, plain, digit]

theorem read_digits (tokens : Array Token) {digits : List Char} (all : ∀ c ∈ digits, c.isDigit)
    (chars : List Char) :
    digits.foldl Scan.read ⟨tokens, .number chars⟩ =
      ⟨tokens, .number (digits.reverse ++ chars)⟩ := by
  induction digits generalizing chars with
  | nil => rfl
  | cons c digits ih =>
      rw [List.forall_mem_cons] at all
      have inside : isNumberChar c := by simp [isNumberChar, all.1]
      simp only [List.foldl_cons, Scan.read, if_pos inside]
      rw [ih all.2, List.reverse_cons, List.append_assoc]
      rfl

/-- A positive number is written without zeros in front. -/
theorem head?_toDigits_ne {n : Nat} (positive : 0 < n) :
    (Nat.toDigits 10 n).head? ≠ some '0' := by
  induction n using Nat.strongRecOn with
  | ind n ih =>
      by_cases small : n < 10
      · rw [Nat.toDigits_of_lt_base small]
        simp
        omega
      · rw [Nat.toDigits_of_base_le (by decide) (by omega),
          List.head?_append_of_ne_nil _ Nat.toDigits_ne_nil]
        exact ih (n / 10) (by omega) (by omega)

theorem decimal_toDigits (n : Nat) : decimal (Nat.toDigits 10 n) = n := by
  have folded := Nat.ofDigitChars_ten_toDigits (n := n)
  rw [Nat.ofDigitChars_eq_foldl] at folded
  simp only [decimal, Nat.mul_comm _ 10]
  exact folded

/-- Digits without a zero in front are a natural number. -/
theorem ofNumber_digits {first : Char} {rest : List Char}
    (digits : ∀ c ∈ first :: rest, c.isDigit) (unpadded : first = '0' → rest = []) :
    Token.ofNumber (first :: rest) = .number (some (decimal (first :: rest))) := by
  have all : (first :: rest).takeWhile Char.isDigit = first :: rest :=
    List.takeWhile_eq_self_iff.mpr digits
  have none : (first :: rest).dropWhile Char.isDigit = [] :=
    List.dropWhile_eq_nil_iff.mpr digits
  have unsigned : first ≠ '-' := by
    rintro rfl
    exact absurd (digits '-' List.mem_cons_self) (by decide)
  unfold Token.ofNumber
  split
  · rename_i same
    exact absurd (List.cons.inj same).1 unsigned
  · simp only [all, none]
    split
    · rename_i same
      cases same
      cases unpadded rfl
    · rfl

theorem ofNumber_toDigits (n : Nat) :
    Token.ofNumber (Nat.toDigits 10 n) = .number (some n) := by
  have digits : ∀ c ∈ Nat.toDigits 10 n, c.isDigit := fun c occurs =>
    Nat.isDigit_of_mem_toDigits (by decide) (by decide) occurs
  by_cases zero : n = 0
  · rw [zero, Nat.toDigits_zero]
    rfl
  · have leading := head?_toDigits_ne (Nat.pos_of_ne_zero zero)
    have value := decimal_toDigits n
    cases written : Nat.toDigits 10 n with
    | nil => exact absurd written Nat.toDigits_ne_nil
    | cons first rest =>
        rw [written] at digits leading value
        rw [ofNumber_digits digits fun padded => absurd (congrArg some padded) leading, value]

/-- A number is written in decimal digits. -/
theorem spellsBefore_number (n : Nat) :
    SpellsBefore (toString n).toList [.number (some n)] := by
  intro tokens next outside
  have digits : ∀ c ∈ Nat.toDigits 10 n, c.isDigit := fun c occurs =>
    Nat.isDigit_of_mem_toDigits (by decide) (by decide) occurs
  have complete := ofNumber_toDigits n
  rw [Nat.toString_eq_ofList_toDigits, String.toList_ofList]
  cases written : Nat.toDigits 10 n with
  | nil => exact absurd written Nat.toDigits_ne_nil
  | cons first rest =>
      rw [written] at digits complete
      rw [List.forall_mem_cons] at digits
      rw [List.foldl_cons, read_digit tokens digits.1, read_digits tokens digits.2]
      have ended : Scan.settle ⟨tokens, .number (rest.reverse ++ [first])⟩ =
          ⟨tokens ++ [Token.number (some n)].toArray, .between⟩ := by
        simp [Scan.settle, Scan.complete, complete]
      rw [Scan.read]
      simp only [outside]
      rw [ended]
      rfl

/-! ## Arrays and objects -/

/-- Items with commas between them. -/
theorem spellsBefore_intercalate {items : List (List Char)} {founds : List (List Token)}
    (spell : List.Forall₂ SpellsBefore items founds) :
    SpellsBefore ([','].intercalate items) ([Token.comma].intercalate founds) := by
  induction spell with
  | nil => exact spells_nil.before
  | cons first rest ih =>
      cases rest with
      | nil =>
          rw [List.intercalate_singleton, List.intercalate_singleton]
          exact first
      | cons second rest =>
          rw [List.intercalate_cons_cons, List.intercalate_cons_cons]
          exact (first.append rfl spells_comma).append_before ih

/-- The tokens of an array. -/
def arrayTokens (items : List (List Token)) : List Token :=
  .openArray :: [Token.comma].intercalate items ++ [.closeArray]

/-- The tokens of a member of an object. -/
def memberTokens (member : String × List Token) : List Token :=
  .text (some member.1) :: .colon :: member.2

/-- The tokens of an object. -/
def objectTokens (members : List (String × List Token)) : List Token :=
  .openObject :: [Token.comma].intercalate (members.map memberTokens) ++ [.closeObject]

theorem spells_array {items : List String} {founds : List (List Token)}
    (spell : List.Forall₂ (fun item found => SpellsBefore item.toList found) items founds) :
    Spells (array items).toList (arrayTokens founds) := by
  have opening : Spells ['['] [.openArray] := spells_of_begin (fun _ => rfl) (by decide)
  have closing : Spells [']'] [.closeArray] := spells_of_begin (fun _ => rfl) (by decide)
  have written : (array items).toList =
      ['['] ++ [','].intercalate (items.map String.toList) ++ [']'] := by
    simp [array, String.toList_intercalate]
  rw [written]
  refine (opening.append_before (spellsBefore_intercalate ?_)).append rfl closing
  rwa [List.forall₂_map_left_iff]

theorem spellsBefore_member (name : String) {value : String} {found : List Token}
    (spells : SpellsBefore value.toList found) :
    SpellsBefore (text name ++ ":" ++ value).toList (memberTokens (name, found)) := by
  have colon : Spells [':'] [.colon] := spells_of_begin (fun _ => rfl) (by decide)
  rw [String.toList_append, String.toList_append]
  exact ((spells_text name).append colon).append_before spells

theorem spells_object {members : List (String × String)} {founds : List (String × List Token)}
    (spell : List.Forall₂ (fun member found =>
      found.1 = member.1 ∧ SpellsBefore member.2.toList found.2) members founds) :
    Spells (object members).toList (objectTokens founds) := by
  have opening : Spells ['\x7b'] [.openObject] := spells_of_begin (fun _ => rfl) (by decide)
  have closing : Spells ['\x7d'] [.closeObject] := spells_of_begin (fun _ => rfl) (by decide)
  have written : (object members).toList = ['\x7b'] ++
      [','].intercalate (members.map fun member =>
        (text member.1 ++ ":" ++ member.2).toList) ++ ['\x7d'] := by
    simp [object, String.toList_intercalate, Function.comp_def]
  rw [written]
  refine (opening.append_before (spellsBefore_intercalate ?_)).append rfl closing
  rw [List.forall₂_map_left_iff, List.forall₂_map_right_iff]
  refine spell.imp fun member found same => ?_
  obtain ⟨name, value⟩ := member
  obtain ⟨_, found⟩ := found
  obtain ⟨rfl, spells⟩ := same
  exact spellsBefore_member _ spells

end Rulebook.Json
