/-
# Tokens of JSON

A JSON text is read one character at a time into its tokens: punctuation, the
three literal words, numbers and texts. Reading stops at the first place that
can be no part of any token; an invalid token marks that place.

A text whose escapes name half of a surrogate pair alone is a token, but one
without content.
-/

namespace Rulebook.Json

/-- A token of a JSON text. -/
inductive Token
  | openArray
  | closeArray
  | openObject
  | closeObject
  | comma
  | colon
  | null
  | bool (value : Bool)
  /-- A number, with its value if it is a natural number written as such. -/
  | number (value : Option Nat)
  /-- A text, with its content if it has one. -/
  | text (content : Option String)
  /-- The text goes on with something that is no token. -/
  | invalid
  deriving DecidableEq, Inhabited, Repr

/-- The blanks that may stand between tokens. -/
def isBlank (c : Char) : Bool :=
  c = ' ' || c = '\t' || c = '\n' || c = '\r'

/-- The value of a digit of base 16. -/
def hexValue? (c : Char) : Option Nat :=
  if '0' ≤ c && c ≤ '9' then some (c.toNat - '0'.toNat)
  else if 'a' ≤ c && c ≤ 'f' then some (c.toNat - 'a'.toNat + 10)
  else if 'A' ≤ c && c ≤ 'F' then some (c.toNat - 'A'.toNat + 10)
  else none

/-- The content of a text as far as it has been read. -/
structure Content where
  written : String
  /-- The first half of a surrogate pair whose second half has to follow. -/
  half : Option Nat
  /-- Whether half of a surrogate pair stood alone. -/
  torn : Bool
  deriving DecidableEq, Inhabited, Repr

namespace Content

def empty : Content := ⟨"", none, false⟩

/-- Go on with a character. -/
def push (content : Content) (c : Char) : Content :=
  ⟨content.written.push c, none, content.torn || content.half.isSome⟩

/-- Go on with an escaped unit of UTF-16. -/
def pushUnit (content : Content) (unit : Nat) : Content :=
  if 0xd800 ≤ unit && unit < 0xdc00 then
    ⟨content.written, some unit, content.torn || content.half.isSome⟩
  else if 0xdc00 ≤ unit && unit < 0xe000 then
    match content.half with
    | some high =>
      ⟨content.written.push
          (Char.ofNat (0x10000 + (high - 0xd800) * 0x400 + (unit - 0xdc00))),
        none, content.torn⟩
    | none => { content with torn := true }
  else content.push (Char.ofNat unit)

/-- The finished content, unless half of a pair stood alone. -/
def finish (content : Content) : Option String :=
  if content.torn || content.half.isSome then none else some content.written

end Content

/-- Where in an escape a text stands. -/
inductive Escape
  | outside
  /-- Right after a backslash. -/
  | started
  /-- In an escaped unit of UTF-16: the digits left, and their value so
  far. -/
  | unit (left value : Nat)
  deriving DecidableEq, Inhabited, Repr

/-- What is being read. -/
inductive Reading
  | between
  /-- A literal word, its last letter first. -/
  | word (letters : List Char)
  /-- A number, its last character first. -/
  | number (chars : List Char)
  | text (content : Content) (escape : Escape)
  /-- Nothing more can be read. -/
  | stopped
  deriving DecidableEq, Inhabited, Repr

/-- The token for a literal word. -/
def Token.ofWord (word : List Char) : Token :=
  if word = "null".toList then .null
  else if word = "true".toList then .bool true
  else if word = "false".toList then .bool false
  else .invalid

/-- Drop the digits at the start of a list; there has to be one. -/
def dropDigits? (chars : List Char) : Option (List Char) :=
  match chars with
  | c :: rest => if c.isDigit then some (rest.dropWhile Char.isDigit) else none
  | [] => none

/-- Whether characters are a fraction and an exponent, each of which may be
missing. -/
def isNumberTail (chars : List Char) : Bool :=
  let exponent (chars : List Char) : Bool :=
    match chars with
    | [] => true
    | e :: rest =>
      (e = 'e' || e = 'E') &&
        dropDigits? (match rest with
          | '+' :: digits => digits
          | '-' :: digits => digits
          | digits => digits) = some []
  match chars with
  | '.' :: rest =>
    match dropDigits? rest with
    | some rest => exponent rest
    | none => false
  | chars => exponent chars

/-- The value of decimal digits. -/
def decimal (digits : List Char) : Nat :=
  digits.foldl (fun value c => value * 10 + (c.toNat - '0'.toNat)) 0

/-- The token for the characters of a number. There is no zero in front of
other digits. -/
def Token.ofNumber (chars : List Char) : Token :=
  let unsigned := match chars with
    | '-' :: rest => rest
    | chars => chars
  let digits := unsigned.takeWhile Char.isDigit
  let tail := unsigned.dropWhile Char.isDigit
  let padded := match digits with
    | '0' :: _ :: _ => true
    | _ => false
  if digits.isEmpty || padded || !isNumberTail tail then .invalid
  else if tail.isEmpty && unsigned = chars then
    .number (some (decimal digits))
  else .number none

/-- Whether a character can stand in a number. -/
def isNumberChar (c : Char) : Bool :=
  c.isDigit || c = '-' || c = '+' || c = '.' || c = 'e' || c = 'E'

/-- The tokens read so far, and what is being read. -/
structure Scan where
  tokens : Array Token
  reading : Reading

namespace Scan

/-- Nothing has been read. -/
def start : Scan := ⟨#[], .between⟩

/-- Complete a token. After an invalid one nothing more is read. -/
def complete (scan : Scan) (token : Token) : Scan :=
  ⟨scan.tokens.push token, if token = .invalid then .stopped else .between⟩

/-- Read a character that continues no token. -/
def begin (scan : Scan) (c : Char) : Scan :=
  if isBlank c then scan
  else if c = '[' then scan.complete .openArray
  else if c = ']' then scan.complete .closeArray
  else if c = '\x7b' then scan.complete .openObject
  else if c = '\x7d' then scan.complete .closeObject
  else if c = ',' then scan.complete .comma
  else if c = ':' then scan.complete .colon
  else if c = '"' then ⟨scan.tokens, .text .empty .outside⟩
  else if c.isDigit || c = '-' then ⟨scan.tokens, .number [c]⟩
  else if c.isAlpha then ⟨scan.tokens, .word [c]⟩
  else scan.complete .invalid

/-- The character that a backslash and `c` stand for. -/
def escaped? (c : Char) : Option Char :=
  if c = '"' || c = '\\' || c = '/' then some c
  else if c = 'b' then some '\x08'
  else if c = 'f' then some '\x0c'
  else if c = 'n' then some '\n'
  else if c = 'r' then some '\r'
  else if c = 't' then some '\t'
  else none

/-- Read a character inside of a text. -/
def continueText (scan : Scan) (content : Content) (escape : Escape)
    (c : Char) : Scan :=
  match escape with
  | .outside =>
    if c = '"' then scan.complete (.text content.finish)
    else if c = '\\' then ⟨scan.tokens, .text content .started⟩
    else if c.toNat < 0x20 then scan.complete .invalid
    else ⟨scan.tokens, .text (content.push c) .outside⟩
  | .started =>
    if c = 'u' then ⟨scan.tokens, .text content (.unit 4 0)⟩
    else
      match escaped? c with
      | some meant => ⟨scan.tokens, .text (content.push meant) .outside⟩
      | none => scan.complete .invalid
  | .unit left value =>
    match hexValue? c with
    | some digit =>
      if left ≤ 1 then
        ⟨scan.tokens, .text (content.pushUnit (value * 16 + digit)) .outside⟩
      else ⟨scan.tokens, .text content (.unit (left - 1) (value * 16 + digit))⟩
    | none => scan.complete .invalid

/-- Complete a word or a number, if one is being read. -/
def settle (scan : Scan) : Scan :=
  match scan.reading with
  | .word letters => scan.complete (.ofWord letters.reverse)
  | .number chars => scan.complete (.ofNumber chars.reverse)
  | _ => scan

/-- Go on with a character that begins a token or is a blank. -/
def proceed (scan : Scan) (c : Char) : Scan :=
  match scan.reading with
  | .between => scan.begin c
  | _ => scan

/-- Read one more character. -/
def read (scan : Scan) (c : Char) : Scan :=
  match scan.reading with
  | .between => scan.begin c
  | .word letters =>
    if c.isAlpha then ⟨scan.tokens, .word (c :: letters)⟩
    else scan.settle.proceed c
  | .number chars =>
    if isNumberChar c then ⟨scan.tokens, .number (c :: chars)⟩
    else scan.settle.proceed c
  | .text content escape => scan.continueText content escape c
  | .stopped => scan

/-- The tokens at the end of the text. A text that is still open is
invalid. -/
def finish (scan : Scan) : Array Token :=
  match scan.reading with
  | .text _ _ => scan.tokens.push .invalid
  | _ => scan.settle.tokens

end Scan

/-- The tokens of a text. -/
def tokens (text : String) : List Token :=
  (text.toList.foldl Scan.read .start).finish.toList

end Rulebook.Json
