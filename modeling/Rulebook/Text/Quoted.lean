/-
# Quoted text

How texts and characters are written in messages: between quotes, with the
quote itself, backslashes and line ends escaped by a backslash. Combining
marks and characters without a visible form are written by their code point in
hexadecimal, so that a message never depends on how a mark attaches.
-/

import Rulebook.Text.CombiningMark
import Rulebook.Text.Unprintable

namespace Rulebook.Text

/-- The digits of a number to base 16, in lower case and without padding. -/
def hexadecimal (n : Nat) : String :=
  String.ofList (Nat.toDigits 16 n)

/-- Whether a character is written by its code point. -/
def isHidden (c : Char) : Bool :=
  let code := c.toNat
  if code < 0x7f then code < 0x20
  else combiningMarks.contains code || unprintable.contains code

/-- A character as it stands between two quotes. -/
def escape (quote c : Char) : String :=
  if c = quote || c = '\\' then "\\" ++ String.singleton c
  else if c = '\x00' then "\\0"
  else if c = '\t' then "\\t"
  else if c = '\r' then "\\r"
  else if c = '\n' then "\\n"
  else if isHidden c then "\\u\x7b" ++ hexadecimal c.toNat ++ "\x7d"
  else String.singleton c

/-- A text between double quotes. -/
def quoted (text : String) : String :=
  "\"" ++ String.join (text.toList.map (escape '"')) ++ "\""

/-- A character between single quotes. -/
def quotedChar (c : Char) : String :=
  "'" ++ escape '\'' c ++ "'"

end Rulebook.Text
