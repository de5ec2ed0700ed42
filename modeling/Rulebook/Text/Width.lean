/-
# Columns of a display

How many columns a character takes on a display with a fixed pitch, and what
is printed in place of characters that would disturb the columns.
-/

import Rulebook.Text.CombiningMark
import Rulebook.Text.WidthTable

namespace Rulebook.Text

/-- The number of columns a tabulator takes. -/
def tabWidth : Nat := 4

/-- Whether a character steers the direction of the text around it. -/
def steersDirection (c : Char) : Bool :=
  let code := c.toNat
  (0x202a ≤ code && code ≤ 0x202e) || (0x2066 ≤ code && code ≤ 0x2069)

/-- The sign for "et cetera" in Khmer, written like three letters. -/
def khmerBeyyal : Char := '\u17d8'

/-- The mark that joins two letters of Tifinagh. It is seen where it joins
nothing. -/
def tifinaghJoiner : Char := '\u2d7f'

/-- The number of columns a character takes, by itself. -/
def charWidth (c : Char) : Nat :=
  let code := c.toNat
  if c = '\t' then tabWidth
  else if code < 0xa0 then 1
  else if steersDirection c then 1
  else if c = khmerBeyyal then 3
  else if c = tifinaghJoiner then 1
  else if combiningMarks.contains code || invisible.contains code then 0
  else if wide.contains code then 2
  else 1

/-- The number of columns a text takes. -/
def width (text : String) : Nat :=
  text.toList.foldl (fun columns c => columns + charWidth c) 0

/-- What is printed for a character: blanks for a tabulator, a picture for any
other control, nothing for a joiner, and a replacement for what steers the
direction. -/
def displayChar (c : Char) : String :=
  if c = '\t' then "".pushn ' ' tabWidth
  else if c.toNat < 0x20 then String.singleton (Char.ofNat (0x2400 + c.toNat))
  else if c = '\x7f' then "\u2421"
  else if c = '\u200d' then ""
  else if steersDirection c then "\ufffd"
  else String.singleton c

/-- What is printed for a text. -/
def display (text : String) : String :=
  String.join (text.toList.map displayChar)

end Rulebook.Text
