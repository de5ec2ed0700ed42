/-
# Lines of a source text

A line ends with a line feed, alone or after a carriage return. A line break
at the very end of the text starts no further line, and an empty text has one
empty line.
-/

import Rulebook.Text.Blank
import Rulebook.Text.Width

namespace Rulebook

/-- A line of a text and the bytes it occupies there. -/
structure SourceLine where
  /-- The characters of the line, without its line break. -/
  text : List Char
  /-- The byte at which the line starts. -/
  start : Nat
  /-- The byte after the line, its line break included. -/
  stop : Nat
  deriving Repr

namespace SourceLine

/-- The number of bytes that characters take. -/
def byteSize (chars : List Char) : Nat :=
  (String.ofList chars).utf8ByteSize

/-- The byte right after the characters of the line. -/
def textStop (line : SourceLine) : Nat :=
  line.start + byteSize line.text

/-- Take the characters that start before a byte, the first one starting at
byte `position`. -/
def takeBefore (offset position : Nat) (chars : List Char) : List Char :=
  let step (taken : Array Char × Nat) (c : Char) : Array Char × Nat :=
    (if taken.2 < offset then taken.1.push c else taken.1,
      taken.2 + c.utf8Size)
  (chars.foldl step (#[], position)).1.toList

/-- The characters of the line that start before a byte of the text. -/
def before (line : SourceLine) (offset : Nat) : List Char :=
  takeBefore offset line.start line.text

/-- The column of a byte of the text, at most the width of the line. -/
def column (line : SourceLine) (offset : Nat) : Nat :=
  Text.width (String.ofList (line.before offset))

/-- The line with the given characters, the last one read first, and with a
line break of `breakSize` bytes after them. -/
def ofReversed (start : Nat) (reversed : List Char) (breakSize : Nat) :
    SourceLine :=
  ⟨reversed.reverse, start, start + byteSize reversed + breakSize⟩

/-- Split characters into lines. `reversed` holds the line that has begun at
byte `start`, its last character first. -/
def split (start : Nat) (reversed : List Char) :
    List Char → Array SourceLine → Array SourceLine
  | [], lines =>
    if reversed.isEmpty && !lines.isEmpty then lines
    else lines.push (ofReversed start reversed 0)
  | '\n' :: rest, lines =>
    let line :=
      match reversed with
      | '\r' :: front => ofReversed start front 2
      | _ => ofReversed start reversed 1
    split line.stop [] rest (lines.push line)
  | c :: rest, lines => split start (c :: reversed) rest lines

/-- The lines of a text. -/
def all (text : String) : Array SourceLine :=
  split 0 [] text.toList #[]

/-- The number of the line in which a byte lies, the last one for a byte past
the text. -/
def indexOf (lines : Array SourceLine) (offset : Nat) : Nat :=
  (lines.findIdx? fun line => offset < line.stop).getD (lines.size - 1)

/-- A line that says little when it stands alone: an empty one, a single
bracket, or a comment that is no documentation. -/
def isDull (line : SourceLine) : Bool :=
  let trimmed := (Text.trim (String.ofList line.text)).toList
  trimmed.isEmpty ||
    ["\x7b", "\x7d", "(", ")", "[", "]"].contains (String.ofList trimmed) ||
    ("//".toList.isPrefixOf trimmed && !"///".toList.isPrefixOf trimmed &&
      !"//!".toList.isPrefixOf trimmed)

end SourceLine

end Rulebook
