/-
# Text with styles

A report is made of rows, and a row of pieces that each have a style. Printed
plainly, the styles are left out; printed for a terminal, each piece with a
style is wrapped into the codes that switch it on and off.
-/

namespace Rulebook

/-- The role of a piece of text in a report. -/
inductive Style
  | plain
  /-- The word that says how severe a report is. -/
  | severity
  | title
  /-- Line numbers and the frame around the source. -/
  | margin
  /-- What points at the source and says why. -/
  | marker
  deriving DecidableEq, Inhabited, Repr

/-- The codes that switch a style on; none for plain text. -/
def Style.codes : Style → Option String
  | .plain => none
  | .severity => some "\x1b[1m\x1b[91m"
  | .title => some "\x1b[1m"
  | .margin => some "\x1b[1m\x1b[94m"
  | .marker => some "\x1b[1m\x1b[91m"

/-- Text in one style. -/
structure Piece where
  style : Style
  text : String
  deriving DecidableEq, Inhabited, Repr

/-- The pieces of one line of output. -/
abbrev Row := List Piece

namespace Row

/-- The text of a row, with or without the codes for its styles. -/
def toText (colored : Bool) (row : Row) : String :=
  String.join <| row.map fun piece =>
    match colored, piece.style.codes with
    | true, some codes => codes ++ piece.text ++ "\x1b[0m"
    | _, _ => piece.text

end Row

end Rulebook
