/-
# Excerpts

A report about a range of a source text: the title, where the range is, and
the lines it touches, with the range underlined and labelled. A range inside
one line is underlined from its first to its last column. A range over several
lines is marked at its left side from its first line to its last, and of the
lines between only those near the ends are shown.
-/

import Rulebook.Diagnostics.SourceLine
import Rulebook.Diagnostics.SourceMap
import Rulebook.Diagnostics.StyledText

namespace Rulebook

/-- What a report about a range of a source shows. -/
structure Excerpt where
  title : String
  label : String
  source : String
  path : Option String
  range : ByteRange

namespace Excerpt

/-- The number of line breaks before the end of the range. A line break that
is the last thing before it is not counted. -/
def breaksBefore (source : String) (offset : Nat) : Nat :=
  let front := (SourceLine.takeBefore offset 0 source.toList).reverse
  let front := match front with
    | '\n' :: rest => rest
    | front => front
  front.count '\n'

/-- The number of columns for line numbers. -/
def numberWidth (excerpt : Excerpt) : Nat :=
  (toString (1 + breaksBefore excerpt.source excerpt.range.stop)).length

def blanks (count : Nat) : String := "".pushn ' ' count

/-- The frame of a row that shows no line of the source. -/
def frame (width : Nat) : Row :=
  [⟨.plain, blanks (width + 1)⟩, ⟨.margin, "|"⟩]

/-- The frame of a row that shows the line with the given index. -/
def numbered (width index : Nat) : Row :=
  let number := toString (index + 1)
  [⟨.plain, blanks (width - number.length)⟩, ⟨.margin, number⟩,
    ⟨.plain, " "⟩, ⟨.margin, "|"⟩]

/-- A text after a number of blanks; nothing at all for an empty text. -/
def indented (count : Nat) (text : String) : Row :=
  if text.isEmpty then [] else [⟨.plain, blanks count ++ text⟩]

/-- What is printed for a line of the source. -/
def shown (line : SourceLine) : String :=
  Text.display (String.ofList line.text)

/-- The label after what it belongs to. -/
def labelled (label : String) : Row :=
  if label.isEmpty then [] else [⟨.plain, " "⟩, ⟨.marker, label⟩]

/-- The rows for a range inside of one line. -/
def singleLine (excerpt : Excerpt) (width index : Nat) (line : SourceLine) :
    List Row :=
  let start := line.column excerpt.range.start
  let stop := line.column excerpt.range.stop
  let marker := "".pushn '^' (max 1 (stop - start))
  [numbered width index ++ indented 1 (shown line),
    frame width ++ [⟨.plain, blanks (start + 1)⟩, ⟨.marker, marker⟩] ++
      labelled excerpt.label]

/-- The lines between the first and the last one that are shown: those right
after the first up to the last that is not dull among the next few, and the
one right before the last unless it is dull. -/
def between (lines : Array SourceLine) (first last : Nat) : List Nat :=
  let telling (index : Nat) : Bool :=
    match lines[index]? with
    | some line => !line.isDull
    | none => false
  let middle := min (first + 4) last
  let near := (List.range' first (middle - first)).filter telling
  let head := match near.getLast? with
    | some index => List.range' (first + 1) (index - first)
    | none => []
  let tail := if middle < last - 1 && telling (last - 1) then [last - 1] else []
  head ++ tail

/-- The rows for lines inside of a range, the line with index `previous` being
the one shown before. A gap of one line is filled, a wider one is left out. -/
def bodyRows (lines : Array SourceLine) (width : Nat) :
    (previous : Nat) → List Nat → List Row
  | _, [] => []
  | previous, index :: rest =>
    let row (index : Nat) : Row :=
      numbered width index ++ [⟨.plain, " "⟩, ⟨.marker, "|"⟩] ++
        indented 1 ((lines[index]?.map shown).getD "")
    let gap :=
      if index = previous + 2 then [row (previous + 1)]
      else if previous + 2 < index then
        [[⟨.margin, "..." ++ blanks width ++ "|"⟩]]
      else []
    gap ++ row index :: bodyRows lines width index rest

/-- Whether only blanks stand before a column of a printed line. One character
is taken for each column, so after wide blanks some of the text that follows is
looked at as well. -/
def blankBefore (printed : String) (column : Nat) : Bool :=
  (printed.toList.take column).all Text.isBlank

/-- The rows for a range over several lines. -/
def multipleLines (excerpt : Excerpt) (lines : Array SourceLine)
    (width first last : Nat) (firstLine lastLine : SourceLine) : List Row :=
  let range := excerpt.range
  let start := firstLine.column range.start
  let past := if lastLine.textStop < range.stop then 1 else 0
  let stop := lastLine.column range.stop + past
  let opening :=
    if blankBefore (shown firstLine) start then
      [numbered width first ++ [⟨.plain, " "⟩, ⟨.marker, "/"⟩] ++
        indented 1 (shown firstLine)]
    else
      [numbered width first ++ indented 3 (shown firstLine),
        frame width ++
          [⟨.plain, "  "⟩, ⟨.marker, "".pushn '_' (start + 1) ++ "^"⟩]]
  let closing :=
    frame width ++
      [⟨.plain, " "⟩, ⟨.marker, "|" ++ "".pushn '_' (max 1 stop) ++ "^"⟩] ++
        labelled excerpt.label
  opening ++ bodyRows lines width first (between lines first last ++ [last]) ++
    [closing]

/-- The row that says where the range starts. -/
def placeRow (excerpt : Excerpt) (width index : Nat) (line : SourceLine) :
    List Row :=
  match excerpt.path with
  | none => []
  | some path =>
    let start := excerpt.range.start
    let past := if line.textStop < start then 1 else 0
    let column := 1 + (line.before start).length + past
    [[⟨.plain, blanks width⟩, ⟨.margin, "--> "⟩,
      ⟨.plain, path ++ ":" ++ toString (index + 1) ++ ":" ++
        toString column⟩]]

/-- The rows of a report. -/
def rows (excerpt : Excerpt) : List Row :=
  let range := excerpt.range
  let lines := SourceLine.all excerpt.source
  let width := excerpt.numberWidth
  let first := SourceLine.indexOf lines range.start
  let last :=
    if range.start = range.stop then first
    else SourceLine.indexOf lines range.stop
  let heading : Row :=
    [⟨.severity, "error"⟩, ⟨.title, ": " ++ Text.display excerpt.title⟩]
  match lines[first]?, lines[last]? with
  | some firstLine, some lastLine =>
    let body :=
      if first = last then singleLine excerpt width first firstLine
      else multipleLines excerpt lines width first last firstLine lastLine
    heading :: placeRow excerpt width first firstLine ++ frame width :: body
  | _, _ => [heading]

/-- The text of a report, with or without colors. -/
def toText (colored : Bool) (excerpt : Excerpt) : String :=
  "\n".intercalate (excerpt.rows.map (Row.toText colored))

end Excerpt

end Rulebook
