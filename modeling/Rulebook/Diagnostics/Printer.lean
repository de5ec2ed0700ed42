/-
# Printing rejections

Without a source text each failure is printed on a line of its own. With one,
each failure becomes a report with an excerpt of the text. Positions count the
grapheme clusters of the text; for a rejection by a grammar over tokens they
count tokens, and the spans of the tokens say which clusters are meant.
-/

import Rulebook.Failures
import Rulebook.Diagnostics.Excerpt

namespace Rulebook

/-- How a rejection is to be printed. -/
structure Printer where
  /-- The text the positions refer to. -/
  source : Option String := none
  /-- The name of the text. -/
  path : Option String := none
  /-- The clusters that each token consists of: first, and one past the
  last. -/
  tokenSpans : Option (Array (Nat × Nat)) := none
  colored : Bool := false
  /-- Print only the deepest failures, once each. -/
  filtered : Bool := true

namespace Printer

/-- The failures that are printed. -/
def selected (printer : Printer) (failures : Failures) : List Failure :=
  if printer.filtered then failures.filtered else failures.toList

/-- The clusters that a position refers to. Past the last token it is the
place where that token ends. -/
def clusterRange (printer : Printer) (position : Nat) : Nat × Nat :=
  match printer.tokenSpans with
  | none => (position, following position)
  | some spans =>
    match spans[position]? with
    | some span => span
    | none =>
      let stop := (spans.back?.map Prod.snd).getD 0
      (stop, stop)

/-- The bytes of the source that a position refers to. -/
def byteRange (printer : Printer) (map : SourceMap) (position : Nat) :
    ByteRange :=
  let (start, stop) := printer.clusterRange position
  map.byteRange start stop

/-- The report about one failure. -/
def excerpt (printer : Printer) (source : String) (map : SourceMap)
    (failure : Failure) : Excerpt where
  title := failure.labelledMessage
  label := failure.message
  source := source
  path := printer.path
  range := printer.byteRange map failure.position

/-- The text of a rejection. -/
def render (printer : Printer) (failures : Failures) : String :=
  let selected := printer.selected failures
  match printer.source with
  | none => Failures.linesOf selected
  | some source =>
    let map := SourceMap.ofText source
    "\n".intercalate (selected.map fun failure =>
      (printer.excerpt source map failure).toText printer.colored)

end Printer

/-- The reports about the deepest failures of a rejection by a rule over
text. -/
def Failures.render (failures : Failures) (source : String) : String :=
  Printer.render { source := some source } failures

end Rulebook
