/-
# From clusters to bytes

Positions in a text count grapheme clusters, while a report underlines ranges
of bytes. A source map holds the byte at which each cluster starts. It answers
for every position and every range, also past the end and for ranges that are
empty or reversed.
-/

import Rulebook.Position
import Rulebook.Text.Grapheme

namespace Rulebook

/-- The byte offsets of the clusters of a text. -/
structure SourceMap where
  /-- Where each cluster starts. -/
  starts : Array Nat
  /-- The length of the text in bytes. -/
  size : Nat
  deriving Repr

/-- A range of bytes, the last one excluded. -/
structure ByteRange where
  start : Nat
  stop : Nat
  deriving DecidableEq, Inhabited, Repr

namespace SourceMap

/-- Note where a further cluster starts. -/
def add (map : SourceMap) (cluster : Grapheme) : SourceMap :=
  ⟨map.starts.push map.size, map.size + cluster.utf8ByteSize⟩

/-- The map of a text. -/
def ofText (text : String) : SourceMap :=
  (Text.graphemes text).foldl add ⟨#[], 0⟩

/-- The number of clusters. -/
def count (map : SourceMap) : Nat :=
  map.starts.size

/-- Where a cluster starts; the length of the text past the last one. -/
def offset (map : SourceMap) (index : Nat) : Nat :=
  map.starts.getD index map.size

/-- The bytes of the clusters from `start` up to `stop`. A range without
clusters is widened to the one it points at, which leaves it empty only at the
end of the text. -/
def byteRange (map : SourceMap) (start stop : Nat) : ByteRange :=
  let first := map.offset start
  let last :=
    if start < stop then map.offset stop else map.offset (following start)
  ⟨first, max last first⟩

end SourceMap

end Rulebook
