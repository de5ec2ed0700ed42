/-
# Where clusters lie in the bytes of a text

The offset of a cluster is the number of bytes of the clusters in front of it, and that of
an index behind the last cluster is the number of bytes of the text. So a range of clusters
that is neither empty nor reversed is answered with the bytes of just these clusters.

This needs little of the clusters: that none is empty, and that put together they are the
text.
-/

import Rulebook.Diagnostics.SourceMap

namespace Rulebook

namespace Text

variable {clusters : Array Grapheme} {start middle stop index : Nat}

/-- The number of bytes in front of a cluster. -/
def bytesBefore (clusters : Array Grapheme) (index : Nat) : Nat :=
  (concat (clusters.extract 0 index)).utf8ByteSize

theorem concat_append (clusters more : Array Grapheme) :
    concat (clusters ++ more) = concat clusters ++ concat more := by
  simp [concat]

theorem concat_extract_append_extract (first : start ≤ middle) (second : middle ≤ stop) :
    concat (clusters.extract start middle) ++ concat (clusters.extract middle stop) =
      concat (clusters.extract start stop) := by
  rw [← concat_append, Array.extract_append_extract, Nat.min_eq_left first,
    Nat.max_eq_right second]

theorem bytesBefore_add (ordered : start ≤ stop) :
    bytesBefore clusters start + (concat (clusters.extract start stop)).utf8ByteSize =
      bytesBefore clusters stop := by
  rw [bytesBefore, ← String.utf8ByteSize_append,
    concat_extract_append_extract (Nat.zero_le start) ordered, bytesBefore]

theorem bytesBefore_mono (ordered : start ≤ stop) :
    bytesBefore clusters start ≤ bytesBefore clusters stop :=
  bytesBefore_add ordered ▸ Nat.le_add_right _ _

theorem bytesBefore_succ (inside : index < clusters.size) :
    bytesBefore clusters (index + 1) =
      bytesBefore clusters index + clusters[index].utf8ByteSize := by
  have single : concat (clusters.extract index (index + 1)) = clusters[index] := by
    have present : index < clusters.toList.length := inside
    simp [concat, List.drop_eq_getElem_cons present]
  rw [← bytesBefore_add (Nat.le_succ index), single]

theorem bytesBefore_of_size_le (behind : clusters.size ≤ index) :
    bytesBefore clusters index = (concat clusters).utf8ByteSize := by
  rw [bytesBefore, Array.extract_eq_self_of_le behind]

theorem bytesBefore_le (index : Nat) :
    bytesBefore clusters index ≤ (concat clusters).utf8ByteSize := by
  have all := bytesBefore_of_size_le (Nat.le_max_right index clusters.size)
  exact all ▸ bytesBefore_mono (Nat.le_max_left index clusters.size)

/-- If no cluster is empty, every cluster adds to the bytes. -/
theorem bytesBefore_lt (solid : ∀ cluster ∈ clusters, cluster ≠ "") (ordered : start < stop)
    (inside : stop ≤ clusters.size) :
    bytesBefore clusters start < bytesBefore clusters stop := by
  have present : start < clusters.size := Nat.lt_of_lt_of_le ordered inside
  have some : 0 < clusters[start].utf8ByteSize :=
    Nat.pos_of_ne_zero fun none =>
      solid _ (Array.getElem_mem present) (String.utf8ByteSize_eq_zero_iff.mp none)
  calc bytesBefore clusters start
      < bytesBefore clusters (start + 1) := by
        rw [bytesBefore_succ present]
        exact Nat.lt_add_of_pos_right some
    _ ≤ bytesBefore clusters stop := bytesBefore_mono ordered

/-- The bytes of a text in a range are those of a part of it. -/
def Covers (text : String) (range : ByteRange) (part : String) : Prop :=
  range.stop ≤ text.utf8ByteSize ∧
    text.toByteArray.extract range.start range.stop = part.toByteArray

theorem covers_append (before part after : String) :
    Covers (before ++ part ++ after)
      ⟨before.utf8ByteSize, before.utf8ByteSize + part.utf8ByteSize⟩ part := by
  constructor
  · simp only [String.utf8ByteSize_append]
    exact Nat.le_add_right _ _
  · have skipped := ByteArray.extract_append_size_add (a := before.toByteArray)
      (b := part.toByteArray ++ after.toByteArray) (i := 0) (j := part.toByteArray.size)
    rw [Nat.add_zero, ByteArray.extract_append_eq_left rfl] at skipped
    rw [String.append_assoc, String.toByteArray_append, String.toByteArray_append]
    exact skipped

/-- Between two offsets there are the bytes of the clusters between them. -/
theorem covers_clusters (ordered : start ≤ stop) (inside : stop ≤ clusters.size) :
    Covers (concat clusters) ⟨bytesBefore clusters start, bytesBefore clusters stop⟩
      (concat (clusters.extract start stop)) := by
  have parts : concat clusters = concat (clusters.extract 0 start) ++
      concat (clusters.extract start stop) ++
        concat (clusters.extract stop clusters.size) := by
    rw [concat_extract_append_extract (Nat.zero_le start) ordered,
      concat_extract_append_extract (Nat.zero_le stop) inside, Array.extract_size]
  rw [← bytesBefore_add ordered, parts]
  exact covers_append _ _ _

end Text

namespace SourceMap

/-- The map of a text that consists of the clusters. -/
def ofClusters (clusters : Array Grapheme) : SourceMap :=
  clusters.foldl add ⟨#[], 0⟩

theorem ofText_eq_ofClusters (text : String) :
    ofText text = ofClusters (Text.graphemes text) := rfl

theorem offset_add (map : SourceMap) (cluster : Grapheme) (index : Nat) :
    (map.add cluster).offset index =
      if index ≤ map.count then map.offset index else map.size + cluster.utf8ByteSize := by
  simp only [offset, add, count, Array.getD_eq_getD_getElem?, Array.getElem?_push]
  grind

theorem offset_count (map : SourceMap) : map.offset map.count = map.size := by
  simp [offset, count]

/-- The map knows the first clusters of a text. -/
structure Notes (clusters : Array Grapheme) (number : Nat) (map : SourceMap) : Prop where
  counted : map.count = number
  offsets : ∀ index, map.offset index = Text.bytesBefore clusters (min index number)

variable {clusters : Array Grapheme} {number start stop index : Nat} {map : SourceMap}

theorem Notes.size_eq (notes : Notes clusters number map) :
    map.size = Text.bytesBefore clusters number := by
  rw [← offset_count, notes.offsets, notes.counted, Nat.min_self]

/-- A further cluster starts where the text ended so far. -/
theorem Notes.add (notes : Notes clusters number map) (inside : number < clusters.size) :
    Notes clusters (number + 1) (map.add clusters[number]) where
  counted := (Array.size_push _).trans (congrArg (· + 1) notes.counted)
  offsets index := by
    rw [offset_add, notes.counted, notes.size_eq, ← Text.bytesBefore_succ inside]
    split
    · next within => rw [notes.offsets, Nat.min_eq_left within, Nat.min_eq_left (by omega)]
    · next behind => rw [Nat.min_eq_right (by omega)]

theorem notes_ofClusters (clusters : Array Grapheme) :
    Notes clusters clusters.size (ofClusters clusters) := by
  refine Array.foldl_induction (Notes clusters) ?_ ?_
  · constructor
    · rfl
    · intro index
      simp [offset, Text.bytesBefore, Text.concat]
  · intro number map notes
    exact notes.add number.isLt

/-- Every index is answered with the bytes in front of it. -/
theorem offset_ofClusters (clusters : Array Grapheme) (index : Nat) :
    (ofClusters clusters).offset index = Text.bytesBefore clusters index := by
  rw [(notes_ofClusters clusters).offsets]
  rcases Nat.le_total index clusters.size with inside | behind
  · rw [Nat.min_eq_left inside]
  · rw [Nat.min_eq_right behind, Text.bytesBefore_of_size_le behind,
      Text.bytesBefore_of_size_le (Nat.le_refl _)]

/-- A range with clusters in it is answered with their bytes. -/
theorem byteRange_of_lt (ordered : start < stop) :
    (ofClusters clusters).byteRange start stop =
      ⟨Text.bytesBefore clusters start, Text.bytesBefore clusters stop⟩ := by
  have below : Text.bytesBefore clusters start ≤ Text.bytesBefore clusters stop :=
    Text.bytesBefore_mono (Nat.le_of_lt ordered)
  simp only [byteRange, if_pos ordered, offset_ofClusters, Nat.max_eq_left below]

/-- Behind the last cluster no range has bytes. -/
theorem byteRange_of_size_le (behind : clusters.size ≤ start) (nothing : stop ≤ start) :
    (ofClusters clusters).byteRange start stop =
      ⟨(Text.concat clusters).utf8ByteSize, (Text.concat clusters).utf8ByteSize⟩ := by
  have below : Text.bytesBefore clusters (following start) ≤
      (Text.concat clusters).utf8ByteSize := Text.bytesBefore_le _
  simp only [byteRange, if_neg (Nat.not_lt.mpr nothing), offset_ofClusters,
    Text.bytesBefore_of_size_le behind, Nat.max_eq_right below]

end SourceMap

end Rulebook
