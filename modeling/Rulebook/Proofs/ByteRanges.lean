/-
# Every range of clusters

A source map answers for all positions, be they in the text or not. The answer is a range
of bytes in the text that starts and ends where clusters do. Behind the last cluster it is
the empty range at the end. For any other start it has the bytes of at least one cluster,
the one that the range points at, also where the range is empty or reversed, and of no
cluster behind the last one.

The position that follows the last one is the last one again. This makes no difference,
because a text has fewer clusters than there are positions.
-/

import Mathlib.Algebra.GroupWithZero.Nat
import Rulebook.Lexer.Basic
import Rulebook.Proofs.ByteOffsets

namespace Rulebook

namespace Text

variable {clusters : Array Grapheme} {index : Nat}

theorem utf8ByteSize_concat (clusters : Array Grapheme) :
    (concat clusters).utf8ByteSize = (clusters.toList.map String.utf8ByteSize).sum := by
  obtain ⟨clusters⟩ := clusters
  induction clusters with
  | nil => rfl
  | cons cluster clusters ih =>
      simp only [concat] at ih
      simp only [concat, String.join_cons, String.utf8ByteSize_append, ih, List.map_cons,
        List.sum_cons]

theorem bytesBefore_eq_sum (clusters : Array Grapheme) (index : Nat) :
    bytesBefore clusters index =
      ((clusters.toList.take index).map String.utf8ByteSize).sum := by
  rw [bytesBefore, utf8ByteSize_concat]
  simp

theorem bytesBefore_min (clusters : Array Grapheme) (index : Nat) :
    bytesBefore clusters (min clusters.size index) = bytesBefore clusters index := by
  rcases Nat.le_total clusters.size index with behind | inside
  · rw [Nat.min_eq_left behind, bytesBefore_of_size_le behind,
      bytesBefore_of_size_le (Nat.le_refl _)]
  · rw [Nat.min_eq_right inside]

/-- If no cluster is empty, there are not more clusters than bytes. -/
theorem size_le_utf8ByteSize (solid : ∀ cluster ∈ clusters, cluster ≠ "") :
    clusters.size ≤ (concat clusters).utf8ByteSize := by
  have counted (index : Nat) (inside : index ≤ clusters.size) :
      index ≤ bytesBefore clusters index := by
    induction index with
    | zero => exact Nat.zero_le _
    | succ index ih =>
        have more := bytesBefore_lt solid (Nat.lt_succ_self index) inside
        exact Nat.lt_of_le_of_lt (ih (Nat.le_of_succ_le inside)) more
  exact Nat.le_trans (counted _ (Nat.le_refl _)) (bytesBefore_le _)

end Text

namespace SourceMap

variable {clusters : Array Grapheme} {start stop : Nat}

theorem count_ofClusters (clusters : Array Grapheme) :
    (ofClusters clusters).count = clusters.size :=
  (notes_ofClusters clusters).counted

/-- Behind the last cluster every range is empty. -/
theorem byteRange_of_size_le_start (behind : clusters.size ≤ start) (stop : Nat) :
    (ofClusters clusters).byteRange start stop =
      ⟨(Text.concat clusters).utf8ByteSize, (Text.concat clusters).utf8ByteSize⟩ := by
  by_cases ordered : start < stop
  · rw [byteRange_of_lt ordered, Text.bytesBefore_of_size_le behind,
      Text.bytesBefore_of_size_le (by omega)]
  · exact byteRange_of_size_le behind (Nat.not_lt.mp ordered)

/-- A range has at least the cluster it starts at, if there is one. -/
theorem byteRange_eq (representable : start < lastPosition) (stop : Nat) :
    (ofClusters clusters).byteRange start stop =
      ⟨Text.bytesBefore clusters start,
        Text.bytesBefore clusters (min clusters.size (max stop (start + 1)))⟩ := by
  rw [Text.bytesBefore_min]
  by_cases ordered : start < stop
  · rw [byteRange_of_lt ordered, Nat.max_eq_left ordered]
  · have next : following start = start + 1 := Nat.min_eq_left representable
    have below : Text.bytesBefore clusters start ≤ Text.bytesBefore clusters (start + 1) :=
      Text.bytesBefore_mono (Nat.le_succ start)
    rw [byteRange, if_neg ordered, next, offset_ofClusters, offset_ofClusters,
      Nat.max_eq_left below, Nat.max_eq_right (by omega)]

/-- A text is mapped by the clusters that rules read it by. For these, and for any others
that are not empty and make up a text whose bytes can be counted, the offset of an index is
the number of bytes of the clusters before it, and no cluster lies behind the last one. A
range that starts behind the last cluster is the empty one at the end. Any other has the
bytes of the clusters from its start up to its stop, those that exist, and at least of the
one it starts at. No number that occurs passes the last position. -/
theorem map_answers_every_range :
    (∀ text : String, ofText text = ofClusters (Lexer.feed text) ∧
      (∀ cluster ∈ Lexer.feed text, cluster ≠ "") ∧
      Text.concat (Lexer.feed text) = text) ∧
    ∀ (clusters : Array Grapheme) (text : String), (∀ cluster ∈ clusters, cluster ≠ "") →
      Text.concat clusters = text → text.utf8ByteSize ≤ lastPosition →
      let map := ofClusters clusters
      map.count = clusters.size ∧
      (∀ index, map.offset index =
        ((clusters.toList.take (min index map.count)).map String.utf8ByteSize).sum) ∧
      (∀ index later, index ≤ later → map.offset index ≤ map.offset later) ∧
      (∀ index, map.count ≤ index → map.offset index = text.utf8ByteSize) ∧
      (∀ start stop,
        let range := map.byteRange start stop
        let last := min map.count (max stop (start + 1))
        range.start ≤ range.stop ∧ range.stop ≤ text.utf8ByteSize ∧
        (∃ index ≤ map.count, range.start = map.offset index) ∧
        (∃ index ≤ map.count, range.stop = map.offset index) ∧
        (map.count ≤ start → range = ⟨text.utf8ByteSize, text.utf8ByteSize⟩) ∧
        (start < map.count → range.start < range.stop ∧
          range = ⟨map.offset start, map.offset last⟩ ∧
          Text.Covers text range (Text.concat (clusters.extract start last)))) ∧
      (∀ index, map.offset index ≤ lastPosition) ∧
      ∀ start, following start ≤ lastPosition := by
  refine ⟨fun text => ⟨ofText_eq_ofClusters text, fun _ => Text.ne_empty_of_mem_graphemes,
    Text.concat_graphemes text⟩, ?_⟩
  rintro clusters _ solid rfl fits map
  have counted : map.count = clusters.size := count_ofClusters clusters
  have offset (index : Nat) : map.offset index = Text.bytesBefore clusters index :=
    offset_ofClusters clusters index
  have bounded : clusters.size ≤ lastPosition :=
    Nat.le_trans (Text.size_le_utf8ByteSize solid) fits
  have atEnd : map.offset map.count = (Text.concat clusters).utf8ByteSize := by
    rw [offset, counted, Text.bytesBefore_of_size_le (Nat.le_refl _)]
  refine ⟨counted, fun index => ?_, fun index later ordered => ?_, fun index behind => ?_,
    fun start stop => ?_, fun index => ?_, fun start => Nat.min_le_right _ _⟩
  · rw [offset, ← Text.bytesBefore_eq_sum, counted, Nat.min_comm, Text.bytesBefore_min]
  · rw [offset, offset]
    exact Text.bytesBefore_mono ordered
  · rw [offset, Text.bytesBefore_of_size_le (counted ▸ behind)]
  · intro range last
    rcases Nat.lt_or_ge start map.count with inside | behind
    · have answer : range = ⟨map.offset start, map.offset last⟩ := by
        simp only [offset, last, counted]
        exact byteRange_eq (by omega) stop
      clear_value range
      subst answer
      have ordered : start < last := by omega
      have within : last ≤ clusters.size := counted ▸ Nat.min_le_left _ _
      have longer := Text.bytesBefore_lt solid ordered within
      have covers := Text.covers_clusters (Nat.le_of_lt ordered) within
      rw [← offset, ← offset] at longer covers
      exact ⟨Nat.le_of_lt longer, covers.1, ⟨start, Nat.le_of_lt inside, rfl⟩,
        ⟨last, Nat.min_le_left _ _, rfl⟩, fun behind => absurd inside (Nat.not_lt.mpr behind),
        fun _ => ⟨longer, rfl, covers⟩⟩
    · have answer := byteRange_of_size_le_start (counted ▸ behind) stop
      refine ⟨?_, ?_, ⟨map.count, Nat.le_refl _, ?_⟩, ⟨map.count, Nat.le_refl _, ?_⟩,
        fun _ => answer, fun inside => absurd inside (Nat.not_lt.mpr behind)⟩ <;>
        simp only [range, map, answer, ← atEnd, Nat.le_refl]
  · rw [offset]
    exact Nat.le_trans (Text.bytesBefore_le index) fits

/-- Three clusters of several bytes each. The reversed range has the cluster it starts at,
and so has the one that reaches far behind the last cluster. -/
theorem threeClusters_answer_every_range :
    let clusters : Array Grapheme := #["é", "👍🏽", "漢"]
    let text := "é👍🏽漢"
    (∀ cluster ∈ clusters, cluster ≠ "") ∧ Text.concat clusters = text ∧
      text.utf8ByteSize ≤ lastPosition ∧
      (ofClusters clusters).byteRange 1 0 = ⟨2, 10⟩ ∧
      Text.Covers text ((ofClusters clusters).byteRange 1 0) "👍🏽" ∧
      (ofClusters clusters).byteRange 2 lastPosition = ⟨10, 13⟩ ∧
      (ofClusters clusters).byteRange lastPosition 0 = ⟨13, 13⟩ ∧
      (ofClusters clusters).offset 1 ≤ (ofClusters clusters).offset lastPosition := by
  intro clusters text
  have solid : ∀ cluster ∈ clusters, cluster ≠ "" := by decide
  have whole : Text.concat clusters = text := by decide
  have fits : text.utf8ByteSize ≤ lastPosition := by decide
  obtain ⟨_, _, grows, _, ranges, _⟩ := map_answers_every_range.2 clusters text solid whole fits
  obtain ⟨_, _, _, _, _, reversed⟩ := ranges 1 0
  obtain ⟨_, _, _, _, _, far⟩ := ranges 2 lastPosition
  obtain ⟨_, _, _, _, behind, _⟩ := ranges lastPosition 0
  exact ⟨solid, whole, fits, (reversed (by decide)).2.1, (reversed (by decide)).2.2,
    (far (by decide)).2.1, behind (by decide), grows 1 lastPosition (by decide)⟩

end SourceMap

end Rulebook
