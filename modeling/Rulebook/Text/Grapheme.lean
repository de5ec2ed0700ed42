/-
# Grapheme clusters

A text is split into what a reader sees as its characters. A letter with its
accents, a flag, an emoji with its modifiers, or a carriage return with a line
feed is one element, which is matched as a whole or not at all.

No cluster is empty, and the clusters of a text put together are the text.
-/

import Rulebook.Text.Boundary

namespace Rulebook

/-- What a reader sees as one character. -/
abbrev Grapheme := String

namespace Text

/-- A text in the course of being split. -/
structure Segmentation where
  /-- The clusters that are complete. -/
  complete : Array Grapheme
  /-- The cluster that the next character may still belong to. -/
  current : Grapheme
  state : BreakState

namespace Segmentation

/-- Start with the first character of a text. -/
def start (first : Char) : Segmentation :=
  ⟨#[], String.singleton first, .start (.of first)⟩

/-- Take in a character of the class `found`. -/
def addAs (segmentation : Segmentation) (found : BreakClass) (c : Char) :
    Segmentation :=
  if segmentation.state.breaksBefore found then
    { complete := segmentation.complete.push segmentation.current
      current := String.singleton c
      state := segmentation.state.next found }
  else
    { segmentation with
      current := segmentation.current.push c
      state := segmentation.state.next found }

/-- Take in one more character. -/
def add (segmentation : Segmentation) (c : Char) : Segmentation :=
  segmentation.addAs (.of c) c

/-- The clusters, the last one included. -/
def clusters (segmentation : Segmentation) : Array Grapheme :=
  segmentation.complete.push segmentation.current

/-- The characters taken in so far. -/
def text (segmentation : Segmentation) : List Char :=
  (String.join segmentation.clusters.toList).toList

/-- No cluster is empty. -/
def Solid (segmentation : Segmentation) : Prop :=
  ∀ cluster ∈ segmentation.clusters, cluster ≠ ""

theorem text_start (first : Char) : (start first).text = [first] := by
  simp [text, clusters, start]

theorem text_add (segmentation : Segmentation) (c : Char) :
    (segmentation.add c).text = segmentation.text ++ [c] := by
  unfold add addAs
  split <;> simp [text, clusters]

theorem solid_start (first : Char) : (start first).Solid := by
  simp [Solid, clusters, start]

theorem Solid.add {segmentation : Segmentation} (solid : segmentation.Solid)
    (c : Char) : (segmentation.add c).Solid := by
  intro cluster present
  unfold Segmentation.add addAs at present
  split at present
  · rcases Array.mem_push.mp present with earlier | rfl
    · exact solid cluster earlier
    · simp
  · rcases Array.mem_push.mp present with earlier | rfl
    · exact solid cluster (Array.mem_push_of_mem _ earlier)
    · simp

theorem text_foldl_add (rest : List Char) (segmentation : Segmentation) :
    (rest.foldl add segmentation).text = segmentation.text ++ rest := by
  induction rest generalizing segmentation with
  | nil => simp
  | cons c rest ih => simp [ih, text_add]

theorem Solid.foldl_add {segmentation : Segmentation}
    (solid : segmentation.Solid) (rest : List Char) :
    (rest.foldl Segmentation.add segmentation).Solid := by
  induction rest generalizing segmentation with
  | nil => exact solid
  | cons c rest ih => exact ih (solid.add c)

end Segmentation

/-- The grapheme clusters of a text, in order. -/
def graphemes (text : String) : Array Grapheme :=
  match text.toList with
  | [] => #[]
  | first :: rest =>
    (rest.foldl Segmentation.add (.start first)).clusters

/-- The text that clusters make up. -/
def concat (clusters : Array Grapheme) : String :=
  String.join clusters.toList

/-- The clusters of a text put together are the text. -/
@[simp]
theorem concat_graphemes (text : String) : concat (graphemes text) = text := by
  apply String.toList_injective
  unfold graphemes concat
  split
  · next nothing => simp [nothing]
  · next first rest found =>
    have taken :=
      Segmentation.text_foldl_add rest (Segmentation.start first)
    rw [Segmentation.text_start] at taken
    simpa [Segmentation.text, found] using taken

/-- No cluster of a text is empty. -/
theorem ne_empty_of_mem_graphemes {text : String} {cluster : Grapheme}
    (present : cluster ∈ graphemes text) : cluster ≠ "" := by
  unfold graphemes at present
  split at present
  · simp at present
  · exact (Segmentation.solid_start _).foldl_add _ cluster present

end Text

end Rulebook
