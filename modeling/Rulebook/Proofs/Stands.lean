/-
# What stands in a source

A list of elements stands in a source between two positions if the source falls into
three parts there, with the list in the middle. Lists that stand one behind the other
stand there together, and a list with elements in it is read element by element.
-/

import Rulebook.Position

namespace Rulebook

variable {ε : Type} {source : Array ε} {start stop : Nat} {elements more : List ε}

/-- The elements stand in the source between two positions. -/
def Stands (source : Array ε) (elements : List ε) (start stop : Nat) : Prop :=
  ∃ before after, source.toList = before ++ elements ++ after ∧ before.length = start ∧
    (before ++ elements).length = stop

theorem span?_eq_some_iff_stands :
    span? source start stop = some elements.toArray ↔ Stands source elements start stop := by
  rw [span?_eq_some_iff]
  refine ⟨fun holds => ?_, fun holds => ?_⟩
  · obtain ⟨⟨ordered, inside⟩, found⟩ := holds
    have taken : (source.toList.take stop).drop start = elements := by
      simpa [List.drop_take] using congrArg Array.toList found
    have upTo : source.toList.take start ++ elements = source.toList.take stop := by
      have pieces := List.take_append_drop start (source.toList.take stop)
      rwa [List.take_take, Nat.min_eq_left ordered, taken] at pieces
    refine ⟨source.toList.take start, source.toList.drop stop, ?_, ?_, ?_⟩
    · rw [upTo, List.take_append_drop]
    · rw [List.length_take, Array.length_toList, Nat.min_eq_left (by omega)]
    · rw [upTo, List.length_take, Array.length_toList, Nat.min_eq_left inside]
  · obtain ⟨before, after, split, rfl, rfl⟩ := holds
    have size : source.size = (before ++ elements ++ after).length := by
      rw [← split, Array.length_toList]
    refine ⟨⟨by simp, by simp [size]⟩, ?_⟩
    apply Array.toList_inj.mp
    simp [split]

theorem Stands.bounds (stands : Stands source elements start stop) :
    start ≤ stop ∧ stop ≤ source.size := by
  obtain ⟨before, after, split, rfl, rfl⟩ := stands
  rw [← Array.length_toList, split]
  simp

theorem stands_nil_iff :
    Stands source [] start stop ↔ stop = start ∧ start ≤ source.size := by
  refine ⟨fun holds => ?_, fun holds => ?_⟩
  · obtain ⟨before, after, split, rfl, rfl⟩ := holds
    have size : source.size = (before ++ [] ++ after).length := by
      rw [← split, Array.length_toList]
    simp [size]
  · obtain ⟨rfl, inside⟩ := holds
    refine ⟨source.toList.take stop, source.toList.drop stop, ?_, ?_, ?_⟩
    · rw [List.append_nil, List.take_append_drop]
    · rw [List.length_take, Array.length_toList, Nat.min_eq_left inside]
    · rw [List.append_nil, List.length_take, Array.length_toList, Nat.min_eq_left inside]

theorem stands_append_iff :
    Stands source (elements ++ more) start stop ↔
      ∃ middle, Stands source elements start middle ∧ Stands source more middle stop := by
  refine ⟨fun holds => ?_, fun holds => ?_⟩
  · obtain ⟨before, after, split, rfl, rfl⟩ := holds
    refine ⟨(before ++ elements).length, ?_, ?_⟩
    · exact ⟨before, more ++ after, by rw [split]; simp, rfl, rfl⟩
    · exact ⟨before ++ elements, after, by rw [split]; simp, rfl, by simp⟩
  · obtain ⟨middle, ⟨before, after, split, rfl, reaches⟩,
      ⟨before', after', split', rfl, rfl⟩⟩ := holds
    -- Both parts split the same source, and the first ends where the second begins.
    obtain ⟨rfl, -⟩ := List.append_inj
      (split.symm.trans (split'.trans (List.append_assoc before' more after'))) reaches
    exact ⟨before, after', by rw [split']; simp, rfl, by simp⟩

theorem stands_singleton_iff {element : ε} :
    Stands source [element] start stop ↔
      source[start]? = some element ∧ stop = start + 1 := by
  refine ⟨fun holds => ?_, fun holds => ?_⟩
  · obtain ⟨before, after, split, rfl, rfl⟩ := holds
    rw [← Array.getElem?_toList, split]
    simp
  · obtain ⟨found, rfl⟩ := holds
    obtain ⟨inside, rfl⟩ := Array.getElem?_eq_some_iff.mp found
    have upTo : source.toList.take start ++ [source[start]] =
        source.toList.take (start + 1) := by
      rw [List.take_succ_eq_append_getElem (by simpa), Array.getElem_toList]
    refine ⟨source.toList.take start, source.toList.drop (start + 1), ?_, ?_, ?_⟩
    · rw [upTo, List.take_append_drop]
    · rw [List.length_take, Array.length_toList, Nat.min_eq_left (by omega)]
    · rw [upTo, List.length_take, Array.length_toList, Nat.min_eq_left inside]

/-- The first element is read, and the others stand behind it. -/
theorem stands_cons_iff {element : ε} :
    Stands source (element :: elements) start stop ↔
      source[start]? = some element ∧ Stands source elements (start + 1) stop := by
  rw [← List.singleton_append, stands_append_iff]
  simp only [stands_singleton_iff]
  refine ⟨fun holds => ?_, fun holds => ?_⟩
  · obtain ⟨_, ⟨found, rfl⟩, rest⟩ := holds
    exact ⟨found, rest⟩
  · exact ⟨start + 1, ⟨holds.1, rfl⟩, holds.2⟩

/-- Of two lists that stand at the same position one is the start of the other. -/
theorem Stands.prefix_or_prefix {stop' : Nat} (stands : Stands source elements start stop)
    (stands' : Stands source more start stop') : elements <+: more ∨ more <+: elements := by
  obtain ⟨before, after, split, reaches, -⟩ := stands
  obtain ⟨before', after', split', reaches', -⟩ := stands'
  have rest : elements ++ after = more ++ after' := by
    have same := split.symm.trans split'
    rw [List.append_assoc, List.append_assoc] at same
    exact (List.append_inj same (reaches.trans reaches'.symm)).2
  exact List.prefix_or_prefix_of_prefix ⟨after, rfl⟩ ⟨after', rest.symm⟩

end Rulebook
