/-
# The deepest failures

The filtered view of a rejection keeps the failures at the greatest position, once each,
in the order of first occurrence. It can be taken piece by piece: of two collections it
depends on nothing but the filtered view of each, and a label can be put in front before
or after. A collection that was filtered already stays as it is.
-/

import Mathlib.Order.Lattice
import Mathlib.Order.Nat
import Mathlib.Data.Finset.Insert
import Mathlib.Data.List.Basic
import Rulebook.Failures

namespace Rulebook

namespace Failures

variable {failure : Failure} {failures left right : Failures} {bound : Nat}

/-! ## The greatest position -/

theorem foldl_max_le_iff {others : List Failure} {start : Nat} :
    others.foldl (fun found failure => max found failure.position) start ≤ bound ↔
      start ≤ bound ∧ ∀ failure ∈ others, failure.position ≤ bound := by
  induction others generalizing start with
  | nil => simp
  | cons failure others ih => simp [ih, and_assoc]

/-- The furthest position is the least one that no failure lies behind. -/
theorem furthest_le_iff :
    failures.furthest ≤ bound ↔ ∀ failure ∈ failures.toList, failure.position ≤ bound := by
  rw [furthest, foldl_max_le_iff, toList, List.forall_mem_cons]

theorem position_le_furthest (occurs : failure ∈ failures.toList) :
    failure.position ≤ failures.furthest :=
  furthest_le_iff.mp (Nat.le_refl _) failure occurs

theorem exists_position_eq_furthest (failures : Failures) :
    ∃ failure ∈ failures.toList, failure.position = failures.furthest := by
  by_contra nowhere
  have before (failure : Failure) (occurs : failure ∈ failures.toList) :
      failure.position < failures.furthest :=
    lt_of_le_of_ne (position_le_furthest occurs)
      fun same => nowhere ⟨failure, occurs, same⟩
  have first := before failures.first List.mem_cons_self
  have smaller : failures.furthest ≤ failures.furthest - 1 :=
    furthest_le_iff.mpr fun failure occurs => Nat.le_sub_one_of_lt (before failure occurs)
  omega

/-- Collections with the same members reach equally far. -/
theorem furthest_congr (same : ∀ failure, failure ∈ left.toList ↔ failure ∈ right.toList) :
    left.furthest = right.furthest :=
  eq_of_forall_ge_iff fun bound => by simp only [furthest_le_iff, same]

theorem furthest_append (left right : Failures) :
    (left ++ right).furthest = max left.furthest right.furthest :=
  eq_of_forall_ge_iff fun bound => by
    simp only [Nat.max_le, furthest_le_iff, toList_append, List.forall_mem_append]

theorem furthest_withPath (label : String) (failures : Failures) :
    (failures.withPath label).furthest = failures.furthest :=
  eq_of_forall_ge_iff fun bound => by
    simp only [furthest_le_iff, toList_withPath, List.forall_mem_map,
      Failure.position_withPath]

/-! ## Members once each -/

@[simp]
theorem mem_distinct {members : List Failure} :
    failure ∈ distinct members ↔ failure ∈ members := by
  induction members with
  | nil => rfl
  | cons first rest ih =>
      simp only [distinct, List.mem_cons, List.mem_filter, ih, decide_eq_true_eq]
      by_cases same : failure = first <;> simp [same]

/-- Whether members are selected before or after their repetitions are dropped does not
matter. -/
theorem distinct_filter (keeps : Failure → Bool) (members : List Failure) :
    distinct (members.filter keeps) = (distinct members).filter keeps := by
  induction members with
  | nil => rfl
  | cons first rest ih =>
      rw [List.filter_cons, distinct, List.filter_cons, List.filter_comm, ← ih]
      by_cases kept : keeps first
      · rw [if_pos kept, if_pos kept, distinct]
      · rw [if_neg kept, if_neg kept]
        -- A member that is not selected need not be taken out of the selected ones.
        refine (List.filter_eq_self.mpr fun failure occurs => ?_).symm
        rw [mem_distinct, List.mem_filter] at occurs
        have other : failure ≠ first := fun same => kept (same ▸ occurs.2)
        exact decide_eq_true other

theorem distinct_append (members others : List Failure) :
    distinct (members ++ others) =
      distinct members ++ (distinct others).filter (· ∉ members) := by
  induction members with
  | nil => simp [distinct]
  | cons first rest ih =>
      rw [List.cons_append, distinct, ih, List.filter_append, List.filter_filter, distinct,
        List.cons_append]
      congr 2
      refine List.filter_congr fun failure _ => ?_
      simp [not_or, Bool.decide_and]

theorem distinct_distinct (members : List Failure) :
    distinct (distinct members) = distinct members := by
  induction members with
  | nil => rfl
  | cons first rest ih =>
      rw [distinct, distinct, distinct_filter, ih, List.filter_filter]
      simp only [Bool.and_self]

theorem distinct_append_distinct (members others : List Failure) :
    distinct (distinct members ++ distinct others) = distinct (members ++ others) := by
  simp only [distinct_append, distinct_distinct, mem_distinct]

/-- Only new members count in what follows. -/
theorem distinct_append_of_subset {members others : List Failure}
    (known : ∀ failure ∈ others, failure ∈ members) :
    distinct (members ++ others) = distinct members := by
  rw [distinct_append, List.filter_eq_nil_iff.mpr, List.append_nil]
  intro failure occurs
  simp [known failure (mem_distinct.mp occurs)]

theorem distinct_map {f : Failure → Failure} (injective : Function.Injective f)
    (members : List Failure) : distinct (members.map f) = (distinct members).map f := by
  induction members with
  | nil => rfl
  | cons first rest ih =>
      rw [List.map_cons, distinct, distinct, List.map_cons, ih, List.filter_map]
      congr 2
      refine List.filter_congr fun failure _ => ?_
      simp [injective.eq_iff]

/-- The members that are left stand in the order of their first occurrences. -/
theorem distinct_in_order (members : List Failure) :
    (distinct members).Pairwise fun earlier later =>
      members.idxOf earlier < members.idxOf later := by
  induction members with
  | nil => exact .nil
  | cons first rest ih =>
      have behind {failure : Failure} (kept : failure ∈ (distinct rest).filter (· ≠ first)) :
          (first :: rest).idxOf failure = rest.idxOf failure + 1 := by
        have other : failure ≠ first := of_decide_eq_true (List.mem_filter.mp kept).2
        exact List.idxOf_cons_ne rest other.symm
      refine List.pairwise_cons.mpr ⟨fun failure kept => ?_, ?_⟩
      · rw [behind kept, List.idxOf_cons_self]
        exact Nat.succ_pos _
      · refine (ih.sublist List.filter_sublist).imp_of_mem fun kept kept' before => ?_
        rw [behind kept, behind kept']
        exact Nat.succ_lt_succ before

theorem nodup_distinct (members : List Failure) : (distinct members).Nodup :=
  (distinct_in_order members).imp fun before => ne_of_apply_ne members.idxOf before.ne

/-- One pass over a list that keeps what has not been seen before. -/
def firstSightings (seen : Finset Failure) : List Failure → List Failure
  | [] => []
  | failure :: rest =>
    if failure ∈ seen then firstSightings seen rest
    else failure :: firstSightings (insert failure seen) rest

/-- The pass leaves out the repetitions and what was seen at the start. -/
theorem firstSightings_eq_filter (seen : Finset Failure) (members : List Failure) :
    firstSightings seen members = (distinct members).filter (· ∉ seen) := by
  induction members generalizing seen with
  | nil => rfl
  | cons first rest ih =>
      rw [firstSightings, distinct, List.filter_cons, List.filter_filter]
      by_cases known : first ∈ seen
      · rw [if_pos known, if_neg (by simp [known]), ih]
        refine List.filter_congr fun failure _ => ?_
        by_cases same : failure = first <;> simp [same, known]
      · rw [if_neg known, if_pos (by simp [known]), ih]
        congr 1
        refine List.filter_congr fun failure _ => ?_
        simp [not_or, Bool.and_comm]

/-! ## The filtered view -/

theorem mem_filtered_iff :
    failure ∈ failures.filtered ↔
      failure ∈ failures.toList ∧ failure.position = failures.furthest := by
  rw [filtered, mem_distinct, deepest, List.mem_filter, decide_eq_true_eq]

theorem filtered_ne_nil (failures : Failures) : failures.filtered ≠ [] := by
  obtain ⟨failure, occurs, deepest⟩ := failures.exists_position_eq_furthest
  exact List.ne_nil_of_mem (mem_filtered_iff.mpr ⟨occurs, deepest⟩)

/-- It does not matter whether the repetitions are dropped before the deepest members are
selected. -/
theorem filtered_eq_filter (failures : Failures) :
    failures.filtered =
      (distinct failures.toList).filter (·.position = failures.furthest) :=
  distinct_filter _ _

theorem filtered_in_order (failures : Failures) :
    failures.filtered.Pairwise fun earlier later =>
      failures.toList.idxOf earlier < failures.toList.idxOf later := by
  rw [filtered_eq_filter]
  exact (distinct_in_order failures.toList).sublist List.filter_sublist

/-- The filtered view is what a single pass finds. -/
theorem filtered_eq_firstSightings (failures : Failures) :
    failures.filtered = firstSightings ∅ failures.deepest := by
  rw [firstSightings_eq_filter, filtered]
  exact (List.filter_eq_self.mpr fun failure _ => by simp).symm

/-- The members at a position, once each. -/
def distinctAt (position : Nat) (members : List Failure) : List Failure :=
  distinct (members.filter (·.position = position))

theorem distinctAt_append (position : Nat) (members others : List Failure) :
    distinctAt position (members ++ others) =
      distinct (distinctAt position members ++ distinctAt position others) := by
  rw [distinctAt, List.filter_append, distinctAt, distinctAt, distinct_append_distinct]

/-- The filtered view of a list whose greatest position is known. -/
theorem map_filtered_ofList? {members : List Failure} {position : Nat}
    (occurs : ∃ failure ∈ members, failure.position = position)
    (within : ∀ failure ∈ members, failure.position ≤ position) :
    (ofList? members).map filtered = some (distinctAt position members) := by
  obtain ⟨failure, present, deepest⟩ := occurs
  cases listed : ofList? members with
  | none =>
      rw [ofList?_eq_none_iff.mp listed] at present
      cases present
  | some failures =>
      have listing := toList_of_ofList? listed
      have furthest : failures.furthest = position := by
        refine Nat.le_antisymm (furthest_le_iff.mpr (listing ▸ within)) ?_
        rw [← deepest]
        exact position_le_furthest (listing ▸ present)
      rw [Option.map_some, filtered, Failures.deepest, furthest, listing, distinctAt]

/-- Nothing at the furthest position or behind it is lost in the filtered view. -/
theorem distinctAt_filtered {position : Nat} (behind : failures.furthest ≤ position) :
    distinctAt position failures.filtered = distinctAt position failures.toList := by
  rw [distinctAt, filtered, ← distinct_filter, deepest, List.filter_filter,
    distinct_distinct, distinctAt]
  congr 1
  refine List.filter_congr fun failure occurs => ?_
  have within := position_le_furthest occurs
  have deepest : failure.position = position → failure.position = failures.furthest := by
    omega
  simpa using deepest

/-- The filtered view of collections one after the other is that of their filtered
views. -/
theorem filtered_of_parts (parts : List Failures) (whole : Failures)
    (joined : whole.toList = parts.flatMap toList) :
    (ofList? (parts.flatMap filtered)).map filtered = some whole.filtered := by
  have reach (part : Failures) (present : part ∈ parts) : part.furthest ≤ whole.furthest :=
    furthest_le_iff.mpr fun failure occurs => position_le_furthest
      (joined ▸ List.mem_flatMap_of_mem present occurs)
  have occurs : ∃ failure ∈ parts.flatMap filtered, failure.position = whole.furthest := by
    obtain ⟨failure, occurs, deepest⟩ := whole.exists_position_eq_furthest
    rw [joined] at occurs
    obtain ⟨part, present, occurs⟩ := List.mem_flatMap.mp occurs
    have deepestThere : failure.position = part.furthest :=
      Nat.le_antisymm (position_le_furthest occurs) (deepest ▸ reach part present)
    exact ⟨failure,
      List.mem_flatMap_of_mem present (mem_filtered_iff.mpr ⟨occurs, deepestThere⟩), deepest⟩
  have within (failure : Failure) (occurs : failure ∈ parts.flatMap filtered) :
      failure.position ≤ whole.furthest := by
    obtain ⟨part, present, occurs⟩ := List.mem_flatMap.mp occurs
    exact (mem_filtered_iff.mp occurs).2 ▸ reach part present
  rw [map_filtered_ofList? occurs within, filtered, deepest, joined]
  clear occurs within joined
  refine congrArg some ?_
  show distinctAt whole.furthest _ = distinctAt whole.furthest _
  induction parts with
  | nil => rfl
  | cons part parts ih =>
      rw [List.forall_mem_cons] at reach
      rw [List.flatMap_cons, List.flatMap_cons, distinctAt_append, distinctAt_append,
        distinctAt_filtered reach.1, ih reach.2]

/-- The filtered view of two collections together is that of their filtered views. -/
theorem filtered_append (left right : Failures) :
    (ofList? (left.filtered ++ right.filtered)).map filtered =
      some (left ++ right).filtered := by
  have parts := filtered_of_parts [left, right] (left ++ right) (by simp)
  simpa using parts

/-- What was filtered stays as it is. -/
theorem filtered_filtered (failures : Failures) :
    (ofList? failures.filtered).map filtered = some failures.filtered := by
  have parts := filtered_of_parts [failures] failures (by simp)
  simpa using parts

/-- A label can be put in front before or after. -/
theorem filtered_withPath (label : String) (failures : Failures) :
    (failures.withPath label).filtered = failures.filtered.map (·.withPath label) := by
  have injective : Function.Injective (Failure.withPath label) :=
    fun _ _ => Failure.withPath_injective
  rw [filtered, deepest, furthest_withPath, toList_withPath, List.filter_map,
    distinct_map injective]
  rfl

/-- Failures that are repeated behind a collection do not change its filtered view. -/
theorem filtered_of_repeated {whole : Failures} {more : List Failure}
    (joined : whole.toList = failures.toList ++ more)
    (known : ∀ failure ∈ more, failure ∈ failures.toList) :
    whole.filtered = failures.filtered := by
  have furthest : whole.furthest = failures.furthest := furthest_congr fun failure => by
    rw [joined, List.mem_append]
    exact or_iff_left_of_imp (known failure)
  rw [filtered, deepest, furthest, joined, List.filter_append, distinct_append_of_subset]
  · rfl
  · intro failure occurs
    rw [List.mem_filter] at occurs ⊢
    exact ⟨known failure occurs.1, occurs.2⟩

end Failures

end Rulebook
