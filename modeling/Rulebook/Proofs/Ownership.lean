/-
# Counted owners

Objects own parts, which are older objects, and a program keeps some objects for itself. Each
object counts its owners, and one that loses the last of them lets go of its parts, so that
they may lose their last owner in turn.

The counts are exact: the owners of an object are the places at which the program keeps it and
those at which it is a part of an object that is owned itself. Parts are older than what they
are parts of, so a search for owners comes to an end, and it ends with the program. Hence an
object is owned just as long as the program reaches it.
-/

import Mathlib.Algebra.BigOperators.Group.Finset.Basic
import Mathlib.Algebra.Order.BigOperators.Group.Finset

namespace Rulebook

/-- Numbered objects with their parts and the numbers of their owners. -/
structure Store where
  /-- The number of objects created so far; the next object has this number. -/
  size : Nat
  parts : Nat → List Nat
  owners : Nat → Nat

namespace Store

/-- Create an object with one owner, who hands over the parts. -/
def create (store : Store) (parts : List Nat) : Store where
  size := store.size + 1
  parts := Function.update store.parts store.size parts
  owners := Function.update store.owners store.size 1

/-- Set the number of owners of an object. -/
def setOwners (store : Store) (object count : Nat) : Store :=
  { store with owners := Function.update store.owners object count }

/-- One more owner of an object. -/
def share (store : Store) (object : Nat) : Store :=
  store.setOwners object (store.owners object + 1)

/-- One owner of an object less. If it was the last one, each part loses an owner. Objects are
let go of one inside the other, `depth` of them at most. -/
def release : (depth : Nat) → (store : Store) → (object : Nat) → Store
  | 0, store, _ => store
  | depth + 1, store, object =>
    if store.owners object = 1 then
      (store.parts object).foldl (release depth) (store.setOwners object 0)
    else store.setOwners object (store.owners object - 1)

/-- How often an object is a part of a holder, if the holder is owned itself. -/
def partsIn (store : Store) (object holder : Nat) : Nat :=
  if store.owners holder = 0 then 0 else (store.parts holder).count object

/-- The number of places at which an object is a part of objects that are owned. -/
def inside (store : Store) (object : Nat) : Nat :=
  ∑ holder ∈ Finset.range store.size, store.partsIn object holder

/-- The object is kept, or it is a part of an object that is reached. -/
inductive Reaches (store : Store) (kept : List Nat) : Nat → Prop
  | kept {object : Nat} (keeps : object ∈ kept) : Reaches store kept object
  | part {holder object : Nat} (reached : Reaches store kept holder)
      (contains : object ∈ store.parts holder) : Reaches store kept object

/-- Every count is the number of places at which the object is kept or a part of an object
that is owned, and parts are older than what they are parts of. -/
structure Balanced (store : Store) (kept : List Nat) : Prop where
  created : ∀ object ∈ kept, object < store.size
  older : ∀ holder, ∀ part ∈ store.parts holder, part < holder
  counted : ∀ object, store.owners object = kept.count object + store.inside object

variable {store : Store} {kept kept' parts : List Nat} {object : Nat}

/-! ## What a change of owners changes -/

@[simp]
theorem size_setOwners (count : Nat) : (store.setOwners object count).size = store.size := rfl

@[simp]
theorem parts_setOwners (count : Nat) : (store.setOwners object count).parts = store.parts := rfl

@[simp]
theorem owners_setOwners_self (count : Nat) :
    (store.setOwners object count).owners object = count :=
  Function.update_self ..

theorem owners_setOwners_of_ne {other count : Nat} (different : other ≠ object) :
    (store.setOwners object count).owners other = store.owners other :=
  Function.update_of_ne different ..

theorem owners_create_of_ne {other : Nat} (different : other ≠ store.size) :
    (store.create parts).owners other = store.owners other :=
  Function.update_of_ne different ..

theorem partsIn_setOwners_of_ne {holder count : Nat} (different : holder ≠ object) (part : Nat) :
    (store.setOwners object count).partsIn part holder = store.partsIn part holder := by
  rw [partsIn, partsIn, owners_setOwners_of_ne different, parts_setOwners]

/-- As long as an object is owned, it does not matter to its parts by how many. -/
theorem inside_setOwners {count : Nat} (owned : store.owners object ≠ 0) (still : count ≠ 0)
    (part : Nat) : (store.setOwners object count).inside part = store.inside part := by
  refine Finset.sum_congr rfl fun holder _ => ?_
  by_cases same : holder = object
  · subst same
    simp [partsIn, owned, still]
  · exact partsIn_setOwners_of_ne same part

/-- An object that is owned no more takes its parts out of the count. -/
theorem inside_setOwners_zero (within : object < store.size) (owned : store.owners object ≠ 0)
    (part : Nat) :
    (store.setOwners object 0).inside part + (store.parts object).count part =
      store.inside part := by
  have member : object ∈ Finset.range store.size := Finset.mem_range.mpr within
  have others : ∑ holder ∈ (Finset.range store.size).erase object,
        (store.setOwners object 0).partsIn part holder =
      ∑ holder ∈ (Finset.range store.size).erase object, store.partsIn part holder :=
    Finset.sum_congr rfl fun holder other =>
      partsIn_setOwners_of_ne (Finset.ne_of_mem_erase other) part
  have gone : (store.setOwners object 0).partsIn part object = 0 := by simp [partsIn]
  have had : store.partsIn part object = (store.parts object).count part := by
    simp [partsIn, owned]
  rw [inside, inside, size_setOwners, ← Finset.sum_erase_add _ _ member, others, gone,
    ← Finset.sum_erase_add _ _ member, had, Nat.add_zero]

/-! ## Balance is kept -/

/-- Nothing has an object as a part that was not created yet. -/
theorem inside_eq_zero (older : ∀ holder, ∀ part ∈ store.parts holder, part < holder)
    (absent : store.size ≤ object) : store.inside object = 0 := by
  refine Finset.sum_eq_zero fun holder created => ?_
  have missing : object ∉ store.parts holder := fun contains => by
    have := older holder object contains
    have := Finset.mem_range.mp created
    omega
  simp [partsIn, List.count_eq_zero.mpr missing]

namespace Balanced

theorem perm (balanced : store.Balanced kept) (same : kept.Perm kept') :
    store.Balanced kept' where
  created object keeps := balanced.created object (same.mem_iff.mpr keeps)
  older := balanced.older
  counted object := by rw [balanced.counted, same.count_eq]

theorem lt_size (balanced : store.Balanced kept) (owned : 0 < store.owners object) :
    object < store.size := by
  by_contra absent
  have keeps : object ∉ kept := fun keeps => absent (balanced.created object keeps)
  rw [balanced.counted, List.count_eq_zero.mpr keeps,
    inside_eq_zero balanced.older (Nat.not_lt.mp absent)] at owned
  exact Nat.lt_irrefl 0 owned

theorem owners_pos_of_mem (balanced : store.Balanced kept) (keeps : object ∈ kept) :
    0 < store.owners object := by
  rw [balanced.counted]
  exact Nat.add_pos_left (List.count_pos_iff.mpr keeps) _

/-- The parts of a new object were kept before, and the object is kept now. -/
theorem create (balanced : store.Balanced (parts ++ kept)) :
    (store.create parts).Balanced (store.size :: kept) := by
  have absent : store.owners store.size = 0 := by
    by_contra owned
    exact Nat.lt_irrefl _ (balanced.lt_size (Nat.pos_of_ne_zero owned))
  have older : ∀ holder, ∀ part ∈ (store.create parts).parts holder, part < holder := by
    intro holder part contains
    by_cases new : holder = store.size
    · subst new
      simp only [Store.create, Function.update_self] at contains
      exact balanced.created part (List.mem_append_left _ contains)
    · simp only [Store.create, Function.update_of_ne new] at contains
      exact balanced.older holder part contains
  have grown (part : Nat) :
      (store.create parts).inside part = store.inside part + parts.count part := by
    rw [inside, Store.create, Finset.sum_range_succ]
    congr 1
    · refine Finset.sum_congr rfl fun holder created => ?_
      have before : holder ≠ store.size := Nat.ne_of_lt (Finset.mem_range.mp created)
      simp [partsIn, Function.update_of_ne before]
    · simp [partsIn]
  refine ⟨fun object keeps => ?_, older, fun object => ?_⟩
  · rcases List.mem_cons.mp keeps with rfl | before
    · exact Nat.lt_succ_self _
    · exact Nat.lt_succ_of_lt (balanced.created object (List.mem_append_right _ before))
  · have counted := balanced.counted object
    rw [List.count_append] at counted
    rw [grown, List.count_cons]
    by_cases new : object = store.size
    · subst new
      simp only [Store.create, Function.update_self, beq_self_eq_true, if_true]
      omega
    · simp only [owners_create_of_ne new, beq_iff_eq, Ne.symm new, if_false]
      omega

/-- Another number of owners is right if it is the number of places for that object, and if all
other objects are at as many places as before. -/
theorem setOwners {count : Nat} (balanced : store.Balanced kept)
    (created : ∀ other ∈ kept', other < store.size)
    (self : count = kept'.count object + (store.setOwners object count).inside object)
    (others : ∀ other, other ≠ object →
      kept'.count other + (store.setOwners object count).inside other =
        kept.count other + store.inside other) :
    (store.setOwners object count).Balanced kept' where
  created := created
  older := balanced.older
  counted other := by
    by_cases same : other = object
    · subst same
      rwa [owners_setOwners_self]
    · rw [owners_setOwners_of_ne same, balanced.counted, others other same]

/-- An object that is kept may be kept once more. -/
theorem share (balanced : store.Balanced kept) (keeps : object ∈ kept) :
    (store.share object).Balanced (object :: kept) := by
  have owned := Nat.ne_of_gt (balanced.owners_pos_of_mem keeps)
  have inside := inside_setOwners owned (Nat.succ_ne_zero (store.owners object))
  refine balanced.setOwners
    (List.forall_mem_cons.mpr ⟨balanced.created object keeps, balanced.created⟩) ?_
    fun other different => ?_
  · rw [inside, List.count_cons_self, balanced.counted object]
    omega
  · rw [inside, List.count_cons_of_ne different.symm]

/-- An object that loses one of several owners stays as it is. -/
theorem release_shared (balanced : store.Balanced (object :: kept))
    (shared : store.owners object ≠ 1) :
    (store.setOwners object (store.owners object - 1)).Balanced kept := by
  have owned := balanced.owners_pos_of_mem List.mem_cons_self
  have still : store.owners object - 1 ≠ 0 := by omega
  have inside := inside_setOwners (Nat.ne_of_gt owned) still
  have counted := balanced.counted object
  rw [List.count_cons_self] at counted
  refine balanced.setOwners
    (fun other keeps => balanced.created other (List.mem_cons_of_mem _ keeps)) ?_
    fun other different => ?_
  · rw [inside]
    omega
  · rw [inside, List.count_cons_of_ne different.symm]

/-- What an object that loses its last owner had as parts is left to be let go of. -/
theorem release_last (balanced : store.Balanced (object :: kept))
    (last : store.owners object = 1) :
    (store.setOwners object 0).Balanced (store.parts object ++ kept) := by
  have created := balanced.created object List.mem_cons_self
  have owned : store.owners object ≠ 0 := by omega
  have counted := balanced.counted object
  rw [List.count_cons_self] at counted
  refine balanced.setOwners (List.forall_mem_append.mpr ⟨fun other part => ?_, fun other keeps =>
    balanced.created other (List.mem_cons_of_mem _ keeps)⟩) ?_ fun other different => ?_
  · exact Nat.lt_trans (balanced.older object other part) created
  · have taken := inside_setOwners_zero created owned object
    rw [List.count_append]
    omega
  · have taken := inside_setOwners_zero created owned other
    rw [List.count_append, List.count_cons_of_ne different.symm]
    omega

/-- Objects that are let go of are kept no more. The induction is on the depth, which exceeds
the number of the object and with it the numbers of all its parts. -/
theorem release {depth : Nat} (balanced : store.Balanced (object :: kept))
    (deep : object < depth) : (store.release depth object).Balanced kept := by
  induction depth generalizing store object kept with
  | zero => omega
  | succ depth ih =>
      have all {parts : List Nat} {store : Store} (below : ∀ part ∈ parts, part < depth)
          (remaining : store.Balanced (parts ++ kept)) :
          (parts.foldl (Store.release depth) store).Balanced kept := by
        induction parts generalizing store with
        | nil => exact remaining
        | cons part parts ihParts =>
            obtain ⟨first, later⟩ := List.forall_mem_cons.mp below
            exact ihParts later (ih remaining first)
      rw [Store.release]
      split
      · next last =>
          exact all (fun part contains => Nat.lt_of_lt_of_le (balanced.older object part contains)
            (Nat.le_of_lt_succ deep)) (balanced.release_last last)
      · next shared => exact balanced.release_shared shared

/-- An object is owned just as long as it is reached from what is kept. -/
theorem owners_pos_iff (balanced : store.Balanced kept) :
    0 < store.owners object ↔ store.Reaches kept object := by
  refine ⟨fun owned => ?_, fun reached => ?_⟩
  · -- The owners of a part are younger, so there is a last one, and that one is kept.
    induction h : store.size - object using Nat.strongRecOn generalizing object with
    | ind distance ih =>
        rw [balanced.counted, Nat.add_pos_iff_pos_or_pos] at owned
        rcases owned with keeps | contained
        · exact .kept (List.count_pos_iff.mp keeps)
        · obtain ⟨holder, created, contains⟩ :=
            Finset.exists_ne_zero_of_sum_ne_zero (Nat.ne_of_gt contained)
          have within := Finset.mem_range.mp created
          simp only [partsIn, ne_eq, ite_eq_left_iff, Classical.not_imp] at contains
          have part : object ∈ store.parts holder :=
            List.count_pos_iff.mp (Nat.pos_of_ne_zero contains.2)
          have younger := balanced.older holder object part
          exact .part (ih _ (by omega) (Nat.pos_of_ne_zero contains.1) rfl) part
  · induction reached with
    | kept keeps => exact balanced.owners_pos_of_mem keeps
    | @part holder object _ contains ih =>
        have member : holder ∈ Finset.range store.size :=
          Finset.mem_range.mpr (balanced.lt_size ih)
        have counts : 0 < store.partsIn object holder := by
          rw [partsIn, if_neg (Nat.ne_of_gt ih)]
          exact List.count_pos_iff.mpr contains
        have inside : store.partsIn object holder ≤ store.inside object :=
          Finset.single_le_sum (fun _ _ => Nat.zero_le _) member
        rw [balanced.counted]
        omega

end Balanced

/-! ## What sharing and letting go leave as it was -/

/-- Whatever holds, no matter how many owners are taken away, still holds when an object was
let go of. -/
theorem release_keeps (holds : Store → Prop)
    (fewer : ∀ store object count, count ≤ store.owners object → holds store →
      holds (store.setOwners object count))
    (depth : Nat) {store : Store} (object : Nat) (before : holds store) :
    holds (store.release depth object) := by
  induction depth generalizing store object with
  | zero => exact before
  | succ depth ih =>
      rw [release]
      split
      · exact List.foldlRecOn _ _ (fewer store object 0 (Nat.zero_le _) before)
          fun _ held part _ => ih part held
      · exact fewer store object _ (Nat.sub_le _ _) before

@[simp]
theorem size_release (depth : Nat) : (store.release depth object).size = store.size :=
  release_keeps (fun now => now.size = store.size) (fun _ _ _ _ same => same) depth
    object rfl

@[simp]
theorem parts_release (depth : Nat) : (store.release depth object).parts = store.parts :=
  release_keeps (fun now => now.parts = store.parts) (fun _ _ _ _ same => same) depth
    object rfl

/-- Letting go of an object adds no owners to any other. -/
theorem owners_release_le (depth : Nat) (other : Nat) :
    (store.release depth object).owners other ≤ store.owners other := by
  refine release_keeps (fun now => now.owners other ≤ store.owners other)
    (fun now object count less before => ?_) depth object (Nat.le_refl _)
  by_cases same : other = object
  · subst same
    rw [owners_setOwners_self]
    exact Nat.le_trans less before
  · rwa [owners_setOwners_of_ne same]

/-- Letting go of several objects does not matter to another one if letting go of each of them
does not. -/
theorem owners_foldl_release {objects : List Nat} {depth other : Nat}
    (each : ∀ (now : Store), now.parts = store.parts → ∀ object ∈ objects,
      (now.release depth object).owners other = now.owners other) :
    (objects.foldl (release depth) store).owners other = store.owners other := by
  have kept := List.foldlRecOn
    (motive := fun now => now.parts = store.parts ∧ now.owners other = store.owners other)
    objects (release depth) ⟨rfl, rfl⟩ fun now same object among =>
      ⟨(parts_release depth).trans same.1, (each now same.1 object among).trans same.2⟩
  exact kept.2

/-- Letting go of an object takes away owners of older objects only. -/
theorem owners_release_of_lt (older : ∀ holder, ∀ part ∈ store.parts holder, part < holder)
    {other : Nat} (younger : object < other) (depth : Nat) :
    (store.release depth object).owners other = store.owners other := by
  induction depth generalizing store object with
  | zero => rfl
  | succ depth ih =>
      rw [release]
      split
      · rw [owners_foldl_release, owners_setOwners_of_ne (Nat.ne_of_gt younger)]
        intro now same part contains
        exact ih (same ▸ older) (Nat.lt_trans (older object part contains) younger)
      · exact owners_setOwners_of_ne (Nat.ne_of_gt younger)

/-- The object itself has one owner less. -/
theorem owners_release_self (older : ∀ holder, ∀ part ∈ store.parts holder, part < holder)
    (depth : Nat) :
    (store.release (depth + 1) object).owners object = store.owners object - 1 := by
  rw [release]
  split
  · next last =>
      rw [owners_foldl_release, owners_setOwners_self, last]
      intro now same part contains
      exact owners_release_of_lt (same ▸ older) (older object part contains) depth
  · rw [owners_setOwners_self]

/-- Who becomes an owner of an object that is owned, and lets go of it at once, leaves
everything as it was. -/
theorem release_share (owned : store.owners object ≠ 0) (depth : Nat) :
    (store.share object).release (depth + 1) object = store := by
  have several : (store.share object).owners object ≠ 1 := by
    rw [share, owners_setOwners_self]
    omega
  rw [release, if_neg several]
  simp [share, setOwners]

end Store

end Rulebook
