/-
# Guards released in any order

A guard cuts the stack of labels down to the depth it remembers. If guards are released in
another order than last in, first out, this takes off labels whose guards are still live,
and labels that are entered later stand where those stood. What stays true is that every
label on the stack has a live guard of its own, the one that remembers the place of the
label as its depth, and that the labels stand in the order in which these guards were
handed out.
-/

import Rulebook.Context

namespace Rulebook

/-- A guard that was handed out for a label. Guards are numbered in the order in which they
are handed out. -/
structure Holder where
  number : Nat
  label : String
  guard : Guard
  deriving DecidableEq, Repr

/-- A stack of labels with its live guards, in the order in which they were handed out. -/
structure Custody where
  context : Context
  live : List Holder
  /-- The number of guards handed out so far; the next guard has this number. -/
  entered : Nat
  deriving DecidableEq, Repr

namespace Custody

/-- What is done with a stack and its guards. -/
inductive Operation
  | enter (label : String)
  /-- Release the guard with the number, if it is still live. -/
  | release (number : Nat)
  deriving DecidableEq, Repr

/-- No label was entered yet. -/
def new : Custody := ⟨∅, [], 0⟩

/-- Put a label on the stack and keep its guard. -/
def enter (custody : Custody) (label : String) : Custody :=
  let (guard, context) := custody.context.enter label
  ⟨context, custody.live ++ [⟨custody.entered, label, guard⟩], custody.entered + 1⟩

/-- Release a guard, whichever of the live ones it is. -/
def release (custody : Custody) (number : Nat) : Custody :=
  match custody.live.find? (·.number = number) with
  | none => custody
  | some holder =>
    { custody with
      context := custody.context.release holder.guard
      live := custody.live.filter (·.number ≠ number) }

def step (custody : Custody) : Operation → Custody
  | .enter label => custody.enter label
  | .release number => custody.release number

/-- Do the operations one after the other. -/
def run (custody : Custody) (operations : List Operation) : Custody :=
  operations.foldl step custody

/-- Every release is one of the guard that was handed out last among those live. -/
def ReleasesLast (custody : Custody) : List Operation → Prop
  | [] => True
  | .enter label :: later => (custody.enter label).ReleasesLast later
  | .release number :: later =>
    custody.live.getLast?.map Holder.number = some number ∧
      (custody.release number).ReleasesLast later

variable {custody : Custody} {holder : Holder} {owners : List Holder}

/-- Each label on the stack belongs to one of the owners, which remembers its place. -/
structure OwnedBy (context : Context) (owners : List Holder) : Prop where
  labels : owners.map Holder.label = context.path
  depths : owners.map (·.guard.depth) = List.range owners.length

theorem OwnedBy.length_eq {context : Context} (owned : OwnedBy context owners) :
    owners.length = context.depth := by
  rw [← Context.length_path, ← owned.labels, List.length_map]

/-- The next owner is the one whose label is entered. -/
theorem OwnedBy.enter {context : Context} (owned : OwnedBy context owners) (label : String)
    (number : Nat) :
    OwnedBy (context.enter label).2 (owners ++ [⟨number, label, (context.enter label).1⟩]) where
  labels := by simp [owned.labels]
  depths := by simp [owned.depths, List.range_succ, owned.length_eq]

/-- A guard that is released leaves the owners of the labels below its depth. -/
theorem OwnedBy.release {context : Context} (owned : OwnedBy context owners) (guard : Guard) :
    OwnedBy (context.release guard) (owners.take guard.depth) where
  labels := by rw [List.map_take, owned.labels, Context.path_release]
  depths := by rw [List.map_take, owned.depths, List.take_range, List.length_take]

theorem OwnedBy.depth_lt {context : Context} (owned : OwnedBy context owners)
    (owns : holder ∈ owners) : holder.guard.depth < owners.length :=
  List.mem_range.mp (owned.depths ▸ List.mem_map_of_mem owns)

/-- Every label has a live guard of its own, and live guards are told apart by their
numbers, which grow. -/
structure Accounted (custody : Custody) : Prop where
  ordered : custody.live.Pairwise (·.number < ·.number)
  numbered : ∀ holder ∈ custody.live, holder.number < custody.entered
  owned : ∃ owners : List Holder, owners.Sublist custody.live ∧
    OwnedBy custody.context owners

theorem accounted_new : new.Accounted where
  ordered := .nil
  numbered := by simp [new]
  owned := ⟨[], .slnil, rfl, rfl⟩

theorem Accounted.enter (accounted : custody.Accounted) (label : String) :
    (custody.enter label).Accounted where
  ordered := by
    refine List.pairwise_append.mpr ⟨accounted.ordered, List.pairwise_singleton _ _, ?_⟩
    intro holder live added new
    rw [List.mem_singleton.mp new]
    exact accounted.numbered holder live
  numbered := by
    intro holder live
    rcases List.mem_append.mp live with before | new
    · exact Nat.lt_succ_of_lt (accounted.numbered holder before)
    · rw [List.mem_singleton.mp new]
      exact Nat.lt_succ_self custody.entered
  owned := by
    obtain ⟨owners, live, owned⟩ := accounted.owned
    exact ⟨_, live.append (.refl _), owned.enter label custody.entered⟩

/-- A live guard is found by its number. -/
theorem Accounted.find?_number (accounted : custody.Accounted) (live : holder ∈ custody.live) :
    custody.live.find? (·.number = holder.number) = some holder := by
  obtain ⟨before, after, split⟩ := List.append_of_mem live
  have ordered := accounted.ordered
  rw [split, List.pairwise_append] at ordered
  rw [split, List.find?_append, List.find?_cons_of_pos (by simp)]
  have earlier : before.find? (·.number = holder.number) = none := by
    rw [List.find?_eq_none]
    intro other occurs
    have smaller := ordered.2.2 other occurs holder List.mem_cons_self
    simpa using Nat.ne_of_lt smaller
  rw [earlier, Option.none_or]

/-- Guards with the same number are the same. -/
theorem Accounted.number_ne_iff {other : Holder} (accounted : custody.Accounted)
    (live : holder ∈ custody.live) (liveOther : other ∈ custody.live) :
    other.number ≠ holder.number ↔ other ≠ holder := by
  refine not_congr ⟨fun same => ?_, congrArg Holder.number⟩
  have found := accounted.find?_number liveOther
  rw [same, accounted.find?_number live] at found
  exact (Option.some.inj found).symm

theorem Accounted.release_eq (accounted : custody.Accounted) (live : holder ∈ custody.live) :
    custody.release holder.number =
      { custody with
        context := custody.context.release holder.guard
        live := custody.live.filter (· ≠ holder) } := by
  have others : custody.live.filter (·.number ≠ holder.number) =
      custody.live.filter (· ≠ holder) :=
    List.filter_congr fun other liveOther => by
      simp only [accounted.number_ne_iff live liveOther]
  simp only [Custody.release, accounted.find?_number live, others]

/-- The owners that are left are live: the released guard is none of them, because it
remembers a greater depth than they do. -/
theorem Accounted.release (accounted : custody.Accounted) (number : Nat) :
    (custody.release number).Accounted := by
  cases found : custody.live.find? (·.number = number) with
  | none =>
      simp only [Custody.release, found]
      exact accounted
  | some holder =>
      have live : holder ∈ custody.live := List.mem_of_find?_eq_some found
      obtain rfl : holder.number = number := by simpa using List.find?_some found
      rw [accounted.release_eq live]
      refine ⟨accounted.ordered.filter _,
        fun other occurs => accounted.numbered other (List.mem_filter.mp occurs).1, ?_⟩
      obtain ⟨owners, alive, owned⟩ := accounted.owned
      have kept := owned.release holder.guard
      refine ⟨owners.take holder.guard.depth, ?_, kept⟩
      have others : ∀ owner ∈ owners.take holder.guard.depth, owner ≠ holder := by
        rintro owner owns rfl
        have below := kept.depth_lt owns
        rw [List.length_take] at below
        omega
      have selected : (owners.take holder.guard.depth).filter (· ≠ holder) =
          owners.take holder.guard.depth :=
        List.filter_eq_self.mpr fun owner owns => decide_eq_true (others owner owns)
      rw [← selected]
      exact ((List.take_sublist _ _).trans alive).filter _

theorem Accounted.run (accounted : custody.Accounted) (operations : List Operation) :
    (custody.run operations).Accounted := by
  induction operations generalizing custody with
  | nil => exact accounted
  | cons operation later ih =>
      cases operation with
      | enter label => exact ih (accounted.enter label)
      | release number => exact ih (accounted.release number)

/-- Of all live guards the last one was handed out last. -/
theorem Accounted.filter_last {others : List Holder} (accounted : custody.Accounted)
    (split : custody.live = others ++ [holder]) :
    custody.live.filter (· ≠ holder) = others := by
  have ordered := accounted.ordered
  rw [split, List.pairwise_append] at ordered
  have kept : others.filter (· ≠ holder) = others := by
    refine List.filter_eq_self.mpr fun other occurs => decide_eq_true ?_
    have smaller := ordered.2.2 other occurs holder (List.mem_singleton_self holder)
    exact fun same => Nat.ne_of_lt smaller (congrArg Holder.number same)
  rw [split, List.filter_append, kept]
  simp

/-- Where all live guards own a label, the last one remembers the place of the last label. -/
theorem OwnedBy.depth_last {context : Context} {others : List Holder}
    (owned : OwnedBy context (others ++ [holder])) : holder.guard.depth = others.length := by
  have depths := owned.depths
  rw [List.map_append, List.length_append, List.length_singleton, List.range_succ] at depths
  have last := List.append_inj_right' depths rfl
  simpa using last

/-- If the last guard is always released first, all live guards own their labels. -/
theorem ownedBy_run (accounted : custody.Accounted) (owned : OwnedBy custody.context custody.live)
    {operations : List Operation} (lastFirst : custody.ReleasesLast operations) :
    OwnedBy (custody.run operations).context (custody.run operations).live := by
  induction operations generalizing custody with
  | nil => exact owned
  | cons operation later ih =>
      cases operation with
      | enter label =>
          exact ih (accounted.enter label) (owned.enter label custody.entered) lastFirst
      | release number =>
          obtain ⟨last, lastFirst⟩ := lastFirst
          refine ih (accounted.release number) ?_ lastFirst
          obtain ⟨holder, newest, rfl⟩ := Option.map_eq_some_iff.mp last
          obtain ⟨others, split⟩ := List.getLast?_eq_some_iff.mp newest
          rw [step, accounted.release_eq (List.mem_of_getLast? newest),
            accounted.filter_last split]
          rw [split] at owned
          have kept := owned.release holder.guard
          rwa [owned.depth_last, List.take_left] at kept

/-- Guards may be released in any order. The live ones are listed as they were handed out.
Each label on the stack still belongs to a live guard of its own, which remembers its place,
and the labels stand in the order in which these guards were handed out. So they are some of
the labels of the live guards, in order, and not more than these. A release takes off labels
at the end only, none of them below the depth of the guard, and without live guards no label
is left. If the last guard is always released first, the labels are those of all live
guards. -/
theorem labels_belong_to_live_guards (operations : List Operation) :
    let custody := new.run operations
    custody.live.Pairwise (·.number < ·.number) ∧
    (∃ owners : List Holder, owners.Sublist custody.live ∧
      owners.Pairwise (·.number < ·.number) ∧
      owners.map Holder.label = custody.context.path ∧
      owners.map (·.guard.depth) = List.range custody.context.depth) ∧
    custody.context.path.Sublist (custody.live.map Holder.label) ∧
    custody.context.depth ≤ custody.live.length ∧
    (∀ holder ∈ custody.live,
      let after := custody.release holder.number
      after.live = custody.live.filter (· ≠ holder) ∧
      after.context.depth ≤ custody.context.depth ∧
      ∀ index < holder.guard.depth,
        after.context.path[index]? = custody.context.path[index]?) ∧
    (custody.live = [] → custody.context = ∅) ∧
    (new.ReleasesLast operations →
      custody.context.path = custody.live.map Holder.label) := by
  intro custody
  have accounted : custody.Accounted := accounted_new.run operations
  obtain ⟨owners, live, owned⟩ := accounted.owned
  have shown : custody.context.path.Sublist (custody.live.map Holder.label) :=
    owned.labels ▸ live.map Holder.label
  refine ⟨accounted.ordered, ⟨owners, live, accounted.ordered.sublist live, owned.labels,
    owned.length_eq ▸ owned.depths⟩, shown, ?_, ?_, ?_, ?_⟩
  · rw [← Context.length_path]
    exact Nat.le_trans shown.length_le (Nat.le_of_eq (List.length_map _))
  · intro holder alive after
    have released : after = _ := accounted.release_eq alive
    refine ⟨by rw [released], ?_, fun index below => ?_⟩
    · rw [released, ← Context.length_path, ← Context.length_path, Context.path_release]
      exact List.length_take_le' _ _
    · rw [released, Context.path_release, List.getElem?_take_of_lt below]
  · intro none
    rw [none, List.map_nil, List.sublist_nil] at shown
    exact Context.path_injective shown
  · intro lastFirst
    exact (ownedBy_run accounted_new ⟨rfl, rfl⟩ lastFirst).labels.symm

/-- The guard of `b` is released before that of `c`, which takes both labels off the stack.
The guard of `c` is still live when `d` stands where `b` stood, and it does not take `d`
off. -/
theorem crossedGuards_belong :
    let crossed := [.enter "a", .enter "b", .enter "c", .release 1, .enter "d"]
    let held : Holder := ⟨2, "c", ⟨2⟩⟩
    let nested := [.enter "a", .enter "b", .release 1, .enter "c"]
    (new.run crossed).context.path = ["a", "d"] ∧ held ∈ (new.run crossed).live ∧
      (new.run crossed).context.path.Sublist ["a", "c", "d"] ∧
      ((new.run crossed).release 2).context.path[1]? = some "d" ∧
      (new.run (crossed ++ [.release 0, .release 3, .release 2])).live = [] ∧
      (new.run (crossed ++ [.release 0, .release 3, .release 2])).context = ∅ ∧
      new.ReleasesLast nested ∧ (new.run nested).context.path = ["a", "c"] := by
  intro crossed held nested
  have live : held ∈ (new.run crossed).live := by decide
  have none : (new.run (crossed ++ [.release 0, .release 3, .release 2])).live = [] := by decide
  have lastFirst : new.ReleasesLast nested := ⟨rfl, trivial⟩
  obtain ⟨_, _, shown, _, kept, _⟩ := labels_belong_to_live_guards crossed
  obtain ⟨_, _, _, _, _, emptied, _⟩ :=
    labels_belong_to_live_guards (crossed ++ [.release 0, .release 3, .release 2])
  obtain ⟨_, _, _, _, _, _, all⟩ := labels_belong_to_live_guards nested
  exact ⟨rfl, live, shown, (kept held live).2.2 1 (by decide), none, emptied none, lastFirst,
    all lastFirst⟩

end Custody

end Rulebook
