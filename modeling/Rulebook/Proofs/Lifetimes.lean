/-
# Handles and references

A recursive rule is made in two parts. There is a slot for its body, which is filled once, when
the definition is finished, and there is the rule that is returned then, which owns the slot.
The program keeps that rule, clones it, builds it into other rules and lets go of it again.
Wherever it is kept or built in, there is a handle. The reference that the definition was given
is no handle: it looks for the slot whenever it is followed.

So what a reference does depends on the owners of the slot, and these are counted one object at
a time: clones of a rule that was built from a handle share this one handle, which goes with the
last of them. The main statement is that in whatever order all this happens, the reference
follows the handles exactly. It is refused until the definition is finished, it comes to what
the rule comes to as long as there is a handle, and from then on it is refused for good.
-/

import Rulebook.Proofs.Ownership
import Rulebook.Proofs.Unrolling
import Rulebook.Rule.Lifetime

namespace Rulebook

variable {N : Nonterminals} {ε : Type} {Γ : List Type} {α β : Type}

/-! ## What a reference does -/

/-- Rules that mention the reference to the slot come to what they come to with the other rule
in place of the reference. -/
def Slot.Means (slot : Slot N ε Γ α) (meaning : Rule N ε Γ α) : Prop :=
  ∀ ⦃β : Type⦄ (rule : Rule N ε (α :: Γ) β) (setting : Setting N ε Γ) (position : Nat)
    (outcome : Outcome β),
    rule.Yields ⟨setting.input, .cons slot 0 setting.env, setting.context⟩ position outcome ↔
      (rule.instantiate meaning).Yields setting position outcome

/-- The reference to the slot is refused at once wherever it is followed, and with it whatever
was built around it. -/
structure Slot.Refuses (slot : Slot N ε Γ α) (message : String) : Prop where
  reference : ∀ (input : Input N ε) (env : Env N ε Γ) (outer frame steps position : Nat)
    (session : Session),
    Rule.apply input (steps + 1) (.reference .here) (.cons slot outer env) frame session
      position = .ok (.reject message position, session)
  embedded : slot.Means (.reject message)

/-- The reference to the slot goes on as the other rule, and with it whatever was built around
it. -/
structure Slot.Follows (slot : Slot N ε Γ α) (rule : Rule N ε Γ α) : Prop where
  reference : ∀ (input : Input N ε) (env : Env N ε Γ) (outer frame steps : Nat),
    Rule.apply input (steps + 1) (.reference .here) (.cons slot outer env) frame =
      Rule.apply input steps rule env outer
  embedded : slot.Means rule

namespace Slot

open Rule

variable {slot : Slot N ε Γ α} {meaning : Rule N ε Γ α}

/-- It is enough that the reference and the other rule settle to each other, be it that one of
them needs more steps. -/
theorem means_of_settles (more extra : Nat)
    (settles : ∀ input env steps frame frame',
      (apply input steps (.reference .here) (.cons slot 0 env) frame).Settles
        (apply input (more + steps) meaning env frame'))
    (settled : ∀ input env steps frame frame', (apply input steps meaning env frame).Settles
      (apply input (extra + steps) (.reference .here) (.cons slot 0 env) frame')) :
    slot.Means meaning := by
  intro β rule setting position outcome
  exact ⟨.of_settles more fun steps => settles_instantiate more (settles _ _) rule steps 0 0,
    .of_settles extra fun steps => instantiate_settles extra (settled _ _) rule steps 0 0⟩

/-- A reference that rejects everywhere is no better than a rule that does. -/
theorem refuses_of_apply {message : String}
    (refused : ∀ (input : Input N ε) env outer frame steps,
      apply input (steps + 1) (.reference .here) (.cons slot outer env) frame =
        .refuse message) : slot.Refuses message := by
  have same (input : Input N ε) env steps frame :
      apply input steps (.reference .here) (.cons slot 0 env) frame =
        apply input steps (reject message) env frame := by
    cases steps with
    | zero => rfl
    | succ steps => exact refused input env 0 frame steps
  refine ⟨fun input env outer frame steps _ _ => by rw [refused]; rfl,
    means_of_settles 0 0 (fun input env steps frame frame' => ?_)
      fun input env steps frame frame' => ?_⟩
  · rw [same]
    exact apply_settles (by omega) _ (.refl env) frame frame'
  · rw [same]
    exact apply_settles (by omega) _ (.refl env) frame frame'

theorem undefined_refuses :
    (undefined : Slot N ε Γ α).Refuses "recursive rule used before it was defined" :=
  refuses_of_apply fun _ _ _ _ _ => rfl

theorem dropped_refuses :
    (dropped : Slot N ε Γ α).Refuses "recursive rule used after it was dropped" :=
  refuses_of_apply fun _ _ _ _ _ => rfl

theorem defined_follows (body : Rule N ε (α :: Γ) α) :
    (defined body).Follows (.recursive body) where
  reference _ env outer frame steps := apply_reference_here steps body env outer frame
  embedded := means_of_settles 0 1 (fun _ _ => reference_settles_recursive 0)
    fun _ _ => recursive_settles_reference 0

end Slot

/-! ## What happens to a recursive rule -/

/-- The objects of a program with one recursive rule. Object 0 is the slot, and all others are
rules. The body in the slot was built before there was a handle, so there is none in it, and
what else it is built of is left out. -/
structure Memory (N : Nonterminals) (ε : Type) (Γ : List Type) (α : Type) : Type 1 where
  store : Store
  /-- The rules that the program keeps, once for each time it keeps them. -/
  kept : List Nat
  /-- What was put into the slot, and the rule that was returned then. -/
  returned : Option (Rule N ε (α :: Γ) α × Nat)

namespace Memory

/-- The object in which the body is kept. -/
def slot : Nat := 0

/-- The definition has just begun: it owns the slot, and nothing is in it. -/
def new : Memory N ε Γ α := ⟨(⟨0, fun _ => [], fun _ => 0⟩ : Store).create [], [], none⟩

/-- What a program does. -/
inductive Operation (N : Nonterminals) (ε : Type) (Γ : List Type) (α : Type) : Type 1
  /-- Finish the definition, and keep the rule that is returned. -/
  | finish (body : Rule N ε (α :: Γ) α)
  /-- Follow the reference. If there still is a slot, it has one owner more until this is
  over. -/
  | follow
  /-- Clone a rule. -/
  | share (rule : Nat)
  /-- Build a rule from others, which are its parts from then on. A rule that embeds the
  reference alone has no parts. -/
  | combine (parts : List Nat)
  /-- Let go of a rule. -/
  | release (rule : Nat)

/-- Only rules that the program keeps can be cloned, built in or let go of, and only an empty
slot can be filled. Anything else is left undone. -/
def step (memory : Memory N ε Γ α) : Operation N ε Γ α → Memory N ε Γ α
  | .finish body =>
    match memory.returned with
    | some _ => memory
    | none =>
      { store := memory.store.create [slot]
        kept := memory.store.size :: memory.kept
        returned := some (body, memory.store.size) }
  | .follow =>
    if memory.store.owners slot = 0 then memory
    else { memory with store := (memory.store.share slot).release 1 slot }
  | .share rule =>
    if rule ∈ memory.kept then
      { memory with store := memory.store.share rule, kept := rule :: memory.kept }
    else memory
  | .combine parts =>
    if parts.Subperm memory.kept then
      { memory with
        store := memory.store.create parts
        kept := memory.store.size :: memory.kept.diff parts }
    else memory
  | .release rule =>
    if rule ∈ memory.kept then
      -- Parts have smaller numbers than what they are in, so this is deep enough for all of them.
      { memory with
        store := memory.store.release (rule + 1) rule
        kept := memory.kept.erase rule }
    else memory

/-- Do the operations one after the other. -/
def run (memory : Memory N ε Γ α) (operations : List (Operation N ε Γ α)) : Memory N ε Γ α :=
  operations.foldl step memory

/-- What the reference finds: no slot, an empty one, or a body. -/
def seen (memory : Memory N ε Γ α) : Slot N ε Γ α :=
  if memory.store.owners slot = 0 then .dropped
  else match memory.returned with
    | none => .undefined
    | some (body, _) => .defined body

/-- The number of handles: the places at which a rule is kept or built into a rule that is
owned itself. -/
def handles (memory : Memory N ε Γ α) (rule : Nat) : Nat :=
  memory.kept.count rule + memory.store.inside rule

/-- The slot, as long as the definition that owns it goes on. -/
def defining (memory : Memory N ε Γ α) : List Nat :=
  if memory.returned.isNone then [slot] else []

variable {memory : Memory N ε Γ α}

/-! ## What every operation keeps -/

/-- All owners are counted, the program never gets hold of the slot, and the one rule that owns
the slot is the one that was returned. -/
structure Sound (memory : Memory N ε Γ α) : Prop where
  balanced : memory.store.Balanced (memory.defining ++ memory.kept)
  hidden : slot ∉ memory.kept
  created : ∀ body rule, memory.returned = some (body, rule) → rule < memory.store.size
  owner : ∀ rule, slot ∈ memory.store.parts rule ↔
    ∃ body, memory.returned = some (body, rule)

theorem sound_new : (new : Memory N ε Γ α).Sound where
  balanced := Store.Balanced.create ⟨nofun, nofun, fun _ => by simp [Store.inside, new]⟩
  hidden := nofun
  created := nofun
  owner rule := by
    by_cases first : rule = 0
    · subst first
      simp [new, Store.create]
    · simp [new, Store.create]

/-- Whoever follows the reference gives back the slot in the end. -/
theorem step_follow : memory.step .follow = memory := by
  rw [step]
  split
  · rfl
  · next owned => rw [Store.release_share owned]

namespace Sound

/-- The slot is never unmade. -/
theorem slot_lt_size (sound : memory.Sound) : slot < memory.store.size := by
  cases returned : memory.returned with
  | none =>
      refine sound.balanced.created slot (List.mem_append_left _ ?_)
      simp [defining, returned]
  | some pair =>
      obtain ⟨body, rule⟩ := pair
      have part := (sound.owner rule).mpr ⟨body, returned⟩
      exact Nat.lt_trans (sound.balanced.older rule slot part) (sound.created body rule returned)

theorem finish (sound : memory.Sound) (body : Rule N ε (α :: Γ) α) :
    (memory.step (.finish body)).Sound := by
  cases returned : memory.returned with
  | some _ => simpa only [step, returned] using sound
  | none =>
      have balanced := sound.balanced
      simp only [defining, returned, Option.isNone_none, if_true] at balanced
      have fresh : memory.store.size ≠ slot := Nat.ne_of_gt sound.slot_lt_size
      simp only [step, returned]
      refine ⟨balanced.create, ?_, fun _ _ same => ?_, fun rule => ?_⟩
      · exact List.not_mem_cons_of_ne_of_not_mem fresh.symm sound.hidden
      · cases same
        exact Nat.lt_succ_self _
      · by_cases new : rule = memory.store.size
        · subst new
          simp [Store.create]
        · have owner := sound.owner rule
          rw [returned] at owner
          simpa [Store.create, Function.update_of_ne new, Ne.symm new] using owner

theorem share (sound : memory.Sound) (rule : Nat) : (memory.step (.share rule)).Sound := by
  rw [step]
  split
  · next keeps =>
      have balanced := sound.balanced.share (List.mem_append_right _ keeps)
      refine ⟨balanced.perm List.perm_middle.symm, ?_, sound.created, sound.owner⟩
      exact List.not_mem_cons_of_ne_of_not_mem (fun same => sound.hidden (same ▸ keeps))
        sound.hidden
  · exact sound

theorem combine (sound : memory.Sound) (parts : List Nat) :
    (memory.step (.combine parts)).Sound := by
  rw [step]
  split
  · next keeps =>
      have split : memory.kept.Perm (parts ++ memory.kept.diff parts) :=
        (List.subperm_append_diff_self_of_count_le
          fun part _ => keeps.count_le part).symm
      have before : (memory.defining ++ memory.kept).Perm
          (parts ++ (memory.defining ++ memory.kept.diff parts)) :=
        (split.append_left _).trans (by
          simpa only [List.append_assoc] using List.perm_append_comm.append_right _)
      have fresh : memory.store.size ≠ slot := Nat.ne_of_gt sound.slot_lt_size
      refine ⟨(sound.balanced.perm before).create.perm List.perm_middle.symm, ?_,
        fun body rule same => Nat.lt_succ_of_lt (sound.created body rule same), fun rule => ?_⟩
      · exact List.not_mem_cons_of_ne_of_not_mem fresh.symm fun left =>
          sound.hidden (List.diff_subset _ _ left)
      · by_cases new : rule = memory.store.size
        · subst new
          have without : slot ∉ parts := fun part => sound.hidden (keeps.subset part)
          have other body : memory.returned ≠ some (body, memory.store.size) := fun same =>
            Nat.lt_irrefl _ (sound.created body _ same)
          simp [Store.create, without, other]
        · simpa only [Store.create, Function.update_of_ne new] using sound.owner rule
  · exact sound

theorem release (sound : memory.Sound) (rule : Nat) :
    (memory.step (.release rule)).Sound := by
  rw [step]
  split
  · next keeps =>
      have before : (memory.defining ++ memory.kept).Perm
          (rule :: (memory.defining ++ memory.kept.erase rule)) :=
        ((List.perm_cons_erase keeps).append_left _).trans List.perm_middle
      refine ⟨(sound.balanced.perm before).release (Nat.lt_succ_self rule),
        fun left => sound.hidden (List.mem_of_mem_erase left), ?_, ?_⟩
      · simpa using sound.created
      · simpa using sound.owner
  · exact sound

theorem step (sound : memory.Sound) (operation : Operation N ε Γ α) :
    (memory.step operation).Sound := by
  cases operation with
  | finish body => exact sound.finish body
  | follow => rwa [step_follow]
  | share rule => exact sound.share rule
  | combine parts => exact sound.combine parts
  | release rule => exact sound.release rule

theorem run (sound : memory.Sound) (operations : List (Operation N ε Γ α)) :
    (memory.run operations).Sound :=
  List.foldlRecOn operations _ sound fun _ sound operation _ => sound.step operation

end Sound

/-! ## What the reference finds -/

namespace Sound

variable {body : Rule N ε (α :: Γ) α} {rule : Nat}

/-- While the definition goes on, the slot is there and empty. -/
theorem seen_defining (sound : memory.Sound) (returned : memory.returned = none) :
    memory.seen = .undefined := by
  have owned : 0 < memory.store.owners slot :=
    sound.balanced.owners_pos_of_mem (List.mem_append_left _ (by simp [defining, returned]))
  rw [seen, if_neg (Nat.ne_of_gt owned), returned]

/-- From then on the handles are all there is to own the rule. -/
theorem owners_eq_handles (sound : memory.Sound) (returned : memory.returned = some (body, rule)) :
    memory.store.owners rule = memory.handles rule := by
  rw [sound.balanced.counted, handles, defining, returned]
  rfl

/-- The slot is owned just as long as the rule is. -/
theorem slot_owned_iff (sound : memory.Sound) (returned : memory.returned = some (body, rule)) :
    0 < memory.store.owners slot ↔ 0 < memory.store.owners rule := by
  rw [sound.balanced.owners_pos_iff, sound.balanced.owners_pos_iff]
  refine ⟨fun reached => ?_, fun reached => .part reached ((sound.owner rule).mpr ⟨_, returned⟩)⟩
  cases reached with
  | kept keeps => exact absurd (by simpa [defining, returned] using keeps) sound.hidden
  | @part holder _ reached contains =>
      obtain ⟨_, same⟩ := (sound.owner holder).mp contains
      rw [returned] at same
      cases same
      exact reached

/-- So it is enough to count the handles. -/
theorem seen_returned (sound : memory.Sound) (returned : memory.returned = some (body, rule)) :
    memory.seen = (Lifetime.held (memory.handles rule)).slot body := by
  have owned := sound.slot_owned_iff returned
  rw [sound.owners_eq_handles returned] at owned
  rw [seen, returned]
  cases handles : memory.handles rule with
  | zero =>
      rw [handles] at owned
      rw [if_pos (by omega)]
      rfl
  | succ _ =>
      rw [handles] at owned
      rw [if_neg (by omega)]
      rfl

/-- There are handles just as long as the rule is reached from what the program keeps. -/
theorem handles_pos_iff (sound : memory.Sound) (returned : memory.returned = some (body, rule)) :
    0 < memory.handles rule ↔ memory.store.Reaches memory.kept rule := by
  rw [← sound.owners_eq_handles returned, sound.balanced.owners_pos_iff, defining, returned]
  rfl

end Sound

/-! ## What never comes back -/

/-- What an operation would finish the definition with. -/
def Operation.body? : Operation N ε Γ α → Option (Rule N ε (α :: Γ) α)
  | .finish body => some body
  | _ => none

/-- What was returned once stays. -/
theorem returned_step (operation : Operation N ε Γ α) :
    (memory.step operation).returned =
      memory.returned.or (operation.body?.map (·, memory.store.size)) := by
  cases operation with
  | finish body => cases returned : memory.returned <;> simp [step, returned, Operation.body?]
  | follow => simp [step_follow, Operation.body?]
  | share rule => rw [step]; split <;> simp [Operation.body?]
  | combine parts => rw [step]; split <;> simp [Operation.body?]
  | release rule => rw [step]; split <;> simp [Operation.body?]

/-- The definition is finished once, with the first body that there is for it. -/
theorem body_run (operations : List (Operation N ε Γ α)) :
    (memory.run operations).returned.map Prod.fst =
      (memory.returned.map Prod.fst).or (operations.findSome? Operation.body?) := by
  induction operations generalizing memory with
  | nil => simp [run]
  | cons operation later ih =>
      rw [run, List.foldl_cons, ← run, ih, returned_step, List.findSome?_cons]
      cases memory.returned <;> cases operation.body? <;> rfl

namespace Sound

variable {body : Rule N ε (α :: Γ) α} {rule : Nat}

/-- No operation gets hold of a rule that has no handle. -/
theorem handles_step (sound : memory.Sound) (returned : memory.returned = some (body, rule))
    (gone : memory.handles rule = 0) (operation : Operation N ε Γ α) :
    (memory.step operation).handles rule = 0 := by
  have same : (memory.step operation).returned = some (body, rule) := by
    rw [returned_step, returned, Option.some_or]
  rw [← sound.owners_eq_handles returned] at gone
  rw [← (sound.step operation).owners_eq_handles same]
  cases operation with
  | finish body => rwa [Memory.step, returned]
  | follow => rwa [step_follow]
  | share other =>
      rw [Memory.step]
      split
      · next keeps =>
          have owned := sound.balanced.owners_pos_of_mem (List.mem_append_right _ keeps)
          have different : rule ≠ other := fun same => Nat.ne_of_gt owned (same ▸ gone)
          rwa [Store.share, Store.owners_setOwners_of_ne different]
      · exact gone
  | combine parts =>
      rw [Memory.step]
      split
      · have older : rule ≠ memory.store.size := Nat.ne_of_lt (sound.created body rule returned)
        rwa [Store.owners_create_of_ne older]
      · exact gone
  | release other =>
      rw [Memory.step]
      split
      · exact Nat.eq_zero_of_le_zero (Nat.le_trans (Store.owners_release_le _ _) (Nat.le_of_eq gone))
      · exact gone

/-- So a rule that has lost its last handle is never seen again. -/
theorem seen_run_of_gone (sound : memory.Sound) (returned : memory.returned = some (body, rule))
    (gone : memory.handles rule = 0) (later : List (Operation N ε Γ α)) :
    (memory.run later).seen = .dropped := by
  induction later generalizing memory with
  | nil =>
      rw [Memory.run, List.foldl_nil, sound.seen_returned returned, gone]
      rfl
  | cons operation later ih =>
      refine ih (sound.step operation) ?_ (sound.handles_step returned gone operation)
      rw [returned_step, returned, Option.some_or]

end Sound

/-! ## The reference follows the handles -/

/-- Whatever is done in whatever order: the reference is refused until the definition is
finished, it goes on as the rule that was returned as long as there is a handle of that, which
is as long as the program reaches it, and once there is none it is refused ever after. Nothing
else than the number of handles has to be known for this. -/
theorem reference_follows_life (operations : List (Operation N ε Γ α)) :
    let memory : Memory N ε Γ α := new.run operations
    memory.returned.map Prod.fst = operations.findSome? Operation.body? ∧
    (memory.returned = none →
      (∀ body, memory.seen = Lifetime.defining.slot body) ∧
      memory.seen.Refuses "recursive rule used before it was defined") ∧
    ∀ body rule, memory.returned = some (body, rule) →
      memory.store.owners rule = memory.handles rule ∧
      (0 < memory.handles rule ↔ memory.store.Reaches memory.kept rule) ∧
      memory.seen = (Lifetime.held (memory.handles rule)).slot body ∧
      (0 < memory.handles rule → memory.seen.Follows (.recursive body)) ∧
      (memory.handles rule = 0 → ∀ later,
        (memory.run later).seen.Refuses "recursive rule used after it was dropped") := by
  intro memory
  have sound : memory.Sound := sound_new.run operations
  refine ⟨body_run operations, fun running => ?_, fun body rule returned =>
    ⟨sound.owners_eq_handles returned, sound.handles_pos_iff returned,
      sound.seen_returned returned, fun handled => ?_, fun gone later => ?_⟩⟩
  · rw [sound.seen_defining running]
    exact ⟨fun _ => rfl, Slot.undefined_refuses⟩
  · obtain ⟨others, handles⟩ := Nat.exists_eq_add_of_lt handled
    rw [sound.seen_returned returned, handles, Nat.zero_add]
    exact Slot.defined_follows body
  · rw [sound.seen_run_of_gone returned gone]
    exact Slot.dropped_refuses

/-- The brackets are followed as long as one clone is left of a rule that they were built
into. -/
theorem clonedBrackets_follows_life :
    let refers : List (Operation Rule.bracketNames Char [] Nat) := [.combine [], .follow]
    let shared := refers ++
      [.finish Rule.brackets, .share 2, .combine [2], .share 3, .release 2, .release 3]
    let dropped := shared ++ [.follow, .release 3]
    (new.run refers).returned = none ∧
    (new.run refers).seen.Refuses "recursive rule used before it was defined" ∧
    (new.run shared).returned = some (Rule.brackets, 2) ∧
    (new.run shared).kept = [3, 1] ∧
    0 < (new.run shared).handles 2 ∧
    (new.run shared).seen.Follows (.recursive Rule.brackets) ∧
    (new.run dropped).returned = some (Rule.brackets, 2) ∧
    (new.run dropped).handles 2 = 0 ∧
    ∀ later, ((new.run dropped).run later).seen.Refuses
      "recursive rule used after it was dropped" := by
  intro refers shared dropped
  have returned : (new.run shared).returned = some (Rule.brackets, 2) := rfl
  have handled : 0 < (new.run shared).handles 2 := by decide
  have lost : (new.run dropped).returned = some (Rule.brackets, 2) := rfl
  have gone : (new.run dropped).handles 2 = 0 := by decide
  obtain ⟨-, refused, -⟩ := reference_follows_life refers
  obtain ⟨-, -, followed⟩ := reference_follows_life shared
  obtain ⟨-, -, refusedAfter⟩ := reference_follows_life dropped
  exact ⟨rfl, (refused rfl).2, returned, by decide, handled,
    (followed Rule.brackets 2 returned).2.2.2.1 handled, lost, gone,
    (refusedAfter Rule.brackets 2 lost).2.2.2.2 gone⟩

end Memory

end Rulebook
