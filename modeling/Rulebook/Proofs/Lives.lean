/-
# A life is a number of handles

Of all that a program holds, a recursive rule needs to know one thing: whether its definition
is finished, and how many handles there are then. This is its life, and it is the abstraction
that the program is followed by here. Finishing the definition is the birth of the rule,
cloning it adds a handle, letting go of it takes one away, and whatever is done to other rules
either leaves the handles alone or takes away those that went with the last clone of something.
So every step of the program is some moves of the life, and a run is a life lived on. No life
is left out: each of them is that of some run.

Rules are applied by what the reference finds in the memory, and it finds what there is to see
at this point of the life. So to apply a rule it is enough to know the life, and the memory may
be left out.
-/

import Mathlib.Logic.Relation
import Rulebook.Proofs.Lifetimes

namespace Rulebook

variable {N : Nonterminals} {ε : Type} {Γ : List Type} {α β : Type}

/-! ## Moves -/

/-- What happens to a recursive rule at one moment of its life. -/
inductive Lifetime.Moves (before : Lifetime) : Lifetime → Prop
  | finish : Moves before before.finish
  | share : Moves before before.share
  | release : Moves before before.release

/-- What happens to a recursive rule in the course of its life. -/
def Lifetime.LeadsTo : Lifetime → Lifetime → Prop :=
  Relation.ReflTransGen Lifetime.Moves

namespace Lifetime

/-- Any number of handles may be let go of. -/
theorem leadsTo_of_le {fewer holders : Nat} (less : fewer ≤ holders) :
    (held holders).LeadsTo (held fewer) := by
  induction less with
  | refl => exact .refl
  | step _ ih => exact .head .release ih

/-- A rule that nothing holds comes to life no more. -/
theorem LeadsTo.eq_of_gone {after : Lifetime} (leads : (held 0).LeadsTo after) :
    after = held 0 := by
  induction leads with
  | refl => rfl
  | tail _ moves ih =>
      subst ih
      cases moves <;> rfl

end Lifetime

namespace Memory

open Lifetime

variable {memory : Memory N ε Γ α} {body : Rule N ε (α :: Γ) α} {rule : Nat}

/-- The point of its life at which the recursive rule is. -/
def life (memory : Memory N ε Γ α) : Lifetime :=
  match memory.returned with
  | none => .defining
  | some (_, rule) => .held (memory.handles rule)

theorem life_defining (returned : memory.returned = none) : memory.life = .defining := by
  rw [life, returned]

namespace Sound

variable (sound : memory.Sound)

include sound

/-- Once the rule was returned, its owners are what its life is about. -/
theorem life_returned (returned : memory.returned = some (body, rule)) :
    memory.life = .held (memory.store.owners rule) := by
  rw [life, returned, sound.owners_eq_handles returned]

/-! ## What the operations do to the life -/

/-- As soon as the rule was returned, an operation has to be watched for the owners only. -/
theorem life_step_returned (returned : memory.returned = some (body, rule))
    (operation : Operation N ε Γ α) :
    (memory.step operation).life = .held ((memory.step operation).store.owners rule) := by
  have still : (memory.step operation).returned = some (body, rule) := by
    rw [returned_step, returned, Option.some_or]
  exact (sound.step operation).life_returned still

/-- Whoever finishes the definition holds the rule. -/
theorem life_finish (body : Rule N ε (α :: Γ) α) :
    (memory.step (.finish body)).life = memory.life.finish := by
  cases returned : memory.returned with
  | none =>
      have created : (memory.step (.finish body)).returned = some (body, memory.store.size) := by
        rw [returned_step, returned]
        rfl
      rw [(sound.finish body).life_returned created, life_defining returned, Memory.step, returned]
      simp [Store.create, Lifetime.finish]
  | some pair =>
      obtain ⟨found, rule⟩ := pair
      rw [sound.life_step_returned returned, sound.life_returned returned, Memory.step, returned]
      rfl

/-- A clone is one more handle. -/
theorem life_share (returned : memory.returned = some (body, rule))
    (keeps : rule ∈ memory.kept) : (memory.step (.share rule)).life = memory.life.share := by
  have owned := sound.balanced.owners_pos_of_mem (List.mem_append_right _ keeps)
  obtain ⟨others, owners⟩ := Nat.exists_eq_add_of_lt owned
  rw [sound.life_step_returned returned, sound.life_returned returned, Memory.step, if_pos keeps,
    Store.share, Store.owners_setOwners_self, owners, Nat.zero_add]
  rfl

theorem life_share_of_ne {other : Nat} (returned : memory.returned = some (body, rule))
    (different : rule ≠ other) : (memory.step (.share other)).life = memory.life := by
  rw [sound.life_step_returned returned, sound.life_returned returned, Memory.step]
  split
  · rw [Store.share, Store.owners_setOwners_of_ne different]
  · rfl

/-- A handle that is built in remains a handle. -/
theorem life_combine (returned : memory.returned = some (body, rule)) (parts : List Nat) :
    (memory.step (.combine parts)).life = memory.life := by
  rw [sound.life_step_returned returned, sound.life_returned returned, Memory.step]
  split
  · rw [Store.owners_create_of_ne (Nat.ne_of_lt (sound.created body rule returned))]
  · rfl

/-- To let go of the rule is to let go of one handle. -/
theorem life_release (returned : memory.returned = some (body, rule))
    (keeps : rule ∈ memory.kept) :
    (memory.step (.release rule)).life = memory.life.release := by
  rw [sound.life_step_returned returned, sound.life_returned returned, Memory.step, if_pos keeps,
    Store.owners_release_self sound.balanced.older]
  rfl

/-- With another rule there go the handles that were built into nothing else. -/
theorem exists_life_release (returned : memory.returned = some (body, rule)) (other : Nat) :
    ∃ fewer ≤ memory.handles rule, (memory.step (.release other)).life = .held fewer := by
  refine ⟨_, ?_, sound.life_step_returned returned _⟩
  rw [← sound.owners_eq_handles returned, Memory.step]
  split
  · exact Store.owners_release_le _ _
  · exact Nat.le_refl _

/-- Every step of the program moves the life on, or leaves it where it is. -/
theorem life_step (operation : Operation N ε Γ α) :
    memory.life.LeadsTo (memory.step operation).life := by
  by_cases finishes : ∃ body, operation = .finish body
  · obtain ⟨body, rfl⟩ := finishes
    rw [sound.life_finish]
    exact .single .finish
  cases returned : memory.returned with
  | none =>
      have still : (memory.step operation).returned = none := by
        rw [returned_step, returned]
        cases operation with
        | finish body => exact absurd ⟨body, rfl⟩ finishes
        | follow | share | combine | release => rfl
      rw [life_defining returned, life_defining still]
      exact .refl
  | some pair =>
      obtain ⟨body, rule⟩ := pair
      cases operation with
      | finish other => exact absurd ⟨other, rfl⟩ finishes
      | follow =>
          rw [step_follow]
          exact .refl
      | share other =>
          by_cases same : rule = other
          · subst same
            by_cases keeps : rule ∈ memory.kept
            · rw [sound.life_share returned keeps]
              exact .single .share
            · rw [Memory.step, if_neg keeps]
              exact .refl
          · rw [sound.life_share_of_ne returned same]
            exact .refl
      | combine parts =>
          rw [sound.life_combine returned]
          exact .refl
      | release other =>
          obtain ⟨fewer, less, after⟩ := sound.exists_life_release returned other
          rw [after, life, returned]
          exact leadsTo_of_le less

/-- A run is a life lived on. -/
theorem life_run (operations : List (Operation N ε Γ α)) :
    memory.life.LeadsTo (memory.run operations).life := by
  induction operations generalizing memory with
  | nil => exact .refl
  | cons operation later ih =>
      exact (sound.life_step operation).trans (ih (sound.step operation))

/-- No run calls back a rule that nothing holds, whatever it does. -/
theorem life_run_of_gone (gone : memory.life = .held 0) (operations : List (Operation N ε Γ α)) :
    (memory.run operations).life = .held 0 :=
  (gone ▸ sound.life_run operations).eq_of_gone

/-! ## Rules at a point of the life -/

/-- What the reference finds is what there is to see of the body at this point of its life. -/
theorem seen_eq_slot (known : ∀ found ∈ memory.returned.map Prod.fst, found = body) :
    memory.seen = memory.life.slot body := by
  cases returned : memory.returned with
  | none =>
      rw [sound.seen_defining returned, life_defining returned]
      rfl
  | some pair =>
      obtain ⟨found, rule⟩ := pair
      obtain rfl : found = body := known found (by rw [returned]; rfl)
      rw [sound.seen_returned returned, life, returned]

end Sound

theorem run_concat (operations : List (Operation N ε Γ α)) (operation : Operation N ε Γ α) :
    memory.run (operations ++ [operation]) = (memory.run operations).step operation :=
  List.foldl_concat ..

/-- Cloned as often as it takes, the rule has any number of handles. -/
theorem exists_run_held (body : Rule N ε (α :: Γ) α) (clones : Nat) :
    ∃ operations, (new.run operations : Memory N ε Γ α).returned = some (body, 1) ∧
      1 ∈ (new.run operations : Memory N ε Γ α).kept ∧
      (new.run operations : Memory N ε Γ α).life = .held (clones + 1) := by
  induction clones with
  | zero =>
      refine ⟨[.finish body], rfl, List.mem_singleton.mpr rfl, ?_⟩
      exact sound_new.life_finish body
  | succ clones ih =>
      obtain ⟨operations, returned, keeps, life⟩ := ih
      have sound : (new.run operations : Memory N ε Γ α).Sound := sound_new.run operations
      refine ⟨operations ++ [.share 1], ?_, ?_, ?_⟩
      · rw [run_concat, returned_step, returned, Option.some_or]
      · rw [run_concat, step, if_pos keeps]
        exact List.mem_cons_self
      · rw [run_concat, sound.life_share returned keeps, life]
        rfl

/-- No life is left out, be it one that goes on, one that has ended or one that has not begun. -/
theorem exists_run_life_eq (body : Rule N ε (α :: Γ) α) (life : Lifetime) :
    ∃ operations, (new.run operations : Memory N ε Γ α).life = life := by
  obtain _ | ⟨_ | clones⟩ := life
  · exact ⟨[], rfl⟩
  · obtain ⟨operations, returned, keeps, life⟩ := exists_run_held body 0
    have sound : (new.run operations : Memory N ε Γ α).Sound := sound_new.run operations
    refine ⟨operations ++ [.release 1], ?_⟩
    rw [run_concat, sound.life_release returned keeps, life]
    rfl
  · obtain ⟨operations, -, -, life⟩ := exists_run_held body clones
    exact ⟨operations, life⟩

section Closed

variable {memory : Memory N ε [] α} {body : Rule N ε [α] α}

/-- A rule around the reference is applied by what the reference finds. -/
theorem Sound.applyWithin_life (sound : memory.Sound)
    (known : ∀ found ∈ memory.returned.map Prod.fst, found = body) (input : Input N ε)
    (steps : Nat) (rule : Rule N ε [α] β) :
    memory.life.applyWithin input steps body rule =
      Rule.apply input steps rule (.cons memory.seen 0 .nil) 0 := by
  rw [applyWithin, sound.seen_eq_slot known]

/-- In the course of a run the reference alone is applied by what it finds, be it the body that
the definition was finished with or none. -/
theorem applyReference_run (operations : List (Operation N ε [] α))
    (known : ∀ found ∈ operations.findSome? Operation.body?, found = body) (input : Input N ε)
    (steps : Nat) :
    (new.run operations).life.applyReference input steps body =
      Rule.apply input steps (.reference .here)
        (.cons (new.run operations).seen 0 .nil) 0 := by
  have sound : (new.run operations : Memory N ε [] α).Sound := sound_new.run operations
  refine sound.applyWithin_life (fun found among => known found ?_) input steps _
  rwa [body_run] at among

end Closed

end Memory

end Rulebook
