/-
# What leaves come to

A leaf of the library consumes elements of the source from the cursor on, or it
rejects with a single failure at the cursor that no rule has labelled yet. Only
leaves written by hand may do anything else.
-/

import Rulebook.Leaf

namespace Rulebook

namespace Leaf

variable {ε α : Type} {source : Array ε} {position : Nat}

/-- The leaves that the library makes. Only judgements written by hand are
others. -/
def Standard : Leaf ε α → Prop
  | .custom _ => False
  | _ => True

/-- A scan stops at the cursor or at some later position of the source. -/
theorem scan_between {skips : ε → Bool} {stop : Nat}
    (scanned : scan source skips position = .ok stop) :
    position ≤ stop ∧ stop ≤ max position source.size := by
  fun_induction scan source skips position with
  | case1 position inside skipped representable ih =>
      obtain ⟨above, below⟩ := ih scanned
      omega
  | case2 => cases scanned
  | case3 | case4 =>
      cases scanned
      exact ⟨Nat.le_refl _, Nat.le_max_left _ _⟩

/-- The outcome is an acceptance that stops inside the source, or one bare
failure at the cursor. -/
def Plain (source : Array ε) (position : Nat) : Outcome α → Prop
  | .accepted _ stop => position ≤ stop ∧ stop ≤ max position source.size
  | .rejected failures => ∃ message, failures = .single (.bare message position)

theorem plain_accepted_here {value : α} :
    Plain source position (.accepted value position) :=
  ⟨Nat.le_refl _, Nat.le_max_left _ _⟩

theorem plain_reject {message : String} :
    Plain source position (.reject message position : Outcome α) :=
  ⟨message, rfl⟩

theorem plain_compare {size : Nat} {agrees : Array ε → Bool}
    {mismatch : Array ε → String} {value : α} :
    Plain source position (compare source size agrees mismatch value position) := by
  unfold compare
  split
  · split
    · rename_i found within
      obtain ⟨⟨_, inside⟩, _⟩ := span?_eq_some_iff.mp within
      by_cases agreed : agrees found
      · rw [if_pos agreed]
        exact ⟨Nat.le_add_right _ _, Nat.le_trans inside (Nat.le_max_right _ _)⟩
      · rw [if_neg agreed]
        exact plain_reject
    · exact plain_reject
  · exact plain_reject

/-- The leaves of the library consume elements of the source only, and reject
where they are applied. -/
theorem plain_apply {part : Leaf ε α} (standard : part.Standard)
    {context : Context} {outcome : Outcome α}
    (applied : part.apply source context position = .ok outcome) :
    Plain source position outcome := by
  cases part with
  | custom judge => exact standard.elim
  | accept value =>
      cases applied
      exact plain_accepted_here
  | reject message =>
      cases applied
      exact plain_reject
  | window size agrees mismatch value =>
      cases applied
      exact plain_compare
  | finish describe value =>
      simp only [apply] at applied
      split at applied
      · by_cases atEnd : position = source.size
        · rw [if_pos atEnd] at applied
          cases applied
          exact plain_accepted_here
        · rw [if_neg atEnd] at applied
          cases applied
          exact plain_reject
      · cases applied
        exact plain_reject
  | next read =>
      simp only [apply] at applied
      split at applied
      · cases applied
        exact plain_reject
      · rename_i element found
        have inside : position < source.size := (Array.getElem?_eq_some_iff.mp found).1
        split at applied
        · cases applied
          exact plain_reject
        · unfold advance at applied
          split at applied <;> cases applied
          exact ⟨Nat.le_succ _, Nat.le_trans inside (Nat.le_max_right _ _)⟩
  | skipWhile skips value =>
      simp only [apply] at applied
      cases scanned : scan source skips position with
      | error cause => simp [scanned, Except.map] at applied
      | ok stop =>
          rw [scanned] at applied
          cases applied
          exact scan_between scanned

/-- A scan of a source whose positions can all be represented comes to an end. -/
theorem exists_scan (fits : source.size ≤ lastPosition) (skips : ε → Bool) (position : Nat) :
    ∃ stop, scan source skips position = .ok stop := by
  fun_induction scan source skips position with
  | case1 position inside skipped representable ih => exact ih
  | case2 position inside skipped last => omega
  | case3 position | case4 position => exact ⟨position, rfl⟩

/-- Where the source ends no later than at the last position, leaves judge every position,
whether it lies in the source or not. -/
theorem exists_apply (fits : source.size ≤ lastPosition) (part : Leaf ε α)
    (context : Context) (position : Nat) :
    ∃ outcome, part.apply source context position = .ok outcome := by
  cases part with
  | accept | reject | window | custom => exact ⟨_, rfl⟩
  | next read =>
      simp only [apply]
      split
      · exact ⟨_, rfl⟩
      · rename_i element found
        obtain ⟨inside, _⟩ := Array.getElem?_eq_some_iff.mp found
        have next : position + 1 ≤ lastPosition := Nat.le_trans (by omega) fits
        split
        · exact ⟨_, rfl⟩
        · rw [advance_eq_ok next]
          exact ⟨_, rfl⟩
  | finish describe value =>
      simp only [apply]
      split
      · split <;> exact ⟨_, rfl⟩
      · exact ⟨_, rfl⟩
  | skipWhile skips value =>
      obtain ⟨stop, scanned⟩ := exists_scan fits skips position
      rw [apply, scanned]
      exact ⟨_, rfl⟩

end Leaf

end Rulebook
