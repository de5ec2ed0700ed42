/-
# What was consumed matches again

A rule that accepts has consumed a part of the source. Is it applied to that part alone, it
should accept the whole of it with the same value. But where the part ends the source goes
on, and what a rule sees there may have decided how it went: an alternative that is lost to a
longer one, or the attempt that ends a repetition.

So rules are taken from three layers. A literal looks at no more elements than it consumes,
and where it does not fit in the part it fails. A choice between literals may come to another
literal there, but not if its own match fits, and what it rejects it rejects again. A phrase
is a sequence of choices and of repetitions of them, separated by literals; all that has to be
known of a phrase is what it accepts. The order of the layers cannot be changed: a choice
between sequences may give up a sequence that fits for one that does not, and a choice that
separates may match less than before where the item behind it then fits.
-/

import Rulebook.Lexer.Tokenizer
import Rulebook.Proofs.Alternation
import Rulebook.Proofs.Elements

namespace Rulebook

namespace Outcome

variable {α β : Type} {strict : Prop} {start stop : Nat} {far near : Outcome α}

theorem isRejected_map (f : α → β) (outcome : Outcome α) :
    (outcome.map f).isRejected = outcome.isRejected := by
  cases outcome <;> rfl

theorem isRejected_withPath (label : String) (outcome : Outcome α) :
    (outcome.withPath label).isRejected = outcome.isRejected := by
  cases outcome <;> rfl

theorem isRejected_revise {judge : α → Nat → Outcome β} {outcome : Outcome α}
    (rejected : outcome.isRejected) : (outcome.revise judge).isRejected := by
  cases outcome with
  | accepted value stop => cases rejected
  | rejected failures => rfl

/-- What comes out in a source and in the part of it between two positions. What ends in the
part is accepted there, and what is rejected is rejected there. What ends behind the part is
rejected there if that is asked for. -/
inductive Recurs (strict : Prop) (start stop : Nat) : Outcome α → Outcome α → Prop
  | accepted {value : α} {reach : Nat} (inside : start + reach ≤ stop) :
      Recurs strict start stop (.accepted value (start + reach)) (.accepted value reach)
  | beyond {value : α} {reach : Nat} {near : Outcome α} (behind : stop < reach)
      (lost : strict → near.isRejected) : Recurs strict start stop (.accepted value reach) near
  | rejected {failures failures' : Failures} :
      Recurs strict start stop (.rejected failures) (.rejected failures')

theorem Recurs.loosen (recurs : far.Recurs True start stop near) :
    far.Recurs strict start stop near := by
  cases recurs with
  | accepted inside => exact .accepted inside
  | beyond behind lost => exact .beyond behind fun _ => lost trivial
  | rejected => exact .rejected

theorem Recurs.map (recurs : far.Recurs strict start stop near) (f : α → β) :
    (far.map f).Recurs strict start stop (near.map f) := by
  cases recurs with
  | accepted inside => exact .accepted inside
  | beyond behind lost => exact .beyond behind (by rwa [isRejected_map])
  | rejected => exact .rejected

theorem Recurs.withPath (recurs : far.Recurs strict start stop near) (label : String) :
    (far.withPath label).Recurs strict start stop (near.withPath label) := by
  cases recurs with
  | accepted inside => exact .accepted inside
  | beyond behind lost => exact .beyond behind (by rwa [isRejected_withPath])
  | rejected => exact .rejected

/-- An acceptance that ends in the part recurs as it is. -/
theorem Recurs.accepted_inside {value : α} {position : Nat}
    (recurs : (Outcome.accepted value position).Recurs strict start stop near)
    (inside : position ≤ stop) :
    ∃ reach, position = start + reach ∧ near = .accepted value reach := by
  cases recurs with
  | accepted => exact ⟨_, rfl, rfl⟩
  | beyond behind => exact absurd inside (Nat.not_le.mpr behind)

/-- Of two alternatives the one that wins is the same, unless it ends behind the part. -/
theorem Recurs.best {far' near' : Outcome α} (recurs : far.Recurs False start stop near)
    (recurs' : far'.Recurs False start stop near') :
    (far.best far').Recurs False start stop (near.best near') := by
  cases recurs with
  | @accepted value reach inside =>
      cases recurs' with
      | @accepted value' reach' inside' =>
          simp only [Outcome.best, Nat.add_le_add_iff_left]
          split
          · exact .accepted inside
          · exact .accepted inside'
      | @beyond value' reach' near' behind =>
          rw [Outcome.best, if_neg (by omega)]
          exact .beyond behind False.elim
      | rejected => exact .accepted inside
  | @beyond value reach near behind =>
      cases recurs' with
      | @accepted value' reach' inside' =>
          rw [Outcome.best, if_pos (by omega)]
          exact .beyond behind False.elim
      | @beyond value' reach' near' behind' =>
          rw [Outcome.best]
          split
          · exact .beyond behind False.elim
          · exact .beyond behind' False.elim
      | rejected => exact .beyond behind False.elim
  | rejected =>
      cases recurs' with
      | accepted inside' => exact .accepted inside'
      | beyond behind' => exact .beyond behind' False.elim
      | rejected => exact .rejected

end Outcome

namespace Leaf

variable {ε α : Type} {source : Array ε} {start stop position : Nat}

/-- The leaf looks at the elements that it consumes, and at no others. -/
def Literal : Leaf ε α → Prop
  | .accept _ | .reject _ | .next _ | .window _ _ _ _ => True
  | .finish _ _ | .skipWhile _ _ | .custom _ => False

theorem standard_of_literal {part : Leaf ε α} (literal : part.Literal) : part.Standard := by
  cases part with
  | custom judge => exact literal.elim
  | accept | reject | next | finish | window | skipWhile => trivial

theorem getElem?_part (ordered : start ≤ stop) (within : start ≤ source.size) :
    (source.extract start stop)[position]? =
      if start + position < stop then source[start + position]? else none := by
  rw [Array.getElem?_extract]
  by_cases inside : start + position < stop
  · rw [if_pos inside]
    by_cases present : start + position < source.size
    · rw [if_pos (by omega)]
    · rw [if_neg (by omega), eq_comm, Array.getElem?_eq_none_iff]
      omega
  · rw [if_neg inside, if_neg (by omega)]

/-- Between two positions of a part stand the elements of the whole source. -/
theorem span?_part (ordered : start ≤ stop) (within : start ≤ source.size)
    (first last : Nat) :
    span? (source.extract start stop) first last =
      if start + last ≤ stop then span? source (start + first) (start + last) else none := by
  unfold span?
  rw [Array.size_extract, Array.extract_extract]
  by_cases inside : start + last ≤ stop
  · rw [if_pos inside, Nat.min_eq_left inside]
    by_cases both : first ≤ last ∧ start + last ≤ source.size
    · rw [if_pos ⟨both.1, by omega⟩, if_pos ⟨by omega, both.2⟩]
    · rw [if_neg fun near => both ⟨near.1, by omega⟩,
        if_neg fun far => both ⟨by omega, far.2⟩]
  · rw [if_neg inside, if_neg fun near => inside (by omega)]

/-- A comparison finds in the part what it found in the whole source, if that ends there. -/
theorem compare_recurs (fits : source.size ≤ lastPosition) (ordered : start ≤ stop)
    (within : start ≤ source.size) {count : Nat} {agrees : Array ε → Bool}
    {mismatch : Array ε → String} {value : α} :
    (compare source count agrees mismatch value (start + position)).Recurs True start stop
      (compare (source.extract start stop) count agrees mismatch value position) := by
  have same : span? (source.extract start stop) position (position + count) =
      if start + position + count ≤ stop then
        span? source (start + position) (start + position + count) else none := by
    rw [span?_part ordered within, Nat.add_assoc]
  unfold compare
  by_cases short : start + position + count ≤ lastPosition
  · rw [if_pos short, if_pos (by omega), same]
    by_cases inside : start + position + count ≤ stop
    · rw [if_pos inside]
      cases span? source (start + position) (start + position + count) with
      | none => exact .rejected
      | some found =>
          by_cases agreed : agrees found
          · simp only [if_pos agreed, Nat.add_assoc start position count]
            exact .accepted (by omega)
          · simp only [if_neg agreed]
            exact .rejected
    · rw [if_neg inside]
      cases span? source (start + position) (start + position + count) with
      | none => exact .rejected
      | some found =>
          by_cases agreed : agrees found
          · simp only [if_pos agreed]
            exact .beyond (by omega) fun _ => rfl
          · simp only [if_neg agreed]
            exact .rejected
  · -- What would end behind the last position ends behind the part too.
    have missing : span? (source.extract start stop) position (position + count) = none := by
      rw [span?, if_neg]
      rw [Array.size_extract]
      omega
    rw [if_neg short, missing]
    split
    · exact .rejected
    · exact .rejected

/-- Reading an element fails in the part if the element stands behind it. -/
theorem next_recurs (fits : source.size ≤ lastPosition) (ordered : start ≤ stop)
    (within : start ≤ source.size) {read : ε → Except String α} {context : Context}
    {far : Outcome α}
    (applied : (Leaf.next read).apply source context (start + position) = .ok far)
    (context' : Context) :
    ∃ near, (Leaf.next read).apply (source.extract start stop) context' position = .ok near ∧
      far.Recurs True start stop near := by
  simp only [apply] at applied ⊢
  rw [getElem?_part ordered within]
  cases found : source[start + position]? with
  | none =>
      rw [found] at applied
      cases applied
      simp only [ite_self]
      exact ⟨_, rfl, .rejected⟩
  | some element =>
      have next : start + position + 1 ≤ lastPosition :=
        Nat.le_trans (Array.getElem?_eq_some_iff.mp found).1 fits
      simp only [found] at applied
      by_cases present : start + position < stop
      · simp only [if_pos present]
        cases judged : read element with
        | error message =>
            rw [judged] at applied
            cases applied
            exact ⟨_, rfl, .rejected⟩
        | ok value =>
            rw [judged, advance_eq_ok next] at applied
            cases applied
            simp only [Nat.add_assoc, advance_eq_ok (by omega : position + 1 ≤ lastPosition)]
            exact ⟨_, rfl, .accepted (by omega)⟩
      · simp only [if_neg present]
        cases judged : read element with
        | error message =>
            rw [judged] at applied
            cases applied
            exact ⟨_, rfl, .rejected⟩
        | ok value =>
            rw [judged, advance_eq_ok next] at applied
            cases applied
            exact ⟨_, rfl, .beyond (by omega) fun _ => rfl⟩

/-- A literal that judges a position of the whole source judges it in the part as well. -/
theorem exists_recurs {part : Leaf ε α} (literal : part.Literal)
    (fits : source.size ≤ lastPosition) (within : start ≤ source.size)
    (inside : start + position ≤ stop) {context : Context} {far : Outcome α}
    (applied : part.apply source context (start + position) = .ok far)
    (context' : Context) :
    ∃ near, part.apply (source.extract start stop) context' position = .ok near ∧
      far.Recurs True start stop near := by
  have ordered : start ≤ stop := Nat.le_trans (Nat.le_add_right start position) inside
  cases part with
  | finish | skipWhile | custom => exact literal.elim
  | next read => exact next_recurs fits ordered within applied context'
  | accept value =>
      cases applied
      exact ⟨_, rfl, .accepted inside⟩
  | reject message =>
      cases applied
      exact ⟨_, rfl, .rejected⟩
  | window count agrees mismatch value =>
      cases applied
      exact ⟨_, rfl, compare_recurs fits ordered within⟩

end Leaf

variable {N : Nonterminals} {ε : Type} {Γ : List Type} {α β γ : Type}

/-- The source of the one setting is what stands between two positions in that of the
other. -/
structure Setting.Cut (whole part : Setting N ε Γ) (start stop : Nat) : Prop where
  source : part.input.source = whole.input.source.extract start stop
  fits : whole.size ≤ lastPosition
  within : start ≤ whole.size

theorem Setting.Cut.entered {whole part : Setting N ε Γ} {start stop : Nat}
    (cut : whole.Cut part start stop) (label : String) :
    (whole.entered label).Cut (part.entered label) start stop :=
  ⟨cut.source, cut.fits, cut.within⟩

namespace Rule

variable {setting whole part : Setting N ε Γ} {rule other : Rule N ε Γ α}
  {position start stop : Nat} {value : α} {strict : Prop}

/-! ## Rules that move forward -/

/-- Where the rule accepts, it consumes elements from the cursor on. -/
def Forward (rule : Rule N ε Γ α) : Prop :=
  ∀ ⦃setting : Setting N ε Γ⦄ ⦃position : Nat⦄ ⦃value : α⦄ ⦃stop : Nat⦄,
    rule.Yields setting position (.accepted value stop) →
      position ≤ stop ∧ stop ≤ max position setting.size

/-- A slice stops where its rule does. -/
theorem yields_slice_accepted_iff {elements : Array ε} :
    rule.slice.Yields setting position (.accepted elements stop) ↔
      ∃ value, rule.Yields setting position (.accepted value stop) ∧
        span? setting.input.source position stop = some elements := by
  rw [yields_slice_iff]
  refine ⟨fun holds => ?_, fun holds => ?_⟩
  · rcases holds with ⟨⟨value, reach⟩ | failures, yields, judged⟩
    · rw [Outcome.revise_accepted, Matcher.judgeSlice] at judged
      split at judged
      · rename_i found present
        cases judged
        exact ⟨value, yields, present⟩
      · cases judged
    · cases judged
  · rcases holds with ⟨value, yields, present⟩
    refine ⟨_, yields, ?_⟩
    rw [Outcome.revise_accepted, Matcher.judgeSlice, present]

/-- A named rule accepts what the rule accepts below its label. -/
theorem yields_path_accepted_iff {label : String} :
    (rule.path label).Yields setting position (.accepted value stop) ↔
      rule.Yields (setting.entered label) position (.accepted value stop) := by
  rw [yields_path_iff]
  refine ⟨fun holds => ?_, fun accepts => ⟨_, accepts, rfl⟩⟩
  rcases holds with ⟨⟨found, reach⟩ | failures, yields, same⟩ <;> cases same
  exact yields

theorem forward_leaf {leaf : Leaf ε α} (standard : leaf.Standard) :
    (.leaf leaf : Rule N ε Γ α).Forward := by
  intro setting position value stop accepts
  exact Leaf.plain_apply standard (yields_leaf_iff.mp accepts)

theorem Forward.map (forward : rule.Forward) (f : α → β) : (rule.map f).Forward := by
  intro setting position value stop accepts
  obtain ⟨_, accepts, _⟩ := yields_map_accepted_iff.mp accepts
  exact forward accepts

theorem Forward.path (forward : rule.Forward) (label : String) :
    (rule.path label).Forward := by
  intro setting position value stop accepts
  have between := forward (yields_path_accepted_iff.mp accepts)
  exact between

theorem Forward.traced (forward : rule.Forward) (label : String) :
    (rule.traced label).Forward := by
  intro setting position value stop accepts
  have between := forward (yields_traced_iff.mp accepts)
  exact between

theorem Forward.slice (forward : rule.Forward) : rule.slice.Forward := by
  intro setting position elements stop accepts
  obtain ⟨_, accepts, _⟩ := yields_slice_accepted_iff.mp accepts
  exact forward accepts

theorem Forward.orElse (forward : rule.Forward) (forwardOther : other.Forward) :
    (rule.orElse other).Forward := by
  intro setting position value stop accepts
  obtain ⟨kept, candidate, first, second, better⟩ := yields_orElse_iff.mp accepts
  obtain rfl | rfl := Outcome.eq_or_eq_of_best_eq_accepted better.symm
  · exact forward first
  · exact forwardOther second

theorem Forward.thenWith {next : Rule N ε Γ β} (forward : rule.Forward)
    (forwardNext : next.Forward) (combine : α → β → γ) :
    (rule.thenWith combine next).Forward := by
  intro setting position value stop accepts
  obtain ⟨_, middle, _, first, second, _⟩ := yields_thenWith_accepted_iff.mp accepts
  have between := forward first
  have between' := forwardNext second
  omega

end Rule

namespace Repetition

variable {setting : Setting N ε Γ} {repetition : Repetition N ε Γ} {item : Rule N ε Γ α}

theorem Attempt.forward {index position stop : Nat} {value : α}
    (separates : ∀ separator ∈ repetition.separator, separator.Forward)
    (repeats : item.Forward)
    (attempt : Attempt setting repetition item index position (.accepted value stop)) :
    position ≤ stop ∧ stop ≤ max position setting.size := by
  cases attempt with
  | plain _ attempted => exact repeats attempted
  | separated _ required separated attempted =>
      have between := separates _ required separated
      have between' := repeats attempted
      omega

theorem Successes.forward {start stop : Nat} {values : List α}
    (separates : ∀ separator ∈ repetition.separator, separator.Forward)
    (repeats : item.Forward)
    (successes : Successes setting repetition item start values stop) :
    start ≤ stop ∧ stop ≤ max start setting.size := by
  induction successes with
  | none => exact ⟨Nat.le_refl start, Nat.le_max_left start _⟩
  | more _ succeeds ih =>
      have between := succeeds.forward separates repeats
      omega

/-- A repetition accepts where its last success stopped. -/
theorem exists_successes_of_yields {start stop : Nat} {init result : β}
    {fold : β → α → β}
    (accepts : (item.foldMany repetition init fold).Yields setting start
      (.accepted result stop)) :
    ∃ values, Successes setting repetition item start values stop := by
  obtain ⟨_, comes, same⟩ := yields_foldMany_iff.mp accepts
  cases comes with
  | full successes | ended successes =>
      cases same
      exact ⟨_, successes⟩
  | short => cases same

end Repetition

namespace Rule

variable {rule other : Rule N ε Γ α} {strict : Prop}

theorem Forward.foldMany {repetition : Repetition N ε Γ}
    (separates : ∀ separator ∈ repetition.separator, separator.Forward)
    (repeats : rule.Forward) (init : β) (fold : β → α → β) :
    (rule.foldMany repetition init fold).Forward := by
  intro setting position value stop accepts
  obtain ⟨values, successes⟩ := Repetition.exists_successes_of_yields accepts
  exact successes.forward separates repeats

/-! ## Rules that come to the same in a part -/

/-- What the rule comes to in a source recurs in every part of it. -/
def Recurs (strict : Prop) (rule : Rule N ε Γ α) : Prop :=
  ∀ ⦃whole part : Setting N ε Γ⦄ ⦃start stop : Nat⦄, whole.Cut part start stop →
    ∀ ⦃position : Nat⦄ ⦃far : Outcome α⦄, start + position ≤ stop →
      rule.Yields whole (start + position) far →
        ∃ near, rule.Yields part position near ∧ far.Recurs strict start stop near

theorem recurs_leaf {leaf : Leaf ε α} (literal : leaf.Literal) :
    (.leaf leaf : Rule N ε Γ α).Recurs True := by
  intro whole part start stop cut position far inside yields
  obtain ⟨near, applied, recurs⟩ := Leaf.exists_recurs literal cut.fits cut.within inside
    (yields_leaf_iff.mp yields) part.context
  rw [← cut.source] at applied
  exact ⟨near, yields_leaf_iff.mpr applied, recurs⟩

theorem Recurs.loosen (recurs : rule.Recurs True) : rule.Recurs strict := by
  intro whole part start stop cut position far inside yields
  obtain ⟨near, yields', recurs⟩ := recurs cut inside yields
  exact ⟨near, yields', recurs.loosen⟩

theorem Recurs.map (recurs : rule.Recurs strict) (f : α → β) :
    (rule.map f).Recurs strict := by
  intro whole part start stop cut position far inside yields
  obtain ⟨found, first, rfl⟩ := yields_map_iff.mp yields
  obtain ⟨near, first', recurs⟩ := recurs cut inside first
  exact ⟨_, yields_map_iff.mpr ⟨near, first', rfl⟩, recurs.map f⟩

theorem Recurs.path (recurs : rule.Recurs strict) (label : String) :
    (rule.path label).Recurs strict := by
  intro whole part start stop cut position far inside yields
  obtain ⟨found, first, rfl⟩ := yields_path_iff.mp yields
  obtain ⟨near, first', recurs⟩ := recurs (cut.entered label) inside first
  exact ⟨_, yields_path_iff.mpr ⟨near, first', rfl⟩, recurs.withPath label⟩

theorem Recurs.traced (recurs : rule.Recurs strict) (label : String) :
    (rule.traced label).Recurs strict := by
  intro whole part start stop cut position far inside yields
  obtain ⟨near, yields', recurs⟩ :=
    recurs (cut.entered label) inside (yields_traced_iff.mp yields)
  exact ⟨near, yields_traced_iff.mpr yields', recurs⟩

/-- Between the positions where a rule starts and stops the same elements stand in the
part. A rule that stops behind the part still stops inside of the source. -/
theorem Recurs.slice (recurs : rule.Recurs strict) (forward : rule.Forward) :
    rule.slice.Recurs strict := by
  intro whole part start stop cut position far inside yields
  obtain ⟨found, first, rfl⟩ := yields_slice_iff.mp yields
  obtain ⟨near, first', recurs⟩ := recurs cut inside first
  refine ⟨_, yields_slice_iff.mpr ⟨near, first', rfl⟩, ?_⟩
  rw [cut.source]
  cases recurs with
  | rejected => exact .rejected
  | @accepted value reach ends =>
      have ordered : start ≤ stop := by omega
      simp only [Outcome.revise_accepted, Matcher.judgeSlice]
      rw [Leaf.span?_part ordered cut.within, if_pos ends]
      cases span? whole.input.source (start + position) (start + reach) with
      | none => exact .rejected
      | some elements => exact .accepted ends
  | @beyond value reach near behind lost =>
      have between := forward first
      have within : start + position ≤ reach ∧ reach ≤ whole.size := by omega
      have present := span?_eq_some_iff.mpr ⟨within, rfl⟩
      rw [Outcome.revise_accepted, Matcher.judgeSlice, present]
      exact .beyond behind fun asked => Outcome.isRejected_revise (lost asked)

theorem Recurs.orElse (recurs : rule.Recurs False) (recursOther : other.Recurs False) :
    (rule.orElse other).Recurs False := by
  intro whole part start stop cut position far inside yields
  obtain ⟨kept, candidate, first, second, rfl⟩ := yields_orElse_iff.mp yields
  obtain ⟨near, first', recurs⟩ := recurs cut inside first
  obtain ⟨near', second', recurs'⟩ := recursOther cut inside second
  exact ⟨_, yields_orElse_iff.mpr ⟨near, near', first', second', rfl⟩, recurs.best recurs'⟩

theorem Recurs.rejects (recurs : rule.Recurs strict) (cut : whole.Cut part start stop)
    (inside : start + position ≤ stop) {failures : Failures}
    (rejects : rule.Yields whole (start + position) (.rejected failures)) :
    rule.Rejects part position := by
  obtain ⟨near, rejects', recurs⟩ := recurs cut inside rejects
  cases recurs with
  | rejected => exact ⟨_, rejects'⟩

/-- What the rule accepts in a source it accepts in every part that holds it. -/
def MatchesAgain (rule : Rule N ε Γ α) : Prop :=
  ∀ ⦃whole part : Setting N ε Γ⦄ ⦃start stop : Nat⦄, whole.Cut part start stop →
    ∀ ⦃position : Nat⦄ ⦃value : α⦄ ⦃reach : Nat⦄, start + reach ≤ stop →
      rule.Yields whole (start + position) (.accepted value (start + reach)) →
        rule.Yields part position (.accepted value reach)

theorem Recurs.matchesAgain (recurs : rule.Recurs strict) (forward : rule.Forward) :
    rule.MatchesAgain := by
  intro whole part start stop cut position value reach inside accepts
  have between := forward accepts
  obtain ⟨near, accepts', recurs⟩ := recurs cut (by omega) accepts
  obtain ⟨reach', same, rfl⟩ := recurs.accepted_inside inside
  obtain rfl := Nat.add_left_cancel same
  exact accepts'

theorem MatchesAgain.map (again : rule.MatchesAgain) (f : α → β) :
    (rule.map f).MatchesAgain := by
  intro whole part start stop cut position value reach inside accepts
  obtain ⟨found, first, rfl⟩ := yields_map_accepted_iff.mp accepts
  exact yields_map_accepted_iff.mpr ⟨found, again cut inside first, rfl⟩

theorem MatchesAgain.path (again : rule.MatchesAgain) (label : String) :
    (rule.path label).MatchesAgain := by
  intro whole part start stop cut position value reach inside accepts
  exact yields_path_accepted_iff.mpr
    (again (cut.entered label) inside (yields_path_accepted_iff.mp accepts))

theorem MatchesAgain.traced (again : rule.MatchesAgain) (label : String) :
    (rule.traced label).MatchesAgain := by
  intro whole part start stop cut position value reach inside accepts
  exact yields_traced_iff.mpr (again (cut.entered label) inside (yields_traced_iff.mp accepts))

theorem MatchesAgain.slice (again : rule.MatchesAgain) : rule.slice.MatchesAgain := by
  intro whole part start stop cut position elements reach inside accepts
  obtain ⟨value, accepts, present⟩ := yields_slice_accepted_iff.mp accepts
  refine yields_slice_accepted_iff.mpr ⟨value, again cut inside accepts, ?_⟩
  rw [cut.source, Leaf.span?_part (by omega) cut.within, if_pos inside, present]

/-- A sequence is matched piece by piece: what the second rule consumes ends in the part, and
so does what the first one consumes before it. -/
theorem MatchesAgain.thenWith {next : Rule N ε Γ β} (again : rule.MatchesAgain)
    (againNext : next.MatchesAgain) (forward : rule.Forward) (forwardNext : next.Forward)
    (combine : α → β → γ) : (rule.thenWith combine next).MatchesAgain := by
  intro whole part start stop cut position result reach inside accepts
  obtain ⟨value, middle, last, first, second, same⟩ := yields_thenWith_accepted_iff.mp accepts
  have between := forward first
  have between' := forwardNext second
  obtain ⟨middle, rfl⟩ : ∃ later, middle = start + later := ⟨middle - start, by omega⟩
  exact yields_thenWith_accepted_iff.mpr ⟨value, middle, last, again cut (by omega) first,
    againNext cut inside second, same⟩

end Rule

namespace Repetition

variable {whole part : Setting N ε Γ} {repetition : Repetition N ε Γ} {item : Rule N ε Γ α}
  {start stop position : Nat}

/-- What is asked of the rules that a repetition attempts: a separator that does not fit in
the part has to fail there. -/
structure Recurring (repetition : Repetition N ε Γ) (item : Rule N ε Γ α) : Prop where
  separates : ∀ separator ∈ repetition.separator, separator.Forward ∧ separator.Recurs True
  forward : item.Forward
  recurs : item.Recurs False

theorem Attempt.matches_again {index reach : Nat} {value : α}
    (recurring : repetition.Recurring item) (cut : whole.Cut part start stop)
    (inside : start + reach ≤ stop)
    (attempt : Attempt whole repetition item index (start + position)
      (.accepted value (start + reach))) :
    Attempt part repetition item index position (.accepted value reach) := by
  have again := recurring.recurs.matchesAgain recurring.forward
  cases attempt with
  | plain alone attempted => exact .plain alone (again cut inside attempted)
  | @separated separator middle _ later required separated attempted =>
      obtain ⟨forward, recurs⟩ := recurring.separates separator required
      have between := forward separated
      have between' := recurring.forward attempted
      obtain ⟨middle, rfl⟩ : ∃ later, middle = start + later := ⟨middle - start, by omega⟩
      exact .separated later required
        (recurs.matchesAgain forward cut (by omega) separated) (again cut inside attempted)

/-- The attempt that ended a repetition fails in the part too. Its separator may have been
found behind the part; then it is missing now. -/
theorem Attempt.fails_again {index : Nat} {failures : Failures}
    (recurring : repetition.Recurring item) (cut : whole.Cut part start stop)
    (inside : start + position ≤ stop)
    (attempt : Attempt whole repetition item index (start + position) (.rejected failures)) :
    ∃ failures', Attempt part repetition item index position (.rejected failures') := by
  cases attempt with
  | plain alone fails =>
      obtain ⟨failures', fails'⟩ := recurring.recurs.rejects cut inside fails
      exact ⟨failures', .plain alone fails'⟩
  | @separated separator middle _ later required separated fails =>
      obtain ⟨_, recurs⟩ := recurring.separates separator required
      obtain ⟨near, yields, recurs⟩ := recurs cut inside separated
      cases recurs with
      | accepted inside' =>
          obtain ⟨failures', fails'⟩ := recurring.recurs.rejects cut inside' fails
          exact ⟨failures', .separated later required yields fails'⟩
      | beyond _ lost =>
          cases near with
          | accepted => cases lost trivial
          | rejected => exact ⟨_, .unseparated later required yields⟩
  | unseparated later required fails =>
      obtain ⟨_, recurs⟩ := recurring.separates _ required
      obtain ⟨failures', fails'⟩ := recurs.rejects cut inside fails
      exact ⟨failures', .unseparated later required fails'⟩

theorem Successes.match_again {values : List α} {reached : Nat}
    (recurring : repetition.Recurring item) (cut : whole.Cut part start stop)
    (inside : reached ≤ stop)
    (successes : Successes whole repetition item (start + position) values reached) :
    ∃ reach, reached = start + reach ∧
      Successes part repetition item position values reach := by
  induction successes with
  | none => exact ⟨position, rfl, .none⟩
  | @more values middle reached value successes succeeds ih =>
      have between := succeeds.forward (fun separator required =>
        (recurring.separates separator required).1) recurring.forward
      obtain ⟨middle, rfl, successes'⟩ := ih (by omega)
      obtain ⟨reach, rfl⟩ : ∃ later, reached = start + later := ⟨reached - start, by omega⟩
      exact ⟨reach, rfl, successes'.more (succeeds.matches_again recurring cut inside)⟩

end Repetition

namespace Rule

variable {rule : Rule N ε Γ α}

/-- The same attempts succeed, and the one that ended the repetition fails again. -/
theorem MatchesAgain.foldMany {repetition : Repetition N ε Γ}
    (recurring : repetition.Recurring rule) (init : β) (fold : β → α → β) :
    (rule.foldMany repetition init fold).MatchesAgain := by
  intro whole part start stop cut position result reach inside accepts
  obtain ⟨found, comes, same⟩ := Repetition.yields_foldMany_iff.mp accepts
  cases comes with
  | full successes ceiling =>
      cases same
      obtain ⟨reach', same, successes'⟩ := successes.match_again recurring cut inside
      obtain rfl := Nat.add_left_cancel same
      exact Repetition.yields_foldMany_iff.mpr ⟨_, .full successes' ceiling, rfl⟩
  | ended successes room fails enough =>
      cases same
      obtain ⟨reach', same, successes'⟩ := successes.match_again recurring cut inside
      obtain rfl := Nat.add_left_cancel same
      obtain ⟨_, fails'⟩ := fails.fails_again recurring cut inside
      exact Repetition.yields_foldMany_iff.mpr ⟨_, .ended successes' room fails' enough, rfl⟩
  | short => cases same

/-! ## Literals, choices and phrases -/

/-- A leaf that looks at no more than it consumes, its value or failures changed. -/
inductive Literal : {α : Type} → Rule N ε Γ α → Prop
  | leaf {α : Type} {part : Leaf ε α} (literal : part.Literal) : Literal (.leaf part)
  | map {α β : Type} {rule : Rule N ε Γ α} (f : α → β) (literal : rule.Literal) :
      Literal (rule.map f)
  | path {α : Type} {rule : Rule N ε Γ α} (label : String) (literal : rule.Literal) :
      Literal (rule.path label)
  | traced {α : Type} {rule : Rule N ε Γ α} (label : String) (literal : rule.Literal) :
      Literal (rule.traced label)
  | slice {α : Type} {rule : Rule N ε Γ α} (literal : rule.Literal) : Literal rule.slice

/-- Literals and alternatives between them. -/
inductive Choice : {α : Type} → Rule N ε Γ α → Prop
  | literal {α : Type} {rule : Rule N ε Γ α} (literal : rule.Literal) : Choice rule
  | orElse {α : Type} {rule other : Rule N ε Γ α} (choice : rule.Choice)
      (choiceOther : other.Choice) : Choice (rule.orElse other)
  | map {α β : Type} {rule : Rule N ε Γ α} (f : α → β) (choice : rule.Choice) :
      Choice (rule.map f)
  | path {α : Type} {rule : Rule N ε Γ α} (label : String) (choice : rule.Choice) :
      Choice (rule.path label)
  | traced {α : Type} {rule : Rule N ε Γ α} (label : String) (choice : rule.Choice) :
      Choice (rule.traced label)
  | slice {α : Type} {rule : Rule N ε Γ α} (choice : rule.Choice) : Choice rule.slice

/-- Choices in sequence and repeated, with literals between the repeated ones. -/
inductive Phrase : {α : Type} → Rule N ε Γ α → Prop
  | choice {α : Type} {rule : Rule N ε Γ α} (choice : rule.Choice) : Phrase rule
  | thenWith {α β γ : Type} {rule : Rule N ε Γ α} {next : Rule N ε Γ β}
      (combine : α → β → γ) (phrase : rule.Phrase) (phraseNext : next.Phrase) :
      Phrase (rule.thenWith combine next)
  | repeated {α β : Type} {separator : Rule N ε Γ Unit} {item : Rule N ε Γ α}
      (bounds : Bounds) (init : β) (fold : β → α → β) (separates : separator.Literal)
      (repeats : item.Choice) : Phrase (.repeated bounds separator item init fold)
  | map {α β : Type} {rule : Rule N ε Γ α} (f : α → β) (phrase : rule.Phrase) :
      Phrase (rule.map f)
  | path {α : Type} {rule : Rule N ε Γ α} (label : String) (phrase : rule.Phrase) :
      Phrase (rule.path label)
  | traced {α : Type} {rule : Rule N ε Γ α} (label : String) (phrase : rule.Phrase) :
      Phrase (rule.traced label)
  | slice {α : Type} {rule : Rule N ε Γ α} (phrase : rule.Phrase) : Phrase rule.slice

theorem Literal.forward {rule : Rule N ε Γ α} (literal : rule.Literal) : rule.Forward := by
  induction literal with
  | leaf literal => exact forward_leaf (Leaf.standard_of_literal literal)
  | map f _ ih => exact ih.map f
  | path label _ ih => exact ih.path label
  | traced label _ ih => exact ih.traced label
  | slice _ ih => exact ih.slice

theorem Literal.recurs {rule : Rule N ε Γ α} (literal : rule.Literal) :
    rule.Recurs True := by
  induction literal with
  | leaf literal => exact recurs_leaf literal
  | map f _ ih => exact ih.map f
  | path label _ ih => exact ih.path label
  | traced label _ ih => exact ih.traced label
  | slice literal ih => exact ih.slice literal.forward

theorem Choice.forward {rule : Rule N ε Γ α} (choice : rule.Choice) : rule.Forward := by
  induction choice with
  | literal literal => exact literal.forward
  | orElse _ _ ih ihOther => exact ih.orElse ihOther
  | map f _ ih => exact ih.map f
  | path label _ ih => exact ih.path label
  | traced label _ ih => exact ih.traced label
  | slice _ ih => exact ih.slice

theorem Choice.recurs {rule : Rule N ε Γ α} (choice : rule.Choice) :
    rule.Recurs False := by
  induction choice with
  | literal literal => exact literal.recurs.loosen
  | orElse _ _ ih ihOther => exact ih.orElse ihOther
  | map f _ ih => exact ih.map f
  | path label _ ih => exact ih.path label
  | traced label _ ih => exact ih.traced label
  | slice choice ih => exact ih.slice choice.forward

/-- A repetition has the separator that stands between its items. -/
theorem repeated_eq_foldMany (bounds : Bounds) (separator : Rule N ε Γ Unit)
    (item : Rule N ε Γ α) (init : β) (fold : β → α → β) :
    .repeated bounds separator item init fold =
      item.foldMany ⟨bounds, some separator⟩ init fold := rfl

theorem Literal.recurring {bounds : Bounds} {separator : Rule N ε Γ Unit}
    {item : Rule N ε Γ α} (separates : separator.Literal) (repeats : item.Choice) :
    Repetition.Recurring ⟨bounds, some separator⟩ item := by
  refine ⟨?_, repeats.forward, repeats.recurs⟩
  rintro _ ⟨⟩
  exact ⟨separates.forward, separates.recurs⟩

theorem Phrase.forward {rule : Rule N ε Γ α} (phrase : rule.Phrase) : rule.Forward := by
  induction phrase with
  | choice choice => exact choice.forward
  | thenWith combine _ _ ih ihNext => exact ih.thenWith ihNext combine
  | @repeated _ _ separator item bounds init fold separates repeats =>
      rw [repeated_eq_foldMany]
      have recurring : Repetition.Recurring ⟨bounds, some separator⟩ item :=
        separates.recurring repeats
      exact .foldMany (fun separator required => (recurring.separates separator required).1)
        recurring.forward init fold
  | map f _ ih => exact ih.map f
  | path label _ ih => exact ih.path label
  | traced label _ ih => exact ih.traced label
  | slice _ ih => exact ih.slice

theorem Phrase.matchesAgain {rule : Rule N ε Γ α} (phrase : rule.Phrase) :
    rule.MatchesAgain := by
  induction phrase with
  | choice choice => exact choice.recurs.matchesAgain choice.forward
  | thenWith combine phrase phraseNext ih ihNext =>
      exact ih.thenWith ihNext phrase.forward phraseNext.forward combine
  | repeated bounds init fold separates repeats =>
      rw [repeated_eq_foldMany]
      exact .foldMany (separates.recurring repeats) init fold
  | map f _ ih => exact ih.map f
  | path label _ ih => exact ih.path label
  | traced label _ ih => exact ih.traced label
  | slice _ ih => exact ih.slice

theorem Choice.fork {first : Rule N ε Γ α} {others : List (Rule N ε Γ α)}
    (choice : first.Choice) (choices : ∀ rule ∈ others, rule.Choice) :
    (fork first others).Choice := by
  unfold Rule.fork
  induction others generalizing first with
  | nil => exact choice
  | cons other others ih =>
      rw [List.forall_mem_cons] at choices
      exact ih (choice.orElse choices.1) choices.2

theorem Choice.optional {rule : Rule N ε Γ α} (choice : rule.Choice) : rule.optional.Choice :=
  (choice.map some).orElse (.literal (.leaf trivial))

/-- Nothing between the repeated rules counts as a literal. -/
theorem Phrase.foldMany {repetition : Repetition N ε Γ} {item : Rule N ε Γ α}
    (repeats : item.Choice) (separates : ∀ separator ∈ repetition.separator, separator.Literal)
    (init : β) (fold : β → α → β) : (item.foldMany repetition init fold).Phrase := by
  refine .repeated _ init fold ?_ repeats
  cases separated : repetition.separator with
  | none => exact .leaf trivial
  | some separator => exact separates separator separated

/-- What a phrase accepts is a part of the source, and applied to that part alone the phrase
accepts all of it with the same value. The rules around and the labels do not matter. -/
theorem consumed_matches_again {rule : Rule N ε Γ α} (phrase : rule.Phrase)
    {whole : Setting N ε Γ} (fits : whole.size ≤ lastPosition) {position stop : Nat}
    (inside : position ≤ whole.size) {value : α}
    (accepts : rule.Yields whole position (.accepted value stop)) {part : Setting N ε Γ}
    (consumed : part.input.source = whole.input.source.extract position stop) :
    position ≤ stop ∧ part.size = stop - position ∧
      rule.Yields part 0 (.accepted value (stop - position)) := by
  have between := phrase.forward accepts
  have cut : whole.Cut part position stop := ⟨consumed, fits, inside⟩
  obtain ⟨length, rfl⟩ : ∃ length, stop = position + length := ⟨stop - position, by omega⟩
  refine ⟨between.1, ?_, ?_⟩
  · unfold Setting.size at between inside ⊢
    rw [consumed, Array.size_extract]
    omega
  · rw [Nat.add_sub_cancel_left]
    exact phrase.matchesAgain cut (Nat.le_refl _) accepts

theorem literal_nextIf (holds : ε → Bool) : (nextIf holds : Rule N ε Γ ε).Literal :=
  .leaf trivial

end Rule

namespace Lexer

open Rule

variable {N : Nonterminals} {Γ : List Type} {α : Type}

theorem literal_literal (text : String) : (literal text : Rule N Grapheme Γ Unit).Literal :=
  .leaf trivial

theorem literal_keyword (tag : α) (display : String) :
    (keyword tag display : Rule N Grapheme Γ α).Literal :=
  (literal_literal display).map _

/-- Letters with commas between them, where an `a` may have a `b` behind it that counts as
well, and perhaps an exclamation mark at the end. -/
def countedLetters : Rule .none Grapheme [] (Array Nat × Option Grapheme) :=
  ((fork (keyword 1 "a") [keyword 2 "ab"]).collect
    (.separatedBy (literal ",") .any)).thenWith Prod.mk (nextIf (· = "!")).optional

theorem phrase_countedLetters : countedLetters.Phrase := by
  refine .thenWith _ (.foldMany ?_ ?_ _ _) (.choice (.optional (.literal (literal_nextIf _))))
  · refine .fork (.literal (literal_keyword 1 "a")) ?_
    simp only [List.forall_mem_singleton]
    exact .literal (literal_keyword 2 "ab")
  · rintro _ ⟨⟩
    exact (literal_literal ",").map _

/-- The comma behind the last letter ends the repetition in the whole text. In the part it
is missing. -/
theorem countedLetters_match_again :
    let whole : Setting .none Grapheme [] :=
      ⟨⟨#["x", "a", "b", ",", "a", ",", "x"], .empty, .off⟩, .nil, ∅⟩
    let part : Setting .none Grapheme [] := ⟨⟨#["a", "b", ",", "a"], .empty, .off⟩, .nil, ∅⟩
    countedLetters.Phrase ∧ whole.size ≤ lastPosition ∧ 1 ≤ whole.size ∧
      countedLetters.Yields whole 1 (.accepted (#[2, 1], none) 5) ∧
      part.input.source = whole.input.source.extract 1 5 ∧
      countedLetters.Yields part 0 (.accepted (#[2, 1], none) 4) := by
  intro whole part
  have fits : whole.size ≤ lastPosition := by decide
  have inside : 1 ≤ whole.size := by decide
  have accepts : countedLetters.Yields whole 1 (.accepted (#[2, 1], none) 5) :=
    yields_iff_apply.mpr ⟨3, _, rfl⟩
  have consumed : part.input.source = whole.input.source.extract 1 5 := rfl
  obtain ⟨-, -, accepts'⟩ :=
    consumed_matches_again phrase_countedLetters fits inside accepts consumed
  exact ⟨phrase_countedLetters, fits, inside, accepts, consumed, accepts'⟩

end Lexer

end Rulebook
