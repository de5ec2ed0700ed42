/-
# Arithmetic that may fail

A position is a 64-bit word, so an addition may have no result, and elements are taken from
a source by two positions, which have to be positions of the source in their order. This
module interprets rules once more, with every addition and every such access failing
outright where it is not defined, and shows that none ever fails. It does not matter where
leaves written by hand stop: what reads on from a position compares it with the end of the
source first, and then there is a next one.

The same is done for the ranges that a printer asks a source map for.
-/

import Rulebook.Diagnostics.Printer
import Rulebook.Proofs.ByteRanges
import Rulebook.Proofs.Reach

namespace Rulebook

/-! ## Rules that fail instead of leaving the numbers -/

/-- The elements of `source` from `start` up to `stop`. Like an addition without a result,
this ends the application unless both are positions of the source in this order. -/
def takePart {ε : Type} (source : Array ε) (start stop : Nat) : Except Halt (Array ε) :=
  if start ≤ stop ∧ stop ≤ source.size then .ok (source.extract start stop)
  else .error .overflow

namespace Leaf

variable {ε α : Type}

/-- Like `compare`. The addition is tried, and the parts of the source are asked for only
where the positions were compared before. -/
def compareChecked (source : Array ε) (size : Nat) (agrees : Array ε → Bool)
    (mismatch : Array ε → String) (value : α) (position : Nat) :
    Except Halt (Outcome α) :=
  match advance position size with
  | .error _ => .ok (.reject (outOfRange source.size position) position)
  | .ok stop => do
    if position ≤ stop ∧ stop ≤ source.size then
      let found ← takePart source position stop
      return if agrees found then .accepted value stop
        else .reject (mismatch found) position
    else if position ≤ source.size then
      let rest ← takePart source position source.size
      return .reject (mismatch rest) position
    else
      return .reject (mismatch #[]) position

/-- What a leaf comes to, with arithmetic that may fail. Where leaves go on by one element,
`apply` tries the addition already. -/
def applyChecked (leaf : Leaf ε α) (source : Array ε) (context : Context)
    (position : Nat) : Except Halt (Outcome α) :=
  match leaf with
  | .window size agrees mismatch value =>
    compareChecked source size agrees mismatch value position
  | leaf => leaf.apply source context position

end Leaf

namespace Matcher

variable {ε α : Type}

/-- Like `leaf`, with arithmetic that may fail. -/
def leafChecked (source : Array ε) (leaf : Leaf ε α) : Matcher α :=
  fun session position => do
    let outcome ← leaf.applyChecked source session.context position
    return (outcome, session)

/-- Like `slice`. The elements are taken where the positions were compared before. -/
def sliceChecked (source : Array ε) (matcher : Matcher α) : Matcher (Array ε) :=
  fun session position => do
    match ← matcher session position with
    | (.accepted _ stop, session) =>
      if position ≤ stop ∧ stop ≤ source.size then
        let elements ← takePart source position stop
        return (.accepted elements stop, session)
      else return (.reject (outOfRange source.size stop) position, session)
    | (.rejected failures, session) => return (.rejected failures, session)

end Matcher

variable {N : Nonterminals} {ε : Type}

namespace Rule

/-- Interpret a rule by its structure, as `interpret` does, with arithmetic that may
fail. -/
def interpretChecked (input : Input N ε) (again : Interpretation N ε) (steps : Nat) :
    {Γ : List Type} → {α : Type} → Rule N ε Γ α → Env N ε Γ → (frame : Nat) →
      Matcher α
  | _, _, .leaf part, _, _ => .leafChecked input.source part
  | _, _, .unfinished rule, env, frame =>
    .unfinished input.source.size (rule.interpretChecked input again steps env frame)
  | _, _, .map f rule, env, frame =>
    .map f (rule.interpretChecked input again steps env frame)
  | _, _, .flatMap rule next, env, frame =>
    .flatMap (rule.interpretChecked input again steps env frame)
      fun value => (next value).interpretChecked input again steps env frame
  | _, _, .thenWith combine rule next, env, frame =>
    .thenWith combine (rule.interpretChecked input again steps env frame)
      (next.interpretChecked input again steps env frame)
  | _, _, .nonEmpty rule, env, frame =>
    .nonEmpty (rule.interpretChecked input again steps env frame)
  | _, _, .path label rule, env, frame =>
    .path label (rule.interpretChecked input again steps env frame)
  | _, _, .traced label rule, env, frame =>
    .traced input.verbosity label (rule.interpretChecked input again steps env frame)
  | _, _, .orElse rule other, env, frame =>
    .orElse (rule.interpretChecked input again steps env frame)
      (other.interpretChecked input again steps env frame)
  | _, _, .slice rule, env, frame =>
    .sliceChecked input.source (rule.interpretChecked input again steps env frame)
  | _, _, .spanned rule, env, frame =>
    .spanned (rule.interpretChecked input again steps env frame)
  | _, _, .repeated bounds separator item init fold, env, frame =>
    .repeated bounds (separator.interpretChecked input again steps env frame)
      (item.interpretChecked input again steps env frame) init fold steps
  | _, _, .deferred number name, _, frame =>
    again.deferred input.grammar ⟨frame, number⟩ name
  | _, _, .delayed number rule, env, frame =>
    .framed (Cells.frameOf ⟨frame, number⟩)
      fun _ => rule.interpretChecked input again steps env frame
  | _, _, .fresh rule, env, _ =>
    .framed Cells.openFrame fun frame => rule.interpretChecked input again steps env frame
  | _, _, .reference place, env, _ => again.reference env place
  | _, _, .recursive body, env, frame =>
    body.interpretChecked input again steps (.cons (.defined body) frame env) frame

/-- Apply rules with an allowance of steps and with arithmetic that may fail. -/
def applyChecked (input : Input N ε) : (steps : Nat) → Interpretation N ε
  | 0 => fun _ _ _ => .halted .exhausted
  | steps + 1 => fun rule env frame =>
    rule.interpretChecked input (applyChecked input steps) (steps + 1) env frame

end Rule

/-! ## No part is taken out of range -/

theorem takePart_eq {source : Array ε} {start stop : Nat}
    (ordered : start ≤ stop ∧ stop ≤ source.size) :
    takePart source start stop = .ok (source.extract start stop) :=
  if_pos ordered

namespace Leaf

variable {α : Type} {source : Array ε}

theorem compareChecked_eq (size : Nat) (agrees : Array ε → Bool)
    (mismatch : Array ε → String) (value : α) (position : Nat) :
    compareChecked source size agrees mismatch value position =
      .ok (compare source size agrees mismatch value position) := by
  unfold compareChecked compare advance
  by_cases representable : position + size ≤ lastPosition
  · simp only [if_pos representable]
    by_cases ordered : position ≤ position + size ∧ position + size ≤ source.size
    · simp only [if_pos ordered, takePart_eq ordered, span?_eq_some ordered]
      rfl
    · simp only [if_neg ordered, span?_eq_none ordered]
      -- A message shows what is left of the source, which is nothing behind its end.
      by_cases inside : position ≤ source.size
      · simp only [if_pos inside, takePart_eq ⟨inside, Nat.le_refl _⟩]
        rfl
      · have nothing : source.extract position source.size = #[] := by
          rw [Array.extract_eq_empty_iff]
          omega
        simp only [if_neg inside, nothing]
        rfl
  · simp only [if_neg representable]

theorem applyChecked_eq (part : Leaf ε α) (context : Context) (position : Nat) :
    part.applyChecked source context position = part.apply source context position := by
  cases part with
  | window size agrees mismatch value => exact compareChecked_eq _ _ _ _ _
  | accept | reject | next | finish | skipWhile | custom => rfl

end Leaf

namespace Matcher

variable {α : Type}

theorem leafChecked_eq (source : Array ε) (part : Leaf ε α) :
    leafChecked source part = leaf source part := by
  funext session position
  rw [leafChecked, leaf, Leaf.applyChecked_eq]

theorem sliceChecked_eq (source : Array ε) (matcher : Matcher α) :
    matcher.sliceChecked source = matcher.slice source := by
  funext session position
  unfold sliceChecked slice
  cases matcher session position with
  | error cause => rfl
  | ok reached =>
      obtain ⟨⟨value, stop⟩ | failures, after⟩ := reached
      · by_cases ordered : position ≤ stop ∧ stop ≤ source.size
        · simp only [bind, Except.bind, if_pos ordered, takePart_eq ordered,
            span?_eq_some ordered]
        · simp only [bind, Except.bind, if_neg ordered, span?_eq_none ordered]
      · rfl

/-! ## No addition is without a result -/

variable {β : Type} {matcher other : Matcher α}

/-- No addition that the matcher makes is without a result. -/
def NeverOverflows (matcher : Matcher α) : Prop :=
  ∀ session position, matcher session position ≠ .error .overflow

/-- A computation that goes on from another one does not overflow if neither does. -/
theorem bind_ne_overflow {first : Except Halt α} {next : α → Except Halt β}
    (never : first ≠ .error .overflow)
    (neverNext : ∀ value, first = .ok value → next value ≠ .error .overflow) :
    (first >>= next) ≠ .error .overflow := by
  cases first with
  | error cause =>
      intro overflows
      cases overflows
      exact never rfl
  | ok value => exact neverNext value rfl

theorem NeverOverflows.revised {judge : Nat → α → Nat → Outcome β}
    (never : matcher.NeverOverflows) : (matcher.revised judge).NeverOverflows := by
  intro session position
  refine bind_ne_overflow (never session position) ?_
  rintro ⟨outcome, after⟩ _ ⟨⟩

theorem NeverOverflows.flatMap {next : α → Matcher β} (never : matcher.NeverOverflows)
    (neverNext : ∀ value, (next value).NeverOverflows) :
    (matcher.flatMap next).NeverOverflows := by
  intro session position
  refine bind_ne_overflow (never session position) ?_
  rintro ⟨⟨value, stop⟩ | failures, between⟩ _
  · exact neverNext value between stop
  · rintro ⟨⟩

theorem NeverOverflows.thenWith {γ : Type} {next : Matcher β}
    (never : matcher.NeverOverflows) (neverNext : next.NeverOverflows)
    (combine : α → β → γ) : (matcher.thenWith combine next).NeverOverflows := by
  rw [thenWith_eq_flatMap]
  refine never.flatMap fun value => ?_
  rw [map_eq_revised]
  exact neverNext.revised

theorem NeverOverflows.unfinished (never : matcher.NeverOverflows) (size : Nat) :
    (matcher.unfinished size).NeverOverflows := by
  intro session position
  unfold Matcher.unfinished
  split
  · exact never session position
  · rintro ⟨⟩

theorem NeverOverflows.path (never : matcher.NeverOverflows) (label : String) :
    (matcher.path label).NeverOverflows := by
  intro session position
  refine bind_ne_overflow (never _ position) ?_
  rintro ⟨outcome, inner⟩ _ ⟨⟩

theorem NeverOverflows.traced (never : matcher.NeverOverflows) (verbosity : Verbosity)
    (label : String) : (matcher.traced verbosity label).NeverOverflows := by
  intro session position
  refine bind_ne_overflow (never _ position) ?_
  rintro ⟨outcome, inner⟩ _ ⟨⟩

theorem NeverOverflows.orElse (never : matcher.NeverOverflows)
    (neverOther : other.NeverOverflows) : (matcher.orElse other).NeverOverflows := by
  intro session position
  refine bind_ne_overflow (never session position) ?_
  rintro ⟨outcome, between⟩ _
  refine bind_ne_overflow (neverOther between position) ?_
  rintro ⟨candidate, after⟩ _ ⟨⟩

/-- The rounds of a repetition count matches, and no positions. -/
theorem NeverOverflows.repeatFrom {bounds : Bounds} {item next : Matcher α}
    (never : item.NeverOverflows) (neverNext : next.NeverOverflows) (fold : β → α → β)
    (steps count : Nat) (acc : β) :
    (Matcher.repeatFrom bounds item next fold steps count acc).NeverOverflows := by
  induction steps generalizing count acc with
  | zero => rintro session position ⟨⟩
  | succ steps ih =>
      intro session position
      have attempt : (if count = 0 then item else next) session position ≠
          .error .overflow := by
        split
        · exact never session position
        · exact neverNext session position
      unfold Matcher.repeatFrom
      split
      · rintro ⟨⟩
      · cases attempted : (if count = 0 then item else next) session position with
        | error cause =>
            rintro ⟨⟩
            exact attempt attempted
        | ok reached =>
            obtain ⟨⟨value, stop⟩ | failures, between⟩ := reached
            · exact ih _ _ between stop
            · dsimp only
              split <;> rintro ⟨⟩

end Matcher

namespace Leaf

variable {α : Type} {source : Array ε}

theorem neverOverflows (fits : source.size ≤ lastPosition) (part : Leaf ε α) :
    (Matcher.leaf source part).NeverOverflows := by
  intro session position overflows
  obtain ⟨outcome, judged⟩ := exists_apply fits part session.context position
  rw [Matcher.leaf, judged] at overflows
  cases overflows

end Leaf

namespace Rule

open Matcher

/-- Arithmetic that may fail makes no difference if it makes none for the rules that
references and names lead to. -/
theorem interpretChecked_eq {input : Input N ε} {again again' : Interpretation N ε}
    (same : ∀ {Γ : List Type} {α : Type} (rule : Rule N ε Γ α) (env : Env N ε Γ)
      (frame : Nat), again' rule env frame = again rule env frame)
    (steps : Nat) {Γ : List Type} {α : Type} (rule : Rule N ε Γ α) (env : Env N ε Γ)
    (frame : Nat) :
    rule.interpretChecked input again' steps env frame =
      rule.interpret input again steps env frame := by
  induction rule generalizing frame with
  | leaf part => exact leafChecked_eq _ _
  | unfinished rule ih => exact congrArg (Matcher.unfinished _) (ih env frame)
  | map f rule ih => exact congrArg (Matcher.map f) (ih env frame)
  | flatMap rule next ih ihNext =>
      exact congrArg₂ Matcher.flatMap (ih env frame)
        (funext fun value => ihNext value env frame)
  | thenWith combine rule next ih ihNext =>
      exact congrArg₂ (Matcher.thenWith combine) (ih env frame) (ihNext env frame)
  | nonEmpty rule ih => exact congrArg Matcher.nonEmpty (ih env frame)
  | path label rule ih => exact congrArg (Matcher.path label) (ih env frame)
  | traced label rule ih => exact congrArg (Matcher.traced _ label) (ih env frame)
  | orElse rule other ih ihOther =>
      exact congrArg₂ Matcher.orElse (ih env frame) (ihOther env frame)
  | slice rule ih =>
      exact (sliceChecked_eq _ _).trans (congrArg (Matcher.slice _) (ih env frame))
  | spanned rule ih => exact congrArg Matcher.spanned (ih env frame)
  | repeated bounds separator item init fold ihSeparator ihItem =>
      exact congrArg₂
        (fun separator item => Matcher.repeated bounds separator item init fold steps)
        (ihSeparator env frame) (ihItem env frame)
  | deferred number name =>
      have agree (rule : Rule N ε [] (N.Value name)) : again' rule .nil = again rule .nil :=
        funext fun frame => same rule .nil frame
      show again'.deferred _ _ name = again.deferred _ _ name
      unfold Interpretation.deferred
      simp only [agree]
  | delayed number rule ih =>
      exact congrArg (Matcher.framed _) (funext fun _ => ih env frame)
  | fresh rule ih =>
      exact congrArg (Matcher.framed Cells.openFrame) (funext fun frame => ih env frame)
  | reference place =>
      show again'.reference env place = again.reference env place
      unfold Interpretation.reference
      simp only [same]
  | recursive body ih => exact ih _ frame

theorem applyChecked_eq (input : Input N ε) (steps : Nat) {Γ : List Type} {α : Type}
    (rule : Rule N ε Γ α) (env : Env N ε Γ) (frame : Nat) :
    applyChecked input steps rule env frame = apply input steps rule env frame := by
  induction steps generalizing Γ α frame with
  | zero => rfl
  | succ steps ih =>
      exact interpretChecked_eq (fun rule env frame => ih rule env frame) _ rule env frame

/-- No rule overflows if those that references and names lead to do not. -/
theorem neverOverflows_interpret {input : Input N ε}
    (fits : input.source.size ≤ lastPosition) {again : Interpretation N ε}
    (never : ∀ {Γ : List Type} {α : Type} (rule : Rule N ε Γ α) (env : Env N ε Γ)
      (frame : Nat), (again rule env frame).NeverOverflows)
    (steps : Nat) {Γ : List Type} {α : Type} (rule : Rule N ε Γ α) (env : Env N ε Γ)
    (frame : Nat) : (rule.interpret input again steps env frame).NeverOverflows := by
  induction rule generalizing frame with
  | leaf part => exact part.neverOverflows fits
  | unfinished rule ih => exact (ih env frame).unfinished _
  | map f rule ih =>
      show (Matcher.map f _).NeverOverflows
      rw [map_eq_revised]
      exact (ih env frame).revised
  | flatMap rule next ih ihNext =>
      exact (ih env frame).flatMap fun value => ihNext value env frame
  | thenWith combine rule next ih ihNext =>
      exact (ih env frame).thenWith (ihNext env frame) combine
  | nonEmpty rule ih =>
      show (Matcher.nonEmpty _).NeverOverflows
      rw [nonEmpty_eq_revised]
      exact (ih env frame).revised
  | path label rule ih => exact (ih env frame).path label
  | traced label rule ih => exact (ih env frame).traced _ label
  | orElse rule other ih ihOther => exact (ih env frame).orElse (ihOther env frame)
  | slice rule ih =>
      show (Matcher.slice _ _).NeverOverflows
      rw [slice_eq_revised]
      exact (ih env frame).revised
  | spanned rule ih =>
      show (Matcher.spanned _).NeverOverflows
      rw [spanned_eq_revised]
      exact (ih env frame).revised
  | repeated bounds separator item init fold ihSeparator ihItem =>
      exact (ihItem env frame).repeatFrom
        ((ihSeparator env frame).thenWith (ihItem env frame) _) fold steps 0 init
  | deferred number name =>
      show (again.deferred _ _ name).NeverOverflows
      unfold Interpretation.deferred
      split
      · rintro session position ⟨⟩
      · exact fun session position => never _ _ _ _ position
  | delayed number rule ih => exact fun session position => ih env frame _ position
  | fresh rule ih => exact fun session position => ih env _ _ position
  | reference place =>
      show (again.reference env place).NeverOverflows
      unfold Interpretation.reference
      split
      · rintro session position ⟨⟩
      · exact never _ _ _
      · rintro session position ⟨⟩
  | recursive body ih => exact ih _ frame

theorem neverOverflows_apply {input : Input N ε}
    (fits : input.source.size ≤ lastPosition) (steps : Nat) {Γ : List Type} {α : Type}
    (rule : Rule N ε Γ α) (env : Env N ε Γ) (frame : Nat) :
    (apply input steps rule env frame).NeverOverflows := by
  induction steps generalizing Γ α frame with
  | zero => rintro session position ⟨⟩
  | succ steps ih =>
      exact neverOverflows_interpret fits (fun rule env frame => ih rule env frame) _ rule
        env frame

end Rule

/-! ## Every position that is reached exists -/

/-- Leaves written by hand stop and fail at positions that exist, be it in front of the cursor
or far behind the end. -/
def Leaf.Representable {ε α : Type} : Leaf ε α → Prop
  | .custom judge => ∀ source context position, position ≤ lastPosition →
    (judge source context position).Everywhere (· ≤ lastPosition)
  | _ => True

/-- Everything is allowed, with leaves written by hand that stop where a position is. -/
def Fragment.representable {ε : Type} : Fragment ε := ⟨Leaf.Representable, True, True⟩

namespace Matcher

variable {α : Type}

/-- From positions that exist one gets to positions that exist. -/
theorem passage_representable :
    Passage fun position reached => position ≤ lastPosition → reached ≤ lastPosition where
  here _ := id
  onward _ _ _ near far := far ∘ near

theorem confined_leaf {source : Array ε} (fits : source.size ≤ lastPosition)
    {part : Leaf ε α} (representable : part.Representable) :
    (leaf source part).Confined fun position reached =>
      position ≤ lastPosition → reached ≤ lastPosition := by
  intro session position outcome after applied
  have judged := (leaf_eq_ok_iff.mp applied).1
  have ofStandard (standard : part.Standard) :
      outcome.Everywhere fun reached => position ≤ lastPosition → reached ≤ lastPosition :=
    (Outcome.everywhere_of_plain (Leaf.plain_apply standard judged)).imp
      fun reached between inside => by omega
  cases part with
  | accept | reject | next | finish | window | skipWhile => exact ofStandard (by trivial)
  | custom judge =>
      cases judged
      by_cases inside : position ≤ lastPosition
      · exact (representable source session.context position inside).imp
          fun _ reached _ => reached
      · -- No rule gets here, so nothing is asked of the judgement.
        have anywhere (outcome : Outcome α) : outcome.Everywhere fun _ => True := by
          cases outcome <;> simp [Outcome.Everywhere]
        exact (anywhere _).imp fun _ _ within => absurd within inside

end Matcher

namespace Rule

variable {Γ : List Type} {α : Type}

/-- Whatever the leaves written by hand do, a run that starts at a position that exists
stops and fails at such positions. -/
theorem everywhere_representable {input : Input N ε}
    (fits : input.source.size ≤ lastPosition)
    (grammarWithin : input.grammar.Within .representable) {rule : Rule N ε Γ α}
    (within : rule.Within .representable) {env : Env N ε Γ}
    (envWithin : env.Within .representable) {steps frame position : Nat}
    (inside : position ≤ lastPosition) {session after : Session} {outcome : Outcome α}
    (applied : apply input steps rule env frame session position = .ok (outcome, after)) :
    outcome.Everywhere (· ≤ lastPosition) :=
  (confined_apply Matcher.passage_representable
    (fun _ representable => Matcher.confined_leaf fits representable) grammarWithin steps
    within envWithin frame applied).imp fun _ reached => reached inside

/-- A slice has the elements between the cursor and the position where the rule stopped. If
these are no two positions of the source in their order, it rejects at the cursor, with one
failure that names the latter. -/
theorem apply_slice_of_accepted {input : Input N ε} {rule : Rule N ε Γ α} {env : Env N ε Γ}
    {steps frame position stop : Nat} {session after : Session} {value : α}
    (applied : apply input steps rule env frame session position =
      .ok (.accepted value stop, after)) :
    apply input steps rule.slice env frame session position =
      .ok (if position ≤ stop ∧ stop ≤ input.source.size then
          .accepted (input.source.extract position stop) stop
        else .reject (outOfRange input.source.size stop) position, after) := by
  cases steps with
  | zero => cases applied
  | succ steps =>
      have sliced : apply input (steps + 1) rule.slice env frame =
          (apply input (steps + 1) rule env frame).slice input.source := rfl
      rw [sliced, Matcher.slice_eq_revised, Matcher.revised_eq_ok_iff]
      refine ⟨_, applied, ?_⟩
      simp only [Outcome.revise_accepted, Matcher.judgeSlice]
      by_cases ordered : position ≤ stop ∧ stop ≤ input.source.size
      · simp only [if_pos ordered, span?_eq_some ordered]
      · simp only [if_neg ordered, span?_eq_none ordered]

end Rule

/-! ## Ranges that a printer asks for -/

/-- Like `following`. The addition is tried only where it has a result. -/
def followingChecked (position : Nat) : Except Halt Nat :=
  if position < lastPosition then advance position 1 else .ok position

theorem followingChecked_eq {position : Nat} (inside : position ≤ lastPosition) :
    followingChecked position = .ok (following position) := by
  unfold followingChecked following
  by_cases before : position < lastPosition
  · rw [if_pos before, advance_eq_ok before, Nat.min_eq_left before]
  · have last : position = lastPosition := by omega
    rw [if_neg before, last, Nat.min_eq_right (Nat.le_succ _)]

namespace SourceMap

/-- Like `add`, with an addition that may fail. -/
def addChecked (map : SourceMap) (cluster : Grapheme) : Except Halt SourceMap := do
  let size ← advance map.size cluster.utf8ByteSize
  return ⟨map.starts.push map.size, size⟩

/-- Like `ofText`, with additions that may fail. -/
def ofTextChecked (text : String) : Except Halt SourceMap :=
  (Text.graphemes text).foldlM addChecked ⟨#[], 0⟩

/-- Like `byteRange`, with an addition that may fail. -/
def byteRangeChecked (map : SourceMap) (start stop : Nat) : Except Halt ByteRange := do
  let first := map.offset start
  let last ← if start < stop then pure stop else followingChecked start
  return ⟨first, max (map.offset last) first⟩

/-- Clusters are noted without overflow as long as there are positions for their bytes. -/
theorem foldlM_addChecked (map : SourceMap) (clusters : List Grapheme)
    (fits : map.size + (clusters.map String.utf8ByteSize).sum ≤ lastPosition) :
    clusters.foldlM addChecked map = .ok (clusters.foldl add map) := by
  induction clusters generalizing map with
  | nil => rfl
  | cons cluster clusters ih =>
      rw [List.map_cons, List.sum_cons, ← Nat.add_assoc] at fits
      have size : advance map.size cluster.utf8ByteSize =
          .ok (map.size + cluster.utf8ByteSize) := advance_eq_ok (by omega)
      have noted : map.addChecked cluster = .ok (map.add cluster) := by
        rw [addChecked, size]
        rfl
      rw [List.foldlM_cons, noted, List.foldl_cons]
      exact ih (map.add cluster) fits

theorem ofTextChecked_eq {text : String} (fits : text.utf8ByteSize ≤ lastPosition) :
    ofTextChecked text = .ok (ofText text) := by
  have bytes := Text.utf8ByteSize_concat (Text.graphemes text)
  rw [Text.concat_graphemes] at bytes
  rw [ofTextChecked, ofText, ← Array.foldlM_toList, ← Array.foldl_toList]
  refine foldlM_addChecked _ _ ?_
  rwa [← bytes, Nat.zero_add]

theorem byteRangeChecked_eq (map : SourceMap) {start : Nat} (inside : start ≤ lastPosition)
    (stop : Nat) : map.byteRangeChecked start stop = .ok (map.byteRange start stop) := by
  unfold byteRangeChecked byteRange
  by_cases ordered : start < stop
  · simp only [if_pos ordered]
    rfl
  · simp only [if_neg ordered, followingChecked_eq inside]
    rfl

/-- The bytes of a range are in their order and lie in the text. -/
theorem byteRange_ofText_within (text : String) (start stop : Nat) :
    let range := (ofText text).byteRange start stop
    range.start ≤ range.stop ∧ range.stop ≤ text.utf8ByteSize := by
  have within (index : Nat) : (ofText text).offset index ≤ text.utf8ByteSize := by
    rw [ofText_eq_ofClusters, offset_ofClusters]
    have bounded := @Text.bytesBefore_le (Text.graphemes text) index
    rwa [Text.concat_graphemes] at bounded
  refine ⟨Nat.le_max_right _ _, Nat.max_le.mpr ⟨?_, within start⟩⟩
  split
  · exact within stop
  · exact within _

end SourceMap

namespace Printer

/-- The spans of the tokens are between positions that exist, in any order. -/
def Representable (printer : Printer) : Prop :=
  ∀ spans, printer.tokenSpans = some spans → ∀ span ∈ spans,
    span.1 ≤ lastPosition ∧ span.2 ≤ lastPosition

/-- Like `clusterRange`, with an addition that may fail. -/
def clusterRangeChecked (printer : Printer) (position : Nat) : Except Halt (Nat × Nat) :=
  match printer.tokenSpans with
  | none => do return (position, ← followingChecked position)
  | some spans =>
    match spans[position]? with
    | some span => .ok span
    | none =>
      let stop := (spans.back?.map Prod.snd).getD 0
      .ok (stop, stop)

/-- The bytes of a text that a position refers to, with additions that may fail. -/
def byteRangeChecked (printer : Printer) (text : String) (position : Nat) :
    Except Halt ByteRange := do
  let map ← SourceMap.ofTextChecked text
  let (start, stop) ← printer.clusterRangeChecked position
  map.byteRangeChecked start stop

variable {printer : Printer} {position : Nat}

theorem clusterRangeChecked_eq (inside : position ≤ lastPosition) :
    printer.clusterRangeChecked position = .ok (printer.clusterRange position) := by
  unfold clusterRangeChecked clusterRange
  cases printer.tokenSpans with
  | none =>
      simp only [followingChecked_eq inside]
      rfl
  | some spans =>
      dsimp only
      cases spans[position]? <;> rfl

/-- The clusters that a position refers to have numbers that exist. -/
theorem clusterRange_representable (representable : printer.Representable)
    (inside : position ≤ lastPosition) :
    (printer.clusterRange position).1 ≤ lastPosition ∧
      (printer.clusterRange position).2 ≤ lastPosition := by
  unfold clusterRange
  cases given : printer.tokenSpans with
  | none => exact ⟨inside, following_le position⟩
  | some spans =>
      have known := representable spans given
      dsimp only
      cases found : spans[position]? with
      | some span => exact known span (Array.mem_of_getElem? found)
      | none =>
          cases last : spans.back? with
          | none => exact ⟨Nat.zero_le _, Nat.zero_le _⟩
          | some span =>
              have bounded := (known span (Array.mem_of_back? last)).2
              exact ⟨bounded, bounded⟩

theorem byteRangeChecked_eq {text : String} (fits : text.utf8ByteSize ≤ lastPosition)
    (representable : printer.Representable) (inside : position ≤ lastPosition) :
    printer.byteRangeChecked text position =
      .ok (printer.byteRange (SourceMap.ofText text) position) := by
  have startInside := (clusterRange_representable representable inside).1
  rw [byteRangeChecked, SourceMap.ofTextChecked_eq fits, clusterRangeChecked_eq inside]
  exact SourceMap.byteRangeChecked_eq _ startInside _

end Printer

namespace Rule

/-- In a source that ends no later than at the last position, rules applied with arithmetic
that may fail come to what they come to anyway, and never end with an overflow: wherever they
start, and wherever leaves written by hand stop. If those stop and fail at positions that
exist, so does the run. Where a rule is accepted, its slice has the elements up to there, or
rejects at the cursor with one failure if they are not a part of the source.

In a text whose bytes can be counted, the map is built without overflow and answers every
range without overflow, with bytes of the text. The clusters that a position refers to are
found without overflow too, whatever the spans of the tokens are, and so are their bytes. -/
theorem positions_never_overflow {input : Input N ε}
    (fits : input.source.size ≤ lastPosition) :
    (∀ {Γ : List Type} {α : Type} (rule : Rule N ε Γ α) (env : Env N ε Γ)
      (steps frame : Nat) (session : Session) (position : Nat),
      let applied := apply input steps rule env frame session position
      applyChecked input steps rule env frame session position = applied ∧
      applied ≠ .error .overflow ∧
      (input.grammar.Within .representable → rule.Within .representable →
        env.Within .representable → position ≤ lastPosition →
        ∀ outcome after, applied = .ok (outcome, after) →
          outcome.Everywhere (· ≤ lastPosition)) ∧
      ∀ value stop after, applied = .ok (.accepted value stop, after) →
        apply input steps rule.slice env frame session position =
          .ok (if position ≤ stop ∧ stop ≤ input.source.size then
              .accepted (input.source.extract position stop) stop
            else .reject (outOfRange input.source.size stop) position, after)) ∧
    ∀ text : String, text.utf8ByteSize ≤ lastPosition →
      let map := SourceMap.ofText text
      SourceMap.ofTextChecked text = .ok map ∧
      (∀ start stop, start ≤ lastPosition →
        let range := map.byteRange start stop
        map.byteRangeChecked start stop = .ok range ∧
          range.start ≤ range.stop ∧ range.stop ≤ text.utf8ByteSize) ∧
      ∀ (printer : Printer) (position : Nat), printer.Representable →
        position ≤ lastPosition →
        let clusters := printer.clusterRange position
        printer.clusterRangeChecked position = .ok clusters ∧
          clusters.1 ≤ lastPosition ∧ clusters.2 ≤ lastPosition ∧
          printer.byteRangeChecked text position = .ok (printer.byteRange map position) := by
  constructor
  · intro Γ α rule env steps frame session position applied
    refine ⟨?_, neverOverflows_apply fits steps rule env frame session position, ?_, ?_⟩
    · rw [applyChecked_eq]
    · intro grammarWithin within envWithin inside outcome after reached
      exact everywhere_representable fits grammarWithin within envWithin inside reached
    · exact fun value stop after accepted => apply_slice_of_accepted accepted
  · intro text counted map
    refine ⟨SourceMap.ofTextChecked_eq counted, ?_, ?_⟩
    · intro start stop inside
      exact ⟨SourceMap.byteRangeChecked_eq map inside stop,
        SourceMap.byteRange_ofText_within text start stop⟩
    · intro printer position representable inside
      obtain ⟨start, stop⟩ := Printer.clusterRange_representable representable inside
      exact ⟨Printer.clusterRangeChecked_eq inside, start, stop,
        Printer.byteRangeChecked_eq counted representable inside⟩

/-- The element across: as far from the start as the cursor is from the last position. -/
def across : Rule .none Int [] Int :=
  (custom fun _ _ position => .accepted () (lastPosition - position)).thenWith
    (fun _ element => element) (nextIf fun _ => true)

theorem within_across : across.Within .representable :=
  ⟨fun _ _ position _ => Nat.sub_le lastPosition position, trivial⟩

/-- From the second element the rule leaps far behind the end, where no element is. From the
last position it leaps back to the first element; it accepts, but has no slice. The token
starts at the last position and ends at the first. -/
theorem across_never_overflows :
    let input : Input .none Int := ⟨#[1, 2, 3], .empty, .off⟩
    let printer : Printer := { tokenSpans := some #[(lastPosition, 0)] }
    input.source.size ≤ lastPosition ∧
      applyChecked input 1 across .nil 0 .initial 1 =
        .ok (.reject (outOfRange 3 (lastPosition - 1)) (lastPosition - 1), .initial) ∧
      apply input 1 across .nil 0 .initial lastPosition = .ok (.accepted 1 1, .initial) ∧
      (Outcome.accepted (1 : Int) 1).Everywhere (· ≤ lastPosition) ∧
      apply input 1 across.slice .nil 0 .initial lastPosition =
        .ok (.reject (outOfRange 3 1) lastPosition, .initial) ∧
      "é".utf8ByteSize ≤ lastPosition ∧ printer.Representable ∧
      printer.byteRangeChecked "é" 0 = .ok ⟨2, 2⟩ := by
  intro input printer
  have fits : input.source.size ≤ lastPosition := by decide
  have counted : "é".utf8ByteSize ≤ lastPosition := by decide
  have representable : printer.Representable := by
    rintro spans ⟨⟩ span occurs
    rw [List.mem_toArray, List.mem_singleton] at occurs
    exact occurs ▸ ⟨Nat.le_refl _, Nat.zero_le _⟩
  have never := positions_never_overflow fits
  obtain ⟨behind, _⟩ := never.1 across .nil 1 0 .initial 1
  obtain ⟨_, _, inside, sliced⟩ := never.1 across .nil 1 0 .initial lastPosition
  have back : apply input 1 across .nil 0 .initial lastPosition =
      .ok (.accepted 1 1, .initial) := rfl
  obtain ⟨_, _, printed⟩ := never.2 "é" counted
  obtain ⟨_, _, _, bytes⟩ := printed printer 0 representable (Nat.zero_le _)
  refine ⟨fits, behind.trans rfl, back, ?_, sliced 1 1 .initial back, counted, representable,
    bytes.trans (congrArg Except.ok (by decide))⟩
  exact inside (Grammar.within_empty _) within_across trivial (Nat.le_refl _) _ _ back

end Rule

end Rulebook
