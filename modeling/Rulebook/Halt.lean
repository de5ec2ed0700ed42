/-
# Ends without an outcome

Most applications of a rule have an outcome. Three things prevent one: the
allowance of steps runs out, as it must for a rule that calls itself without
consuming input; a position would grow past the last one that can be
represented; or a definition that is needed for the first time turns out to be
no valid rule.
-/

namespace Rulebook

/-- Why a rule could not be built. -/
inductive DefinitionError
  /-- An alternation needs at least one alternative. -/
  | emptyAlternation
  /-- The ceiling of a repetition lies below its floor. -/
  | invalidRepetition (floor ceiling : Nat)
  deriving DecidableEq, Inhabited, Repr

/-- The reason in words. -/
def DefinitionError.message : DefinitionError → String
  | .emptyAlternation => "fork requires at least one alternative"
  | .invalidRepetition floor ceiling =>
    "invalid repetition bounds: max (" ++ toString ceiling ++
      ") must be greater than or equal to min (" ++ toString floor ++ ")"

/-- Why an application ended without an outcome. -/
inductive Halt
  /-- The allowance of steps ran out. -/
  | exhausted
  /-- A position would have passed the last one. -/
  | overflow
  /-- A definition that was needed is no valid rule. -/
  | malformed (cause : DefinitionError)
  deriving DecidableEq, Inhabited, Repr

end Rulebook
