/-
# The trace of an application

A traced rule reports twice: when it is tried, with the path of all labels
around it, and when it is done, with how far it matched or how many failures
it has. Records are kept only at a verbosity that includes debugging.
-/

import Rulebook.Failure

namespace Rulebook

/-- How much of what happens is recorded, from nothing to everything. -/
inductive Verbosity
  | off
  | error
  | warn
  | info
  | debug
  | trace
  deriving DecidableEq, Inhabited, Repr

/-- Whether records for debugging are kept. -/
def Verbosity.debugs : Verbosity → Bool
  | .debug | .trace => true
  | .off | .error | .warn | .info => false

/-- One report of a traced rule. -/
inductive Record
  /-- The rule is tried. The path ends with its own label. -/
  | trying (path : List String) (position : Nat)
  /-- The rule, tried at `position`, accepted up to `stop`. -/
  | matched (label : String) (position stop : Nat)
  /-- The rule, tried at `position`, rejected with `count` failures. -/
  | rejected (label : String) (position count : Nat)
  deriving DecidableEq, Inhabited, Repr

/-- The line of text for a record. -/
def Record.toText : Record → String
  | .trying path position =>
    Failure.pathText path ++ " at " ++ toString position ++ ": trying"
  | .matched label position stop =>
    label ++ " at " ++ toString position ++ ": matched up to " ++ toString stop
  | .rejected label position count =>
    label ++ " at " ++ toString position ++ ": rejected with " ++
      toString count ++ " error(s)"

end Rulebook
