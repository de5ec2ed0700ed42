/-
# Failures as JSON

A failure is written as an object of path, message and position, and a
rejection as the array of its failures. Reading accepts the members of an
object in any order and skips members it does not know, but each known one has
to occur exactly once; an array of the three values is read like an object. A
position is a natural number of 64 bits. A rejection without failures is
refused as such, before the text after it is looked at.
-/

import Rulebook.Failures
import Rulebook.Json.Value
import Rulebook.Json.Writer
import Rulebook.Position

namespace Rulebook

/-- Why a text is not the JSON form of a rejection. -/
inductive ExchangeError
  /-- The list of failures is empty. -/
  | empty
  /-- The text has another form. -/
  | malformed
  deriving DecidableEq, Inhabited, Repr

/-- What is wrong with a rejection that has no failure. -/
def Failures.emptyMessage : String :=
  "a rejection carries at least one error"

/-- The JSON text of a failure. -/
def Failure.toJson (failure : Failure) : String :=
  Json.object
    [("path", Json.array (failure.path.map Json.text)),
      ("message", Json.text failure.message),
      ("pos", toString failure.position)]

/-- The JSON text of a rejection. -/
def Failures.toJson (failures : Failures) : String :=
  Json.array (failures.toList.map Failure.toJson)

namespace Json.Value

/-- The content of a text. -/
def asText? : Value → Option String
  | .text content => content
  | _ => none

/-- The texts of an array. -/
def asPath? : Value → Option (List String)
  | .array items => items.mapM asText?
  | _ => none

/-- The number, if it is a position. -/
def asPosition? : Value → Option Nat
  | .number (some n) => if n ≤ lastPosition then some n else none
  | _ => none

/-- The only member of the given name. -/
def member? (members : List (Option String × Value)) (name : String) :
    Option Value :=
  match members.filter (·.1 = some name) with
  | [(_, value)] => some value
  | _ => none

end Json.Value

namespace Failure

/-- A failure from its three parts. -/
def ofParts? (path message position : Json.Value) : Option Failure := do
  some ⟨← path.asPath?, ← message.asText?, ← position.asPosition?⟩

/-- The failure that a JSON value stands for. -/
def ofValue? : Json.Value → Option Failure
  | .object members => do
    if members.any (·.1.isNone) then none
    else
      ofParts? (← Json.Value.member? members "path")
        (← Json.Value.member? members "message")
        (← Json.Value.member? members "pos")
  | .array [path, message, position] => ofParts? path message position
  | _ => none

end Failure

/-- The rejection that a JSON text stands for. -/
def Failures.ofJson (text : String) : Except ExchangeError Failures :=
  match Json.Value.read (Json.tokens text) with
  | some (.array items, rest) =>
    match items.mapM Failure.ofValue? with
    | none => .error .malformed
    | some found =>
      match Failures.ofList? found, rest with
      | none, _ => .error .empty
      | some failures, [] => .ok failures
      | some _, _ :: _ => .error .malformed
  | _ => .error .malformed

end Rulebook
