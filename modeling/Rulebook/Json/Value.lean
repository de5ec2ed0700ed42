/-
# JSON values

The values that a sequence of tokens stands for. Reading takes one value from
the front and leaves the rest of the tokens.
-/

import Rulebook.Json.Token

namespace Rulebook.Json

/-- A JSON value. The members of an object keep their order, and a name may
occur several times. -/
inductive Value
  | null
  | bool (value : Bool)
  | number (value : Option Nat)
  | text (content : Option String)
  | array (items : List Value)
  | object (members : List (Option String × Value))

/-- Read items up to the end of an array, each with `read`. The first
argument bounds the number of items. -/
def readItems {α : Type} (read : List Token → Option (α × List Token)) :
    Nat → List Token → Option (List α × List Token)
  | 0, _ => none
  | limit + 1, tokens => do
    let (item, rest) ← read tokens
    match rest with
    | .comma :: rest =>
      let (items, rest) ← readItems read limit rest
      some (item :: items, rest)
    | .closeArray :: rest => some ([item], rest)
    | _ => none

/-- Read the members of an object up to its end. -/
def readMembers {α : Type} (read : List Token → Option (α × List Token)) :
    Nat → List Token → Option (List (Option String × α) × List Token)
  | 0, _ => none
  | limit + 1, .text name :: .colon :: tokens => do
    let (value, rest) ← read tokens
    match rest with
    | .comma :: rest =>
      let (members, rest) ← readMembers read limit rest
      some ((name, value) :: members, rest)
    | .closeObject :: rest => some ([(name, value)], rest)
    | _ => none
  | _ + 1, _ => none

/-- Read a value whose parts are nested no deeper than `depth`. -/
def readValue : (depth : Nat) → List Token → Option (Value × List Token)
  | _, .null :: rest => some (.null, rest)
  | _, .bool value :: rest => some (.bool value, rest)
  | _, .number value :: rest => some (.number value, rest)
  | _, .text content :: rest => some (.text content, rest)
  | _, .openArray :: .closeArray :: rest => some (.array [], rest)
  | depth + 1, .openArray :: rest =>
    (readItems (readValue depth) (rest.length + 1) rest).map
      fun (items, rest) => (.array items, rest)
  | _, .openObject :: .closeObject :: rest => some (.object [], rest)
  | depth + 1, .openObject :: rest =>
    (readMembers (readValue depth) (rest.length + 1) rest).map
      fun (members, rest) => (.object members, rest)
  | _, _ => none

/-- Read the value at the front of the tokens. -/
def Value.read (tokens : List Token) : Option (Value × List Token) :=
  readValue tokens.length tokens

end Rulebook.Json
