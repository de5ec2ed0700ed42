/-
# Writing JSON

Texts are written between double quotes. Quotes, backslashes and control
characters are escaped; all other characters are written as they are.
-/

namespace Rulebook.Json

/-- A digit of base 16 in lower case. -/
def hexDigit (n : Nat) : Char :=
  if n < 10 then Char.ofNat ('0'.toNat + n) else Char.ofNat ('a'.toNat + n - 10)

/-- A character as it stands between quotes. -/
def escape (c : Char) : String :=
  if c = '"' then "\\\""
  else if c = '\\' then "\\\\"
  else if c = '\x08' then "\\b"
  else if c = '\t' then "\\t"
  else if c = '\n' then "\\n"
  else if c = '\x0c' then "\\f"
  else if c = '\r' then "\\r"
  else if c.toNat < 0x20 then
    String.ofList
      ['\\', 'u', '0', '0', hexDigit (c.toNat / 16), hexDigit (c.toNat % 16)]
  else String.singleton c

/-- A text between quotes. -/
def text (content : String) : String :=
  "\"" ++ String.join (content.toList.map escape) ++ "\""

/-- An array of values that are written already. -/
def array (items : List String) : String :=
  "[" ++ ",".intercalate items ++ "]"

/-- An object of named values that are written already, in the given order. -/
def object (members : List (String × String)) : String :=
  "\x7b" ++
    ",".intercalate (members.map fun (name, value) =>
      text name ++ ":" ++ value) ++
    "\x7d"

end Rulebook.Json
