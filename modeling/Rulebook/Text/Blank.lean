/-
# Blank characters

The characters with the property White_Space of Unicode, and texts that hold
nothing else.
-/

namespace Rulebook.Text

/-- Whether a character is a blank of any kind. -/
def isBlank (c : Char) : Bool :=
  let code := c.toNat
  (0x09 ≤ code && code ≤ 0x0d) || code = 0x20 || code = 0x85 || code = 0xa0 ||
    code = 0x1680 || (0x2000 ≤ code && code ≤ 0x200a) || code = 0x2028 ||
    code = 0x2029 || code = 0x202f || code = 0x205f || code = 0x3000

/-- Whether a text holds nothing but blanks. -/
def isBlankText (text : String) : Bool :=
  text.toList.all isBlank

/-- The text without the blanks at its two ends. -/
def trim (text : String) : String :=
  String.ofList
    ((text.toList.dropWhile isBlank).reverse.dropWhile isBlank).reverse

end Rulebook.Text
