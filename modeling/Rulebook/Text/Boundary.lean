/-
# Boundaries between grapheme clusters

Where a text may be cut so that what a reader sees as one character stays
whole: the rules for extended grapheme clusters of Unicode 17. Whether there
is a boundary before a character depends on its class and on what came before:
the class of the last character, whether the flags before it pair up, whether
an emoji sequence is open, and whether a conjunct of consonants is open.
-/

import Rulebook.Text.BreakTable
import Rulebook.Text.CombiningMark

namespace Rulebook.Text

/-- What matters about a character for the boundaries around it. -/
inductive BreakClass
  | carriageReturn
  | lineFeed
  | control
  /-- A mark or another character that attaches to the one before it. -/
  | extend
  /-- An attaching sign that links consonants. -/
  | linker
  /-- Attaches, but keeps consonants apart. -/
  | nonJoiner
  /-- Attaches, and joins the pictographs around it. -/
  | joiner
  | spacingMark
  | prepended
  /-- Half of a flag. -/
  | regional
  /-- The leading consonant of a Hangul syllable. -/
  | leading
  | vowel
  /-- The trailing consonant of a Hangul syllable. -/
  | trailing
  /-- A Hangul syllable without trailing consonant. -/
  | openSyllable
  /-- A Hangul syllable with trailing consonant. -/
  | closedSyllable
  | pictograph
  /-- A consonant that takes part in conjuncts. -/
  | consonant
  | other
  deriving DecidableEq, Inhabited, Repr

namespace BreakClass

/-- The class of a code point below U+0300, where there are no marks. -/
def ofLow (code : Nat) : BreakClass :=
  if code = 0x0d then .carriageReturn
  else if code = 0x0a then .lineFeed
  else if code < 0x20 || (0x7f ≤ code && code < 0xa0) || code = 0xad then
    .control
  else if code = 0xa9 || code = 0xae then .pictograph
  else .other

/-- The class of a code point that is in no table of marks: a Hangul syllable
or its parts, a consonant, a pictograph, or none of these. -/
def ofLetter (code : Nat) : BreakClass :=
  if 0xac00 ≤ code && code ≤ 0xd7a3 then
    if (code - 0xac00) % 28 = 0 then .openSyllable else .closedSyllable
  else if (0x1100 ≤ code && code < 0x1160) ||
      (0xa960 ≤ code && code < 0xa97d) then
    .leading
  else if (0x11a8 ≤ code && code < 0x1200) ||
      (0xd7cb ≤ code && code < 0xd7fc) then
    .trailing
  else if vowelJamo.contains code then .vowel
  else if 0x1f1e6 ≤ code && code ≤ 0x1f1ff then .regional
  else if conjunctConsonants.contains code then .consonant
  else if pictographs.contains code then .pictograph
  else .other

/-- Whether a code point attaches without being a combining mark: the halfwidth
sound marks of Katakana, and the skin tones of emoji. -/
def isModifier (code : Nat) : Bool :=
  code = 0xff9e || code = 0xff9f || (0x1f3fb ≤ code && code ≤ 0x1f3ff)

/-- The class of a character. -/
def of (c : Char) : BreakClass :=
  let code := c.toNat
  if code < 0x300 then ofLow code
  else if code = 0x200c then .nonJoiner
  else if code = 0x200d then .joiner
  else if conjunctLinkers.contains code then .linker
  else if isModifier code || combiningMarks.contains code then .extend
  else if spacingMarks.contains code then .spacingMark
  else if prependedMarks.contains code then .prepended
  else if controls.contains code then .control
  else ofLetter code

/-- Controls and line ends stand alone. -/
def standsAlone : BreakClass → Bool
  | .carriageReturn | .lineFeed | .control => true
  | _ => false

/-- Characters that are never cut off from the one before them. -/
def attaches : BreakClass → Bool
  | .extend | .linker | .nonJoiner | .joiner | .spacingMark => true
  | _ => false

/-- Whether two neighbours belong to one Hangul syllable. -/
def sameSyllable : BreakClass → BreakClass → Bool
  | .leading, .leading | .leading, .vowel | .leading, .openSyllable
  | .leading, .closedSyllable => true
  | .openSyllable, .vowel | .openSyllable, .trailing => true
  | .vowel, .vowel | .vowel, .trailing => true
  | .closedSyllable, .trailing | .trailing, .trailing => true
  | _, _ => false

end BreakClass

/-- How far an emoji sequence has come. -/
inductive EmojiState
  | none
  /-- A pictograph, and attaching characters after it. -/
  | pictograph
  /-- The same, and a joiner at last. -/
  | joined
  deriving DecidableEq, Inhabited, Repr

/-- How far a conjunct has come. -/
inductive ConjunctState
  | none
  /-- A consonant, and attaching characters after it. -/
  | consonant
  /-- The same, and a linker among them. -/
  | linked
  deriving DecidableEq, Inhabited, Repr

/-- What is remembered of the characters before a place. -/
structure BreakState where
  last : BreakClass
  /-- The characters just before are an odd number of flag halves. -/
  unpaired : Bool
  emoji : EmojiState
  conjunct : ConjunctState
  deriving DecidableEq, Inhabited, Repr

namespace BreakState

/-- How a character continues an emoji sequence. -/
def nextEmoji (state : EmojiState) : BreakClass → EmojiState
  | .pictograph => .pictograph
  | .extend | .linker | .nonJoiner =>
    if state = .pictograph then .pictograph else .none
  | .joiner => if state = .pictograph then .joined else .none
  | _ => .none

/-- How a character continues a conjunct. -/
def nextConjunct (state : ConjunctState) : BreakClass → ConjunctState
  | .consonant => .consonant
  | .linker => if state = .none then .none else .linked
  | .extend | .joiner => state
  | _ => .none

/-- What is remembered after the first character of a text. -/
def start (first : BreakClass) : BreakState where
  last := first
  unpaired := first = .regional
  emoji := nextEmoji .none first
  conjunct := nextConjunct .none first

/-- What is remembered after one more character. -/
def next (state : BreakState) (found : BreakClass) : BreakState where
  last := found
  unpaired := found = .regional && !state.unpaired
  emoji := nextEmoji state.emoji found
  conjunct := nextConjunct state.conjunct found

/-- Whether there is a boundary before a character of the given class. -/
def breaksBefore (state : BreakState) (found : BreakClass) : Bool :=
  if state.last = .carriageReturn && found = .lineFeed then false
  else if state.last.standsAlone || found.standsAlone then true
  else
    !(state.last.sameSyllable found || found.attaches ||
      state.last = .prepended ||
      (state.conjunct = .linked && found = .consonant) ||
      (state.emoji = .joined && found = .pictograph) ||
      (state.unpaired && found = .regional))

end BreakState

end Rulebook.Text
