/-
# Rules over text

The elements of a text are its grapheme clusters. A literal is compared
cluster by cluster, so it never matches a part of what a reader sees as one
character.
-/

import Std.Data.HashSet
import Rulebook.Rule.Combinators
import Rulebook.Text.Grapheme
import Rulebook.Text.Quoted

namespace Rulebook

instance : Describe Char := ⟨Text.quotedChar⟩

instance : Describe Grapheme := ⟨Text.quoted⟩

namespace Lexer

open Text

variable {N : Nonterminals} {Γ : List Type} {α : Type}

/-- The elements of a text. -/
def feed (text : String) : Array Grapheme :=
  graphemes text

/-- Apply a rule to a text from its first element on. -/
def run (grammar : Grammar N Grapheme) (verbosity : Verbosity) (steps : Nat)
    (rule : Rule N Grapheme [] α) (text : String) (session : Session) :
    Except Halt (Outcome α × Session) :=
  rule.run ⟨feed text, grammar, verbosity⟩ steps session

/-- What is said where `text` should stand but other elements were found. -/
def mismatch (text : String) (found : Array Grapheme) : String :=
  "expected " ++ quoted text ++ " got " ++ quoted (concat found)

/-- Match the concatenation of the parts. The parts are joined before the text
is split, so a mark at the start of one part attaches to the last character of
the part before. -/
def literals (parts : List String) : Rule N Grapheme Γ Unit :=
  let joined := String.join parts
  let expected := feed joined
  .leaf (.window expected.size (· == expected) (mismatch joined) ())

/-- Match a text. -/
def literal (text : String) : Rule N Grapheme Γ Unit :=
  literals [text]

/-- The clusters of a text as a set. -/
def clusterSet (text : String) : Std.HashSet Grapheme :=
  Std.HashSet.ofArray (feed text)

/-- One cluster that occurs in `set`. -/
def anyOf (set : String) : Rule N Grapheme Γ Grapheme :=
  let clusters := clusterSet set
  .nextIf fun grapheme => clusters.contains grapheme

/-- One cluster that does not occur in `set`. -/
def noneOf (set : String) : Rule N Grapheme Γ Grapheme :=
  let clusters := clusterSet set
  .nextIf fun grapheme => !clusters.contains grapheme

/-- The text a rule consumed, in place of its value. -/
def slice (rule : Rule N Grapheme Γ α) : Rule N Grapheme Γ String :=
  rule.slice.map concat

/-- The clusters that count as white space in a source text: space, tab, line
feed, carriage return, the two together, vertical tab and form feed. -/
def spaces : List Grapheme :=
  [" ", "\t", "\n", "\r", "\r\n", "\x0b", "\x0c"]

/-- Exactly one cluster of white space. -/
def whitespace : Rule N Grapheme Γ Grapheme :=
  .nextIf fun grapheme => spaces.contains grapheme

end Lexer

end Rulebook
