/-
# From text to tokens

A tokenizer turns a whole text into the sequence of its tokens. At each place
every token rule is tried and the longest match wins; a token has to consume
something. What is ignored may stand before and between tokens, but not after
the last one.
-/

import Rulebook.Lexer.Basic
import Rulebook.Rule.Chain
import Rulebook.Rule.Repetition

namespace Rulebook

/-- The opening or closing half of a pair of delimiters. -/
inductive Delimiter (κ : Type)
  | opening (kind : κ)
  | closing (kind : κ)
  deriving DecidableEq, Repr

namespace Lexer

variable {N : Nonterminals} {Γ : List Type} {α : Type}

/-- The value `tag` wherever `display` stands. -/
def keyword (tag : α) (display : String) : Rule N Grapheme Γ α :=
  (literal display).yielding tag

/-- The rules for the two halves of a pair of delimiters. -/
def delimiters (kind : α) (opening closing : String) :
    Rule N Grapheme Γ (Delimiter α) × Rule N Grapheme Γ (Delimiter α) :=
  (keyword (.opening kind) opening, keyword (.closing kind) closing)

/-- The tokens of a whole text. One of the rules in `tokens` matches each
token, the longest match first; `ignored` is skipped before every token. -/
def tokenizer (first : Rule N Grapheme Γ α)
    (others : List (Rule N Grapheme Γ α)) (ignored : Rule N Grapheme Γ Unit) :
    Rule N Grapheme Γ (Array α) :=
  let token := (Rule.fork first others).nonEmpty
  let tokens := token.collect (Repetition.any.separatedBy ignored)
  (((Chain.empty.skip ignored).push tokens).skip .finish).done.first

/-- The tokenizer for a list of token rules, which has to have a member.
Nothing is skipped if there is nothing to ignore. -/
def tokenizer? (tokens : List (Rule N Grapheme Γ α))
    (ignored : Option (Rule N Grapheme Γ Unit)) :
    Except DefinitionError (Rule N Grapheme Γ (Array α)) :=
  match tokens with
  | [] => .error .emptyAlternation
  | first :: others =>
    .ok (tokenizer first others (ignored.getD (.accept ())))

end Lexer

end Rulebook
