import Rulebook.Diagnostics.Printer
import Rulebook.Failures.Exchange
import Rulebook.Lexer.Tokenizer
import Rulebook.Rule.Chain
import Rulebook.Rule.Draft
import Rulebook.Rule.Lifetime
import Rulebook.Rule.Repetition
import Rulebook.Rule.Token
import Rulebook.Text.Grapheme
import Rulebook.Trampoline
import Rulebook.Proofs.Leaf
import Rulebook.Proofs.Matcher
import Rulebook.Proofs.Fragment
import Rulebook.Proofs.Library
import Rulebook.Proofs.Reach
import Rulebook.Proofs.Yields
import Rulebook.Proofs.Repetition
import Rulebook.Proofs.Alternation
import Rulebook.Proofs.Chain
import Rulebook.Proofs.Tokenizer
import Rulebook.Proofs.Stamped
import Rulebook.Proofs.Sightings
import Rulebook.Proofs.Substitution
import Rulebook.Proofs.Unrolling
import Rulebook.Proofs.Guarded
import Rulebook.Proofs.Shift
import Rulebook.Proofs.NestedList
import Rulebook.Proofs.ByteOffsets
import Rulebook.Proofs.TokenSpans
import Rulebook.Proofs.Untraced
import Rulebook.Proofs.Reports
import Rulebook.Proofs.Brackets
import Rulebook.Proofs.Consumed
import Rulebook.Proofs.JsonTokens
import Rulebook.Proofs.Exchange
import Rulebook.Proofs.Delays
import Rulebook.Proofs.Uses
import Rulebook.Proofs.BuiltOnce
import Rulebook.Proofs.Deepest
import Rulebook.Proofs.Nesting
import Rulebook.Proofs.Filtering
import Rulebook.Proofs.Factoring
import Rulebook.Proofs.Effort
import Rulebook.Proofs.Loops
import Rulebook.Proofs.Steps
import Rulebook.Proofs.ByteRanges
import Rulebook.Proofs.Guards
import Rulebook.Proofs.Gathering
import Rulebook.Proofs.Skipping
import Rulebook.Proofs.Literals
import Rulebook.Proofs.Progress
import Rulebook.Proofs.Overflow
import Rulebook.Proofs.Ownership
import Rulebook.Proofs.Lifetimes
import Rulebook.Proofs.Lives
import Rulebook.Proofs.Beyond
