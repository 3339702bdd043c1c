import PredictiveParsing.Pattern.Matching
import PredictiveParsing.Pattern.Reader
import PredictiveParsing.Lexicon.Basic

/-!
# Patterns for lexica

A lexicon looks for a pattern at the start of the remaining text. The text of the pattern is put
into a group behind the condition for the start of a text. The joined text is what is read, so a
pattern with a closing parenthesis of its own can end that group early; what stands behind it
may then match further on, and the characters before the match become part of the token.

## Main definitions

* `Pattern.engine`: how lexica understand the texts of patterns
-/

namespace PredictiveParsing.Pattern

/-- The text of a pattern in a group that only matches at the start. -/
def anchor (text : List Char) : List Char := "\\A(?:".toList ++ text ++ [')']

/-- The automaton that a text stands for, if it denotes a pattern that is not too large. -/
def automatonOf? (text : List Char) : Option Automaton :=
  ((read? text).filter (·.size ≤ maxSize)).map automaton

/-- **How lexica understand the texts of patterns.** -/
def engine : PatternEngine := fun text => (automatonOf? (anchor text.toList)).map Automaton.find

end PredictiveParsing.Pattern
