/-!
# Patterns of given texts

## Main definitions

* `Pattern.escape`: the written form of the pattern that matches just one text
-/

namespace PredictiveParsing.Pattern

/-- Whether a character has a meaning of its own in a pattern. -/
def isMeta (c : Char) : Bool :=
  c ∈ ['\\', '.', '+', '*', '?', '(', ')', '|', '[', ']', '{', '}', '^', '$', '#', '&', '-', '~']

/-- One character, with a backslash if it would have a meaning of its own. -/
def escapeChar (c : Char) : List Char := if isMeta c then ['\\', c] else [c]

/-- **The written form of a pattern of exactly one text.** -/
def escape (text : List Char) : List Char := text.flatMap escapeChar

end PredictiveParsing.Pattern
