import PredictiveParsing.Pattern.CharSet

/-!
# Patterns

A pattern describes pieces of text. It is read from its written form by `Pattern.read?` and run
by its automaton.

## Main definitions

* `Pattern`: the forms of patterns
* `Pattern.Assertion`: conditions on a position that read no character
-/

namespace PredictiveParsing

namespace Pattern

/-- **A condition on a position of a text.** -/
inductive Assertion where
  /-- The position is the start of the text. -/
  | textStart
  /-- The position is the end of the text. -/
  | textEnd
  /-- The position starts a line. -/
  | lineStart
  /-- The position ends a line. -/
  | lineEnd
  /-- Exactly one of the two neighbours belongs to a word. -/
  | wordBoundary
  /-- Both neighbours belong to words, or neither does. -/
  | noWordBoundary
  /-- A word starts here. -/
  | wordStart
  /-- A word ends here. -/
  | wordEnd
  /-- No word character stands before the position. -/
  | noWordBefore
  /-- No word character stands after the position. -/
  | noWordAfter
deriving DecidableEq

end Pattern

/-- **A pattern.** Where a pattern can match in several ways, earlier branches and, for a greedy
repetition, more rounds are preferred. -/
inductive Pattern where
  /-- The empty text. -/
  | empty
  /-- One character of a set. -/
  | chars (s : CharSet)
  /-- The empty text, where a condition holds. -/
  | assertion (a : Pattern.Assertion)
  /-- One pattern after another. -/
  | seq (p q : Pattern)
  /-- The first pattern or, less preferred, the second. -/
  | alt (p q : Pattern)
  /-- At least `low` and at most `high` rounds of a pattern, without limit if `high` is absent. -/
  | repeated (p : Pattern) (low : Nat) (high : Option Nat) (greedy : Bool)
deriving DecidableEq, Inhabited

namespace Pattern

/-- One pattern after another, for a list of patterns. -/
def seqs : List Pattern → Pattern
  | [] => empty
  | [p] => p
  | p :: q :: l => seq p (seqs (q :: l))

/-- The branches of a list, the first one preferred. -/
def alts : List Pattern → Pattern
  | [] => empty
  | [p] => p
  | p :: q :: l => alt p (alts (q :: l))

end Pattern

end PredictiveParsing
