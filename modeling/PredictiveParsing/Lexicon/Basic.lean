/-!
# Lexica

A lexicon is an ordered list of named patterns, the pattern of white space first. At each place
of a text the first rule applies that reads at least one character there, so a rule for keywords
has to stand before a more general one that would read them, too.

What a pattern means is left open: a lexicon is built with any engine that turns the text of a
pattern into a function that searches for it.

## Main definitions

* `Matcher`, `PatternEngine`: what is known about patterns
* `Lexicon`: an ordered list of rules
* `Lexicon.build`: the lexicon of a list of terminals
* `Lexicon.piece?`: the piece that the first applicable rule reads

## Main results

* `Lexicon.append_of_piece?`: a piece and the text after it make up the text
* `Lexicon.length_rest_lt`: a piece is not empty
-/

namespace PredictiveParsing

/-- **How one pattern is searched for**: the number of characters of a text up to the end of the
match that is found in it, if one is found. -/
abbrev Matcher := List Char → Option Nat

/-- **How the texts of patterns are understood**: the search that a text stands for, if it is a
pattern at all. -/
abbrev PatternEngine := String → Option Matcher

/-- A rule of a lexicon. -/
structure LexRule where
  /-- The name of the tokens that the rule reads. -/
  name : String
  /-- The text of its pattern. -/
  pattern : String
  /-- The search for the pattern. -/
  find : Matcher

/-- **The text of a pattern is not a pattern.** -/
structure PatternError where
  /-- The name of the token with the pattern. -/
  token : String
  /-- The text of the pattern. -/
  pattern : String
deriving DecidableEq

/-- The message of a pattern error. -/
def PatternError.message (e : PatternError) : String :=
  "invalid pattern `" ++ e.pattern ++ "` for token `" ++ e.token ++ "`"

namespace LexRule

/-- The rule with a name and the text of a pattern. -/
def build (engine : PatternEngine) (name pattern : String) : Except PatternError LexRule :=
  match engine pattern with
  | some find => .ok ⟨name, pattern, find⟩
  | none => .error ⟨name, pattern⟩

/-- The name of the rule for white space. -/
def whitespaceName : String := "whitespace"

/-- The pattern of white space. -/
def whitespacePattern : String := "\\s+"

end LexRule

/-- **A lexicon**: rules in order of priority, the one for white space first. -/
structure Lexicon where
  /-- The rules in order of priority. -/
  rules : List LexRule

/-- A piece at the start of a text, and the rule that reads it. -/
structure Piece where
  /-- The number of the rule. -/
  rule : Nat
  /-- The name of the rule. -/
  name : String
  /-- The characters that the rule reads. -/
  text : List Char
  /-- The characters after them. -/
  rest : List Char

namespace Lexicon

/-- **The lexicon of a list of terminals**, given by name and pattern: the rule for white space
and one rule for each terminal. The first text that is no pattern is reported. -/
def build (engine : PatternEngine) (terminals : List (String × String)) :
    Except PatternError Lexicon := do
  let rules ← ((LexRule.whitespaceName, LexRule.whitespacePattern) :: terminals).mapM
    fun (name, pattern) => LexRule.build engine name pattern
  return ⟨rules⟩

/-- The rules of the terminals. -/
def terminalRules (lexicon : Lexicon) : List LexRule := lexicon.rules.tail

/-- What the first of the given rules reads that reads at least one character; the rules are
numbered from `number` on. -/
def firstPiece? (text : List Char) (number : Nat) : List LexRule → Option Piece
  | [] => none
  | rule :: rules =>
    match rule.find text with
    | some length =>
      if (text.take length).isEmpty then firstPiece? text (number + 1) rules
      else some ⟨number, rule.name, text.take length, text.drop length⟩
    | none => firstPiece? text (number + 1) rules

/-- **The piece at the start of a text**: what the first rule reads that reads at least one
character. -/
def piece? (lexicon : Lexicon) (text : List Char) : Option Piece :=
  firstPiece? text 0 lexicon.rules

theorem append_of_firstPiece? {text : List Char} {number : Nat} {rules : List LexRule}
    {piece : Piece} (h : firstPiece? text number rules = some piece) :
    piece.text ++ piece.rest = text ∧ piece.text ≠ [] := by
  induction rules generalizing number with
  | nil => simp [firstPiece?] at h
  | cons rule rules ih =>
    unfold firstPiece? at h
    split at h
    · split at h
      · exact ih h
      · rename_i hne
        cases h
        exact ⟨List.take_append_drop _ _, by simpa using hne⟩
    · exact ih h

/-- A piece and the text after it make up the text. -/
theorem append_of_piece? {lexicon : Lexicon} {text : List Char} {piece : Piece}
    (h : lexicon.piece? text = some piece) : piece.text ++ piece.rest = text :=
  (append_of_firstPiece? h).1

/-- A piece is not empty, so the text after it is shorter than the text. -/
theorem length_rest_lt {lexicon : Lexicon} {text : List Char} {piece : Piece}
    (h : lexicon.piece? text = some piece) : piece.rest.length < text.length := by
  have ⟨happ, hne⟩ := append_of_firstPiece? h
  have := congrArg List.length happ
  have := List.length_pos_iff.mpr hne
  simp only [List.length_append] at *
  omega

end Lexicon

end PredictiveParsing
