import PredictiveParsing.Lexicon.Scan

/-!
# Failures of parses

## Main definitions

* `ParseError`: why a text is not parsed
* `ParseError.kind`, `line`, `expectedTokens`: what a caller can learn about it
* `ParseError.message`: the wording
-/

namespace PredictiveParsing

/-- What kind of failure it is. -/
inductive FailureKind where
  /-- The text has a place without a token. -/
  | scan
  /-- A token is not the one that the grammar asks for. -/
  | parse
  /-- A sentence of the grammar ends before the text. -/
  | trailingInput
deriving DecidableEq

/-- What was found instead of what was asked for: a token or the end of the text. -/
structure Found where
  /-- The name of the token. -/
  name : String
  /-- Its text. -/
  text : String
deriving DecidableEq, Inhabited

namespace Found

/-- The name of the end of the text. -/
def endName : String := "EOF"

/-- What the first item of a scan shows. -/
def ofToken : Option Token → Found
  | some t => ⟨t.name, t.text⟩
  | none => ⟨endName, ""⟩

/-- The written form of what was found. -/
def describe (f : Found) : String := f.name ++ ":" ++ f.text

end Found

/-- The written form of the names of the tokens that alternatives can begin with. -/
def describeAlternatives (alternatives : List (List String)) : String :=
  "[" ++ " | ".intercalate (alternatives.map (", ".intercalate ·)) ++ "]"

/-- **Why a text is not parsed.** -/
inductive ParseError where
  /-- The text has a place without a token. -/
  | scan (e : ScanError)
  /-- A token was asked for and another one found. -/
  | unexpectedToken (line : Nat) (expected : String) (found : Found)
  /-- No alternative of a nonterminal begins with what was found. -/
  | noAlternative (line : Nat) (nonterminal : String) (expected : List (List String))
      (found : Found)
  /-- A sentence of the grammar ends before the text. -/
  | trailingInput (line : Nat) (found : Found)
deriving DecidableEq

namespace ParseError

/-- The kind of a failure. -/
def kind : ParseError → FailureKind
  | scan _ => .scan
  | unexpectedToken .. => .parse
  | noAlternative .. => .parse
  | trailingInput .. => .trailingInput

/-- The line of a failure. -/
def line : ParseError → Nat
  | scan e => e.line
  | unexpectedToken line .. => line
  | noAlternative line .. => line
  | trailingInput line .. => line

/-- The names of the tokens that the place of the failure asks for, each once. -/
def expectedTokens : ParseError → List String
  | unexpectedToken _ expected _ => [expected]
  | noAlternative _ _ expected _ => expected.flatten.eraseDups
  | _ => []

/-- **The message of a failure.** -/
def message : ParseError → String
  | scan e => e.message
  | unexpectedToken line expected found =>
    "Parse Error, line " ++ toString line ++ ": Expected token " ++ expected ++
      ", but found token " ++ found.describe
  | noAlternative line nonterminal expected found =>
    "Parse Error, line " ++ toString line ++ ": while parsing " ++ nonterminal ++
      " expected one of " ++ describeAlternatives expected ++ ", but found token " ++
      found.describe
  | trailingInput line found =>
    "Parse Error, line " ++ toString line ++ ": Couldn't parse all of input. Next token: " ++
      found.describe

end ParseError

end PredictiveParsing
