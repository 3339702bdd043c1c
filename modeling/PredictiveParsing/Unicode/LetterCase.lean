import PredictiveParsing.Unicode.CaseTable

/-!
# Letter case

The full case mappings of single characters: the upper- or lowercase form of one character may
have several, and a character without another form is its own.

## Main definitions

* `upperForm`, `lowerForm`: the two forms of a character
* `toUpper`, `toLower`: the forms of a text, character by character
-/

namespace PredictiveParsing.Unicode

/-- The form of a code point that a run gives, if the code point belongs to the run. -/
def CaseRange.form? (r : CaseRange) (code : Nat) : Option Nat :=
  if r.low ≤ code && code ≤ r.high && (code - r.low) % r.step == 0 then
    some (r.target + (code - r.low))
  else none

/-- The form of a character after a table of runs and a table of longer forms. -/
def formIn (ranges : Array CaseRange) (sequences : Array (Nat × List Nat)) (c : Char) : List Char :=
  match sequences.find? (·.1 == c.toNat) with
  | some (_, codes) => codes.map Char.ofNat
  | none =>
    match ranges.findSome? (·.form? c.toNat) with
    | some code => [Char.ofNat code]
    | none => [c]

/-- The uppercase form of a character. -/
def upperForm (c : Char) : List Char := formIn upperRanges upperSequences c

/-- The lowercase form of a character. -/
def lowerForm (c : Char) : List Char := formIn lowerRanges lowerSequences c

/-- The uppercase form of a text. -/
def toUpper (text : List Char) : List Char := text.flatMap upperForm

/-- The lowercase form of a text. -/
def toLower (text : List Char) : List Char := text.flatMap lowerForm

end PredictiveParsing.Unicode
