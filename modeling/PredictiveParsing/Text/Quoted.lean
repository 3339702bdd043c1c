import PredictiveParsing.Unicode.Character

/-!
# Quoted texts

A text is quoted by double quotes around it. Inside, a backslash stands before double quotes and
backslashes, tabs, line feeds, carriage returns and nulls have short forms, and characters that
do not stand for themselves in print are given by their number in braces.

## Main definitions

* `Quoted.quote`: the quoted form of a text
-/

namespace PredictiveParsing.Quoted

/-- The quoted form of one character. -/
def escapeChar (c : Char) : List Char :=
  match c with
  | '"' => ['\\', '"']
  | '\\' => ['\\', '\\']
  | '\t' => ['\\', 't']
  | '\r' => ['\\', 'r']
  | '\n' => ['\\', 'n']
  | '\x00' => ['\\', '0']
  | c =>
    if Unicode.isHidden c then ['\\', 'u', '{'] ++ Nat.toDigits 16 c.toNat ++ ['}'] else [c]

/-- The characters between the quotes. -/
def escape (text : List Char) : List Char := text.flatMap escapeChar

/-- **The quoted form of a text.** -/
def quote (text : String) : String := String.ofList ('"' :: escape text.toList ++ ['"'])

end PredictiveParsing.Quoted
