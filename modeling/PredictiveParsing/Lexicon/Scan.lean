import PredictiveParsing.Lexicon.Basic

/-!
# Scans

A text is scanned into tokens: white space is skipped, and only the line feeds in it count lines.
A scan ends with the text, or at a place where no rule of the lexicon applies.

Since scanning has no effects, the scan of a text is a value that can be made at once. What
matters to a reader of the tokens is only that a failure shows up no earlier than at its place
in the list.

## Main definitions

* `Token`, `ScanError`: the items of a scan
* `Scan`: the tokens of a text and how they end
* `Lexicon.next`: the first token after a place, with what stands after it
* `Lexicon.scan`: the scan of a text
-/

namespace PredictiveParsing

/-- **A token**: a piece of text that is not white space. -/
structure Token where
  /-- The number of the terminal, in order of declaration. -/
  terminal : Nat
  /-- The name of the terminal. -/
  name : String
  /-- The characters of the token. -/
  text : String
  /-- The line on which the token was met. -/
  line : Nat
deriving DecidableEq

/-- **No rule applies** at some place of a text. -/
structure ScanError where
  /-- The line of the place. -/
  line : Nat
  /-- The beginning of the text from the place on. -/
  preview : String
deriving DecidableEq

/-- The message of a scan error. -/
def ScanError.message (e : ScanError) : String :=
  s!"Lexer Error, line {e.line}: No matching token found. Remaining input: {e.preview} ...."

/-- The number of characters that a scan error shows at most. -/
def ScanError.previewLength : Nat := 50

/-- **The scan of a text**: its tokens in order, and how they end. -/
inductive Scan where
  /-- One more token. -/
  | token (t : Token) (rest : Scan)
  /-- The text ends, on the given line. -/
  | done (line : Nat)
  /-- No rule applies. -/
  | stuck (e : ScanError)
deriving DecidableEq

namespace Scan

/-- The tokens of a scan. -/
def tokens : Scan → List Token
  | token t rest => t :: rest.tokens
  | done _ => []
  | stuck _ => []

/-- The number of tokens of a scan. -/
def length : Scan → Nat
  | token _ rest => rest.length + 1
  | done _ => 0
  | stuck _ => 0

/-- The line of the first item of a scan. -/
def line : Scan → Nat
  | token t _ => t.line
  | done line => line
  | stuck e => e.line

/-- The first item of a scan: a token, the end of the text, or an error. -/
def peek : Scan → Except ScanError (Option Token)
  | token t _ => .ok (some t)
  | done _ => .ok none
  | stuck e => .error e

end Scan

/-- What is met first after a place of a text: the first token behind any white space, with the
line and the text after it. -/
structure Met where
  /-- The token, or how the text ends. -/
  item : Except ScanError (Option Token)
  /-- The line that was reached. -/
  line : Nat
  /-- The text after the token. -/
  rest : List Char

namespace Lexicon

/-- The number of line feeds in a piece of text. -/
def lineFeeds (text : List Char) : Nat := text.count '\n'

/-- **The first token after a place** of a text on some line, behind any white space. -/
def next (lexicon : Lexicon) (line : Nat) (text : List Char) : Met :=
  match text with
  | [] => ⟨.ok none, line, []⟩
  | c :: l =>
    match _h : lexicon.piece? (c :: l) with
    | none =>
      ⟨.error ⟨line, String.ofList ((c :: l).take ScanError.previewLength)⟩, line, c :: l⟩
    | some piece =>
      match piece.rule with
      -- rule 0 is the one for white space; only there line feeds are counted
      | 0 => next lexicon (line + lineFeeds piece.text) piece.rest
      | terminal + 1 =>
        ⟨.ok (some ⟨terminal, piece.name, String.ofList piece.text, line⟩), line, piece.rest⟩
termination_by text.length
decreasing_by exact length_rest_lt _h

/-- A token that is met is not empty. -/
theorem length_rest_next_lt {lexicon : Lexicon} {line : Nat} {text : List Char} {t : Token}
    (h : (lexicon.next line text).item = .ok (some t)) :
    (lexicon.next line text).rest.length < text.length := by
  fun_induction next lexicon line text with
  | case1 => simp at h
  | case2 => simp at h
  | case3 line c l piece hpiece hrule ih =>
    exact Nat.lt_trans (ih h) (length_rest_lt hpiece)
  | case4 line c l piece hpiece terminal hrule => exact length_rest_lt hpiece

/-- The scan of a text from some line on. -/
def scanFrom (lexicon : Lexicon) (line : Nat) (text : List Char) : Scan :=
  match _h : (lexicon.next line text).item with
  | .error e => .stuck e
  | .ok none => .done (lexicon.next line text).line
  | .ok (some t) =>
    .token t (scanFrom lexicon (lexicon.next line text).line (lexicon.next line text).rest)
termination_by text.length
decreasing_by exact length_rest_next_lt _h

/-- **The scan of a text**, which starts on line 1. -/
def scan (lexicon : Lexicon) (text : List Char) : Scan := lexicon.scanFrom 1 text

end Lexicon

end PredictiveParsing
