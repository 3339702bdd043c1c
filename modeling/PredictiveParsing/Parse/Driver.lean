import PredictiveParsing.Compiled
import PredictiveParsing.Parse.Outcome

/-!
# Parsing

A text is parsed by recursive descent: each nonterminal looks at the next token, chooses an
alternative, and reads the symbols of its body one after the other. A parse succeeds if the
start symbol reads the whole text.

Each call of a nonterminal is given a number of nested calls that it may make. Between two
consumed tokens no nonterminal is entered within itself, since none can begin with itself; so a
number of calls that is enough for any parse is known from the number of tokens.

## Main definitions

* `Compiled.consume`, `Compiled.descend`: reading a terminal, reading a nonterminal
* `Compiled.parseScan`, `Compiled.parse`: parsing a scan, parsing a text
-/

namespace PredictiveParsing

/-- What a stretch of a parse does with the items of a scan. -/
abbrev Reading (α : Type) := Scan → Outcome Scan ParseError α

/-- Reads symbols one after the other. -/
def readAll (read : Symbol → Reading Value) : List Symbol → Reading (List Value)
  | [] => fun s => .ok [] s []
  | x :: rest => fun s =>
    (read x s).bind fun v s => (readAll read rest s).map (v :: ·)

/-- After the start symbol nothing but the end of the text may follow. -/
def readEnd (v : Value) : Reading Value := fun s =>
  match s with
  | .done line => .ok v (.done line) []
  | .stuck e => .failed (.scan e) []
  | .token token _ => .failed (.trailingInput token.line (.ofToken (some token))) []

namespace Compiled

variable (c : Compiled)

/-- **Reads a terminal**: the next token has to be one of it. -/
def consume (t : Nat) : Reading Value := fun s =>
  match s with
  | .stuck e => .failed (.scan e) []
  | .done line => .failed (.unexpectedToken line (c.grammar.terminalName t) (.ofToken none)) []
  | .token token rest =>
    if token.terminal = t then
      .ok (.token token.text) rest [.consume token.name token.text]
    else
      .failed (.unexpectedToken token.line (c.grammar.terminalName t) (.ofToken (some token))) []

/-- **Reads a nonterminal** with at most `fuel` nested calls. -/
def descend : (fuel : Nat) → (nt : Nat) → Reading Value
  | 0, _, _ => .exhausted
  | fuel + 1, nt, s =>
    match s.peek with
    | .error e => .failed (.scan e) []
    | .ok next =>
      let name := c.grammar.nonterminalName nt
      let choice := c.prediction.choice nt
      let read (p : Nat) : Outcome Scan ParseError Value :=
        (readAll (fun
          | .terminal t => c.consume t
          | .nonterminal m => descend fuel m) (c.grammar.body p) s).map (c.shapes.build p)
      -- an alternative that vanishes is read like any other; its symbols choose for themselves
      let outcome := match choice.select (next.map (·.terminal)) with
        | .alternative p => read p
        | .epsilon p => read p
        | .none =>
          .failed (.noAlternative s.line name (choice.expected c.grammar) (.ofToken next)) []
      outcome.after [.enter name s.line]

/-- A number of nested calls that is enough for a scan of the given length. -/
def callBound (length : Nat) : Nat := (length + 1) * (c.grammar.nonterminals.size + 1)

/-- **Parses a scan** from the start symbol to its end. -/
def parseScan (s : Scan) : Outcome Scan ParseError Value :=
  (c.descend (c.callBound s.length) c.grammar.start s).bind readEnd

/-- **Parses a text.** -/
def parse (text : String) : Outcome Scan ParseError Value :=
  c.parseScan (c.grammar.lexicon.scan text.toList)

end Compiled

end PredictiveParsing
