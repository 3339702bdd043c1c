import PredictiveParsing.Emission.ParserModule
import PredictiveParsing.Parse.Outcome

/-!
# What emitted parsers do

The meaning of a parser module, as its source has it: a cursor with one token of lookahead, and
routines that look at the names of tokens only.

## Main definitions

* `Cursor`: the state of an emitted parser
* `Cursor.peek`, `Cursor.enter`, `Cursor.consume`: what routines do with it
* `ParserModule.call`, `ParserModule.run`: running a routine, and running a parser
-/

namespace PredictiveParsing

/-- A token as an emitted parser sees it. -/
structure NamedToken where
  /-- The name of the rule that reads it. -/
  name : String
  /-- Its text. -/
  text : String
deriving DecidableEq

/-- **Why an emitted parser fails.** -/
structure ParserFailure where
  /-- What kind of failure it is. -/
  kind : FailureKind
  /-- The line. -/
  line : Nat
  /-- The message. -/
  message : String
deriving DecidableEq

/-- **The state of an emitted parser.** -/
structure Cursor where
  /-- The text behind the cursor; the token of lookahead is before it. -/
  rest : List Char
  /-- The line. -/
  line : Nat
  /-- The token that was looked at and not consumed. -/
  lookahead : Option NamedToken
deriving DecidableEq

/-- What a stretch of an emitted parser does with its cursor. -/
abbrev CursorReading (α : Type) := Cursor → Outcome Cursor ParserFailure α

namespace Cursor

/-- The cursor at the start of a text. -/
def start (text : List Char) : Cursor := ⟨text, 1, none⟩

/-- A failure at the line of the cursor. -/
def failure (cursor : Cursor) (kind : FailureKind) (detail : String) : ParserFailure :=
  ⟨kind, cursor.line, "Parse Error, line " ++ toString cursor.line ++ ": " ++ detail⟩

/-- The failure at a place where no rule for tokens applies. -/
def scanFailure (line : Nat) (rest : List Char) : ParserFailure :=
  ⟨.scan, line, "Lexer Error, line " ++ toString line ++
    ": No matching token found. Remaining input: " ++
    String.ofList (rest.take ScanError.previewLength) ++ " ...."⟩

/-- Reads the token of lookahead, behind any white space, from a text and a line. -/
def read (lexicon : Lexicon) (text : List Char) (line : Nat) :
    Outcome Cursor ParserFailure (Option NamedToken) :=
  match text with
  | [] => .ok none ⟨[], line, none⟩ []
  | c :: l =>
    match _h : lexicon.piece? (c :: l) with
    | none => .failed (scanFailure line (c :: l)) []
    | some piece =>
      if piece.rule = 0 then read lexicon piece.rest (line + piece.text.count '\n')
      else
        let token : NamedToken := ⟨piece.name, String.ofList piece.text⟩
        .ok (some token) ⟨piece.rest, line, some token⟩ []
termination_by text.length
decreasing_by exact Lexicon.length_rest_lt _h

/-- **Looks at the next token.** -/
def peek (lexicon : Lexicon) : CursorReading (Option NamedToken) := fun cursor =>
  match cursor.lookahead with
  | some token => .ok (some token) cursor []
  | none => read lexicon cursor.rest cursor.line

/-- **Enters a nonterminal**: looks at the next token and reports the entry. -/
def enter (lexicon : Lexicon) (nonterminal : String) : CursorReading (Option String) :=
  fun cursor => (cursor.peek lexicon).bind fun next cursor =>
    .ok (next.map (·.name)) cursor [.enter nonterminal cursor.line]

/-- **Consumes a token** with a given name. -/
def consume (lexicon : Lexicon) (expected : String) : CursorReading Value := fun cursor =>
  (cursor.peek lexicon).bind fun next cursor =>
    match next with
    | some token =>
      if token.name = expected then
        .ok (.token token.text) { cursor with lookahead := none }
          [.consume token.name token.text]
      else
        .failed (cursor.failure .parse ("Expected token " ++ expected ++ ", but found token " ++
          token.name ++ ":" ++ token.text)) []
    | none =>
      .failed (cursor.failure .parse ("Expected token " ++ expected ++
        ", but found token EOF:")) []

/-- The failure of a nonterminal none of whose alternatives begins with the next token. -/
def noAlternative (cursor : Cursor) (nonterminal : String) (expected : List (List String)) :
    ParserFailure :=
  let found := match cursor.lookahead with
    | some token => token.name ++ ":" ++ token.text
    | none => "EOF:"
  cursor.failure .parse ("while parsing " ++ nonterminal ++ " expected one of [" ++
    " | ".intercalate (expected.map (", ".intercalate ·)) ++ "], but found token " ++ found)

/-- After the start symbol nothing but the end of the text may follow. -/
def finish (lexicon : Lexicon) (v : Value) : CursorReading Value := fun cursor =>
  (cursor.peek lexicon).bind fun next cursor =>
    match next with
    | some token =>
      .failed (cursor.failure .trailingInput
        ("Couldn't parse all of input. Next token: " ++ token.name ++ ":" ++ token.text)) []
    | none => .ok v cursor []

end Cursor

/-- The value of a result, from the values of the steps. Discarded values all have the key
that stands for them in print. -/
def RoutineResult.value (values : List Value) : RoutineResult → Value
  | tuple => if values.isEmpty then .empty else .tuple values
  | suppressed => .empty
  | node nodeType keys => .node nodeType ((keys.map fun k => .named k.describe).zip values)

/-- Takes steps one after the other. -/
def takeSteps (take : RoutineStep → CursorReading Value) :
    List RoutineStep → CursorReading (List Value)
  | [] => fun cursor => .ok [] cursor []
  | step :: rest => fun cursor =>
    (take step cursor).bind fun v cursor => (takeSteps take rest cursor).map (v :: ·)

namespace Routine

/-- The branch for the next token. -/
def branch? (r : Routine) (next : Option String) : Option Branch :=
  next.bind fun name => r.branches.find? (·.lookahead.contains name)

end Routine

namespace ParserModule

variable (m : ParserModule)

/-- The rules for tokens, as an engine understands them. -/
def lexicon (engine : PatternEngine) : Except PatternError Lexicon := do
  let rules ← m.tokenRules.mapM fun (name, pattern) => LexRule.build engine name pattern
  return ⟨rules⟩

/-- The routine of a nonterminal. -/
def routine? (nonterminal : String) : Option Routine :=
  m.routines.find? (·.nonterminal == nonterminal)

/-- The routine that a call runs: a nonterminal without one is read from the start. -/
def target? (nonterminal : String) : Option Routine :=
  (m.routine? nonterminal).or (m.routine? m.start)

/-- **Runs the routine of a nonterminal** with at most `fuel` nested calls. -/
def call (lexicon : Lexicon) : (fuel : Nat) → (nonterminal : String) → CursorReading Value
  | 0, _, _ => .exhausted
  | fuel + 1, nonterminal, cursor =>
    match m.target? nonterminal with
    | none => .exhausted
    | some r =>
      let run (body : RoutineBody) : CursorReading Value := fun cursor =>
        (takeSteps (fun
          | .consume token => Cursor.consume lexicon token
          | .call name => call lexicon fuel name) body.steps cursor).map body.result.value
      (cursor.enter lexicon r.nonterminal).bind fun next cursor =>
        match r.branch? next with
        | some branch => run branch.body cursor
        | none =>
          match r.fallback with
          | .epsilon body => run body cursor
          | .fail expected => .failed (cursor.noAlternative r.nonterminal expected) []

/-- A number of nested calls that is enough for a text of the given length. -/
def callBound (length : Nat) : Nat := (length + 1) * (m.routines.length + 1)

/-- **Runs an emitted parser** on a text. -/
def run (lexicon : Lexicon) (text : String) : Outcome Cursor ParserFailure Value :=
  let text := text.toList
  (m.call lexicon (m.callBound text.length) m.start (.start text)).bind (Cursor.finish lexicon)

end ParserModule

end PredictiveParsing
