import PredictiveParsing.Lexicon.Scan

/-!
# Token streams

A token stream is a cursor on a text. It reads a token only when it is asked for one, and it can
look at the next token without taking it.

## Main definitions

* `TokenStream`: the cursor
* `TokenStream.peek`, `TokenStream.take`: look at, or take, the next token
* `TokenStream.advance`: take the next token of an iteration, which a failure ends
* `TokenStream.Query`, `TokenStream.ask`: the questions that a stream answers
-/

namespace PredictiveParsing

/-- **A cursor on a text** that yields its tokens. -/
structure TokenStream where
  /-- The rules for tokens. -/
  lexicon : Lexicon
  /-- The text behind the cursor; a token that was looked at is before the cursor. -/
  rest : List Char
  /-- The line of the cursor. -/
  line : Nat
  /-- The token that was looked at and not taken. -/
  lookahead : Option Token
  /-- Whether an iteration has met a failure. -/
  failed : Bool

namespace TokenStream

/-- The cursor at the start of a text. -/
def ofText (lexicon : Lexicon) (text : List Char) : TokenStream := ⟨lexicon, text, 1, none, false⟩

/-- **Looks at the next token.** White space before it is passed even if no token follows. -/
def peek (s : TokenStream) : Except ScanError (Option Token) × TokenStream :=
  match s.lookahead with
  | some t => (.ok (some t), s)
  | none =>
    let met := s.lexicon.next s.line s.rest
    (met.item,
      { s with rest := met.rest, line := met.line, lookahead := met.item.toOption.join })

/-- **Takes the next token.** -/
def take (s : TokenStream) : Except ScanError (Option Token) × TokenStream :=
  match s.peek with
  | (.ok t, s) => (.ok t, { s with lookahead := none })
  | (.error e, s) => (.error e, s)

/-- What an iteration yields at one step. -/
inductive Step where
  /-- A token. -/
  | token (t : Token)
  /-- A failure; the iteration is over after it. -/
  | failure (e : ScanError)
  /-- The iteration is over. -/
  | over
deriving DecidableEq

/-- **Takes the next token of an iteration.** After a failure the iteration is over. -/
def advance (s : TokenStream) : Step × TokenStream :=
  if s.failed then (.over, s)
  else
    match s.take with
    | (.ok (some t), s) => (.token t, s)
    | (.ok none, s) => (.over, s)
    | (.error e, s) => (.failure e, { s with failed := true })

/-- The questions that a stream answers. -/
inductive Query where
  /-- What is the next token? -/
  | peek
  /-- Take the next token. -/
  | take
  /-- Take the next token of an iteration. -/
  | advance
  /-- On which line is the cursor? -/
  | line
  /-- Which text is behind the cursor? -/
  | remaining
deriving DecidableEq

/-- The answers of a stream. -/
inductive Answer where
  /-- A token, the end of the text, or a failure. -/
  | item (item : Except ScanError (Option Token))
  /-- A step of an iteration. -/
  | step (step : Step)
  /-- A line. -/
  | line (line : Nat)
  /-- A text. -/
  | text (text : String)

/-- The answer to a question, and the stream after it. -/
def ask (s : TokenStream) : Query → Answer × TokenStream
  | .peek => s.peek.map .item id
  | .take => s.take.map .item id
  | .advance => s.advance.map .step id
  | .line => (.line s.line, s)
  | .remaining => (.text (String.ofList s.rest), s)

/-- The answers to questions that are asked one after the other. -/
def askAll (s : TokenStream) : List Query → List Answer
  | [] => []
  | q :: queries => (s.ask q).1 :: (s.ask q).2.askAll queries

/-- The items of an iteration of a scan: its tokens, and the failure that ends it. -/
def stepsOf : Scan → List Step
  | .token t rest => .token t :: stepsOf rest
  | .done _ => []
  | .stuck e => [.failure e]

end TokenStream

end PredictiveParsing
