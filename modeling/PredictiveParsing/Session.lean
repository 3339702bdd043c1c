import PredictiveParsing.GrammarError
import PredictiveParsing.GrammarText.Rules
import PredictiveParsing.Journal
import PredictiveParsing.Parse.Driver
import PredictiveParsing.Pattern.Engine

/-!
# Sessions

A session builds, loads, compiles and uses grammars, and keeps a journal of it. What was noted
before a failure stays in the journal. Patterns are understood in one way throughout a session.

## Main definitions

* `Session`: a computation that may fail and keeps a journal
* `Session.build`, `Session.compile`, `Session.parse`: the steps of a session
* `Session.loader`, `Session.load`: reading grammar files
-/

namespace PredictiveParsing

/-- **A computation that may fail and keeps a journal**, the latest note first. -/
abbrev Session (ε α : Type) := ExceptT ε (StateM (List Note)) α

namespace Session

/-- Adds notes to the journal. -/
def noteAll {ε : Type} (notes : List Note) : Session ε Unit :=
  modify (notes.reverse ++ ·)

/-- The result of a session and its journal. -/
def finish {ε α : Type} (s : Session ε α) : Except ε α × List Note :=
  let (result, notes) := (s.run).run []
  (result, notes.reverse)

/-- Builds a grammar from declarations. -/
def build (d : Declarations) (engine : PatternEngine := Pattern.engine) :
    Session GrammarError Grammar := do
  match d.build engine with
  | .ok g => noteAll g.buildNotes; return g
  | .error e => throw (.build e)

/-- Compiles a grammar. -/
def compile (g : Grammar) : Session GrammarError Compiled := do
  match g.compile with
  | .ok c => noteAll c.notes; return c
  | .error e => noteAll (e.notes g); throw (e.toError g)

/-- Parses a text; the events of the parse are noted. -/
def parse {ε : Type} (c : Compiled) (text : String) :
    Session ε (Outcome Scan ParseError Value) := do
  let outcome := c.parse text
  noteAll (outcome.events.map Event.note)
  return outcome

/-- The compiled grammar of grammar files, with which grammar files are read. -/
def loader (engine : PatternEngine := Pattern.engine) : Session GrammarError Compiled := do
  compile (← build GrammarText.declarations engine)

/-- A session whose failures are renamed. -/
def mapError {ε ε' α : Type} (f : ε → ε') (s : Session ε α) : Session ε' α :=
  ExceptT.adapt f s

/-- **Reads a grammar file** with the compiled grammar of grammar files. -/
def loadWith (loader : Compiled) (source : String) (engine : PatternEngine := Pattern.engine) :
    Session LoadError Grammar := do
  match ← parse loader source with
  | .exhausted => throw .exhausted
  | .failed e _ => throw (.syntaxError e)
  | .ok value _ _ =>
    match GrammarText.documentOf value with
    | .error e => throw (.malformed e)
    | .ok doc => mapError .grammar (build doc.toDeclarations engine)

/-- **Reads a grammar file.** -/
def load (source : String) (engine : PatternEngine := Pattern.engine) :
    Session LoadError Grammar := do
  loadWith (← mapError .grammar (loader engine)) source engine

end Session

end PredictiveParsing
