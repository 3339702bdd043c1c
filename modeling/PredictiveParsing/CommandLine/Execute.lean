import PredictiveParsing.Analysis.SymbolGraph
import PredictiveParsing.CommandLine.Arguments
import PredictiveParsing.CommandLine.Files
import PredictiveParsing.CommandLine.NoteFilter
import PredictiveParsing.Emission.Rendering
import PredictiveParsing.Session

/-!
# Commands

What the commands do, given an access to files. The result is what is to be shown and the exit
code; a command changes nothing but files.

## Main definitions

* `Report`: what a command shows
* `Command.execute`: what a command does
* `Request.answer`: what a command line does
-/

namespace PredictiveParsing

/-- **What a command shows.** -/
structure Report where
  /-- The exit code. -/
  code : Nat
  /-- The output. -/
  stdout : String
  /-- The messages. -/
  stderr : String
deriving DecidableEq

/-- **Why a command is given up.** -/
structure CommandFault where
  /-- What could not be done. -/
  message : String
  /-- Why. -/
  cause : Option String := none
deriving DecidableEq

namespace CommandFault

/-- A text with its lines indented. -/
def indented (text : String) : String :=
  "\n".intercalate ((text.splitOn "\n").map ("    " ++ ·))

/-- The written form of a fault. -/
def describe (e : CommandFault) : String :=
  let cause := match e.cause with
    | none => ""
    | some cause => "\n\nCaused by:\n" ++ indented cause
  "Error: " ++ e.message ++ cause ++ "\n"

end CommandFault

/-- **The course of a command**: it may be given up, and it keeps a journal. -/
abbrev Course (m : Type → Type) (α : Type) := ExceptT CommandFault (StateT (List Note) m) α

namespace Command

variable {m : Type → Type} [Monad m] (files : FileAccess m)

/-- A session as a part of the course of a command. -/
def session {α : Type} (s : Session CommandFault α) : Course m α := do
  match (s.run).run (← get) with
  | (.ok a, notes) => set notes; return a
  | (.error e, notes) => set notes; throw e

/-- The text of a file. -/
def readFile (path : String) : Course m String := do
  match ← files.read path with
  | .ok text => return text
  | .error e => throw ⟨"unable to read " ++ path, some e.message⟩

/-- Writes a text to a file. -/
def writeFile (path text : String) : Course m Unit := do
  match ← files.write path text with
  | .ok () => return ()
  | .error e => throw ⟨"unable to write " ++ path, some e.message⟩

/-- **The compiled grammar of a grammar file.** -/
def compileFile (path : String) : Course m Compiled := do
  let source ← readFile files path
  session do
    let loader ← Session.mapError (fun e => ⟨e.message, none⟩) Session.loader
    let g ← Session.mapError (fun e => ⟨"invalid grammar " ++ path, some e.message⟩)
      (Session.loadWith loader source)
    Session.mapError (fun e => ⟨e.message, none⟩) (Session.compile g)

/-- The report of a command that has been carried out. -/
def success (stdout : String) : Report := ⟨0, stdout, ""⟩

/-- The report on a parse. -/
def parseReport : Outcome Scan ParseError Value → Report
  | .ok v _ _ => success (v.describe ++ "\n")
  | .failed e _ => ⟨1, "", e.message ++ "\n"⟩
  | .exhausted => ⟨1, "", LoadError.exhausted.message ++ "\n"⟩

/-- The report on a grammar: the analysis, then the conflicts. -/
def analysisReport (c : Compiled) : Report :=
  let conflicts := c.prediction.conflicts.map fun conflict =>
    "conflict: " ++ conflict.describe c.grammar ++ "\n"
  success (c.analysis.report c.grammar ++
    if conflicts.isEmpty then "no LL(1) conflicts\n" else String.join conflicts)

/-- **What a command does.** -/
def execute : Command → Course m Report
  | emit grammar output withMain => do
    let c ← compileFile files grammar
    let source := (c.parserModule (some ("from " ++ grammar)) withMain).render
    match output with
    | some path => writeFile files path source; return success ""
    | none => return success source
  | parse grammar input => do
    let c ← compileFile files grammar
    let text ← readFile files input
    return parseReport (← session (Session.parse c text))
  | analyze grammar => return analysisReport (← compileFile files grammar)
  | graph grammar => do
    let c ← compileFile files grammar
    return success ((c.analysis.symbolGraph c.grammar).describe c.grammar ++ "\n")

end Command

namespace Request

/-- The name and the version of the program. -/
def versionLine : String := "llgen 0.1.0\n"

/-- How commands are written. -/
def usage : String :=
  String.join [
    "Usage: llgen [-v]... <command>\n",
    "\n",
    "Commands:\n",
    "  emit <grammar> [-o <file>] [--main]  write a parser for a grammar file\n",
    "  parse <grammar> <input>              parse a file and print the tree\n",
    "  analyze <grammar>                    print sets of tokens and conflicts\n",
    "  graph <grammar>                      print which symbols follow each other\n"]

/-- The notes to show before the messages of a command. -/
def noteText (verbosity : Nat) (filterText : Option String) (notes : List Note) : String :=
  let byVerbosity := NoteFilter.ofVerbosity verbosity
  let (filter, warnings) := match filterText with
    | none => (byVerbosity, [])
    | some text => byVerbosity.addText text
  String.join ((warnings ++ noteLines 0 (notes.filter filter.shows)).map (· ++ "\n"))

variable {m : Type → Type} [Monad m]

/-- **What a command line does.** The text that describes which notes are to be shown is given
beside the arguments. -/
def answer (files : FileAccess m) (filterText : Option String) : Request → m Report
  | version => return ⟨0, versionLine, ""⟩
  | help => return ⟨0, usage, ""⟩
  | misuse => return ⟨2, "", usage⟩
  | invoke invocation => do
    let (result, notes) ← ((invocation.command.execute files).run).run []
    let report := match result with
      | .ok report => report
      | .error e => ⟨1, "", e.describe⟩
    let shown := noteText invocation.verbosity filterText notes.reverse
    return { report with stderr := shown ++ report.stderr }

end Request

end PredictiveParsing
