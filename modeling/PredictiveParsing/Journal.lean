import PredictiveParsing.Compiled
import PredictiveParsing.Parse.Outcome

/-!
# Journals

What is done with a grammar is noted in a journal. Each note has a level, belongs to a part of the
program, and has a text.

## Main definitions

* `Level`, `Note`: the notes of a journal
* `Grammar.buildNotes`, `Compiled.notes`, `LeftRecursion.notes`, `Event.note`: what is noted
-/

namespace PredictiveParsing

/-- How much a note matters; earlier levels matter more. -/
inductive Level where
  /-- Something went wrong. -/
  | error
  /-- Something deserves attention. -/
  | warn
  /-- Something was done. -/
  | info
  /-- A stage was passed. -/
  | debug
  /-- A step was made. -/
  | trace
deriving DecidableEq, Inhabited

namespace Level

/-- The number of a level: the more a note matters the smaller it is. -/
def rank : Level → Nat
  | error => 1
  | warn => 2
  | info => 3
  | debug => 4
  | trace => 5

/-- The name of a level. -/
def name : Level → String
  | error => "ERROR"
  | warn => "WARN"
  | info => "INFO"
  | debug => "DEBUG"
  | trace => "TRACE"

end Level

/-- **A note.** -/
structure Note where
  /-- How much it matters. -/
  level : Level
  /-- The part of the program that it belongs to. -/
  target : String
  /-- What it says. -/
  message : String
deriving DecidableEq, Inhabited

/-- The note on a lexicon. -/
def Lexicon.note (l : Lexicon) : Note :=
  ⟨.debug, "llgen_lex::table", s!"built lexical table with {l.rules.length} rules"⟩

/-- **What is noted when a grammar is built.** -/
def Grammar.buildNotes (g : Grammar) : List Note :=
  [g.lexicon.note,
    ⟨.debug, "llgen::grammar::builder",
      s!"built grammar: {g.terminals.size} terminals, {g.nonterminals.size} nonterminals, " ++
        s!"{g.productions.size} productions"⟩]

/-- The note on what a nonterminal can begin with. -/
def Grammar.firstNote (g : Grammar) (nt : Nat) (s : LookaheadSet) : Note :=
  ⟨.trace, "llgen::grammar::first",
    "FIRST(" ++ g.nonterminalName nt ++ ") = " ++ g.describeSet s⟩

/-- The note on a nonterminal that is not reachable. -/
def Grammar.unreachableNote (g : Grammar) (nt : Nat) : Note :=
  ⟨.warn, "llgen::grammar::analysis",
    "nonterminal `" ++ g.nonterminalName nt ++ "` is not reachable from `" ++
      g.nonterminalName g.start ++ "`"⟩

/-- The note on a conflict. -/
def Conflict.note (g : Grammar) (c : Conflict) : Note :=
  ⟨.warn, "llgen::parser::ll1", "LL(1) conflict: " ++ c.describe g⟩

/-- **What is noted when a grammar is compiled**: the sets in the order in which they were found,
the nonterminals that are not reachable, and the conflicts. -/
def Compiled.notes (c : Compiled) : List Note :=
  let g := c.grammar
  c.analysis.first.order.map (fun nt => g.firstNote nt (c.analysis.first.nonterminal nt)) ++
    g.unreachable.map g.unreachableNote ++
    [⟨.trace, "llgen::grammar::follow",
      s!"FOLLOW sets settled after {c.analysis.rounds} rounds"⟩] ++
    c.prediction.conflicts.map (Conflict.note g) ++
    [⟨.debug, "llgen::compiled",
      "compiled grammar for `" ++ g.nonterminalName g.start ++
        s!"`: {c.analysis.reachable.length} reachable nonterminals, " ++
        s!"{c.prediction.conflicts.length} conflicts"⟩]

/-- What is noted before a nonterminal turns out to begin with itself. -/
def LeftRecursion.notes (e : LeftRecursion) (g : Grammar) : List Note :=
  e.known.finished.reverse.map fun (nt, s) => g.firstNote nt s

/-- The note on an event of a parse. -/
def Event.note (e : Event) : Note :=
  ⟨.trace, "llgen::parser::driver",
    match e with
    | .enter nonterminal line => nonterminal ++ s!" (line {line})"
    | .consume token text => "consumed " ++ token ++ ":" ++ text⟩

end PredictiveParsing
