import PredictiveParsing.Compiled
import PredictiveParsing.GrammarText.FromTree
import PredictiveParsing.Parse.ParseError

/-!
# Faults of grammars

## Main definitions

* `GrammarError`: why a grammar cannot be built or compiled
* `LoadError`: why the text of a grammar file cannot be loaded
-/

namespace PredictiveParsing

/-- **Why a grammar cannot be built or compiled.** -/
inductive GrammarError where
  /-- Its declarations have a fault. -/
  | build (e : BuildError)
  /-- A nonterminal can begin with itself; the names lead from it back to it. -/
  | leftRecursion (nonterminal : String) (cycle : List String)
deriving DecidableEq

/-- The message of a fault. -/
def GrammarError.message : GrammarError → String
  | build e => e.message
  | leftRecursion _ cycle => "left recursion through " ++ " -> ".intercalate cycle

/-- The fault of a grammar in which a nonterminal can begin with itself. -/
def LeftRecursion.toError (e : LeftRecursion) (g : Grammar) : GrammarError :=
  .leftRecursion (g.nonterminalName e.nonterminal) (e.cycle.map g.nonterminalName)

/-- **Why the text of a grammar file cannot be loaded.** -/
inductive LoadError where
  /-- The text is not one of a grammar file. -/
  | syntaxError (e : ParseError)
  /-- The declarations in it have a fault. -/
  | grammar (e : GrammarError)
  /-- Its value is not one of a grammar file. -/
  | malformed (e : GrammarText.Malformed)
  /-- The parse was given too few nested calls. -/
  | exhausted
deriving DecidableEq

/-- The message of a failure to load. -/
def LoadError.message : LoadError → String
  | syntaxError e => e.message
  | grammar e => e.message
  | malformed e => e.message
  | exhausted => "the parse was given too few nested calls"

end PredictiveParsing
