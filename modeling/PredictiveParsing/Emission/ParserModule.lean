import PredictiveParsing.Compiled

/-!
# Parser modules

What an emitted parser consists of, before it is written out as source: rules for tokens, types
of nodes, and a routine for each nonterminal. All names in it are names of the grammar.

## Main definitions

* `ParserModule`: an emitted parser
* `Routine`, `Branch`, `Fallback`, `RoutineBody`: how a nonterminal is read
* `Compiled.parserModule`: the parser for a grammar
-/

namespace PredictiveParsing

/-- A step of a routine. Each step yields a value. -/
inductive RoutineStep where
  /-- Consume a token. -/
  | consume (token : String)
  /-- Call the routine of a nonterminal. -/
  | call (nonterminal : String)
deriving DecidableEq

/-- What is made of the values of the steps. -/
inductive RoutineResult where
  /-- Their tuple; nothing, if there are none. -/
  | tuple
  /-- Nothing. -/
  | suppressed
  /-- A node of the type with the given name, with a key for each value. -/
  | node (nodeType : String) (keys : List FieldKey)
deriving DecidableEq

/-- Steps, and what is made of their values. -/
structure RoutineBody where
  /-- The steps. -/
  steps : List RoutineStep
  /-- What is made of their values. -/
  result : RoutineResult
deriving DecidableEq

/-- A body that is run if the next token is one of some tokens. -/
structure Branch where
  /-- The names of the tokens. -/
  lookahead : List String
  /-- The body. -/
  body : RoutineBody
deriving DecidableEq

/-- What happens if no branch is taken. -/
inductive Fallback where
  /-- A body is run all the same. -/
  | epsilon (body : RoutineBody)
  /-- The parse fails; the message lists the tokens that the alternatives can begin with. -/
  | fail (expected : List (List String))
deriving DecidableEq

/-- **How a nonterminal is read**: by the first branch whose tokens include the next one. -/
structure Routine where
  /-- The name of the nonterminal. -/
  nonterminal : String
  /-- The branches, in order of preference. -/
  branches : List Branch
  /-- What happens if none is taken. -/
  fallback : Fallback
deriving DecidableEq

/-- **An emitted parser.** -/
structure ParserModule where
  /-- A text for the head of the source. -/
  header : Option String
  /-- The name of the start symbol. -/
  start : String
  /-- The types of nodes. -/
  nodeTypes : List NodeType
  /-- The rules for tokens by name and pattern, the one for white space first. -/
  tokenRules : List (String × String)
  /-- The routines, that of the start symbol first. -/
  routines : List Routine
  /-- Whether the source is to be a program of its own. -/
  withMain : Bool
deriving DecidableEq

namespace Compiled

variable (c : Compiled)

/-- The step that reads a symbol. -/
def routineStep : Symbol → RoutineStep
  | .terminal t => .consume (c.grammar.terminalName t)
  | .nonterminal nt => .call (c.grammar.nonterminalName nt)

/-- What a production makes of the values of its symbols. -/
def routineResult (p : Nat) : RoutineResult :=
  match c.shapes.shape? p with
  | none => .tuple
  | some .tuple => .tuple
  | some .suppressed => .suppressed
  | some (.node nodeType keys) => .node (c.shapes.typeName nodeType) keys

/-- The body for a production. -/
def routineBody (p : Nat) : RoutineBody where
  steps := (c.grammar.body p).map c.routineStep
  result := c.routineResult p

/-- **The routine of a nonterminal.** An alternative that begins with no token at all gets no
branch. -/
def routine (nt : Nat) : Routine :=
  let choice := c.prediction.choice nt
  { nonterminal := c.grammar.nonterminalName nt
    branches := (choice.prospects.filter (!·.lookahead.isEmpty)).map fun prospect =>
      ⟨prospect.lookahead.names c.grammar.terminalNames, c.routineBody prospect.production⟩
    fallback :=
      match choice.epsilon with
      | some p => .epsilon (c.routineBody p)
      | none => .fail (choice.expected c.grammar) }

/-- **The parser for a grammar**, with a routine for each reachable nonterminal. -/
def parserModule (header : Option String) (withMain : Bool) : ParserModule where
  header := header
  start := c.grammar.nonterminalName c.grammar.start
  nodeTypes := c.shapes.nodeTypes
  tokenRules := c.grammar.lexicon.rules.map fun rule => (rule.name, rule.pattern)
  routines := c.analysis.reachable.map c.routine
  withMain := withMain

end Compiled

end PredictiveParsing
