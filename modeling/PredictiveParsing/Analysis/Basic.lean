import PredictiveParsing.Analysis.Follow

/-!
# The analysis of a grammar

## Main definitions

* `Analysis`: all that is found out about a grammar
* `Grammar.analyze`: the analysis, unless a nonterminal can begin with itself
* `Analysis.report`: the written form of the result
-/

namespace PredictiveParsing

/-- **All that is found out about a grammar.** -/
structure Analysis where
  /-- What can come first. -/
  first : FirstSets
  /-- The reachable nonterminals in the order of a walk in breadth. -/
  reachable : List Nat
  /-- What follows, and what is ended by, each symbol. -/
  adjacency : Adjacency
  /-- What can come after each symbol, by number among all symbols. -/
  followTable : FollowTable
  /-- The number of rounds it took to find that out. -/
  rounds : Nat

/-- **The analysis of a grammar**, unless a nonterminal can begin with itself. -/
def Grammar.analyze (g : Grammar) : Except LeftRecursion Analysis := do
  let first ← g.firstSets
  let adjacency := g.adjacency first.nullable
  let (followTable, rounds) := g.followSets adjacency first.symbol
  return { first, reachable := g.reachable, adjacency, followTable, rounds }

namespace Analysis

variable (a : Analysis) (g : Grammar)

/-- Whether a nonterminal is reachable. -/
def isReachable (nt : Nat) : Bool := a.reachable.contains nt

/-- What can come after a symbol. -/
def follow (x : Symbol) : LookaheadSet := a.followTable.get g.terminals.size (g.symbolId x)

/-- The symbols that follow a symbol, in order of number. -/
def followers (x : Symbol) : List Symbol :=
  (a.adjacency.followersOf (g.symbolId x)).toList.map g.symbolOfId

/-- The nonterminals that a symbol ends, in order of number. -/
def endsOf (x : Symbol) : List Nat := (a.adjacency.endedBy (g.symbolId x)).toList

/-- For a reachable production, the first index of its body behind which everything can vanish. -/
def lastPropagating (p : Nat) : Option Nat :=
  match g.productions[p]? with
  | none => none
  | some production =>
    if a.isReachable production.head then
      PredictiveParsing.lastPropagating a.first.nullable production.body
    else none

/-- What can come after a production: after the symbol behind which everything can vanish. -/
def productionFollow (p : Nat) : Option LookaheadSet := do
  let k ← a.lastPropagating g p
  let x ← (g.body p)[k]?
  return a.follow g x

/-- The lines on one nonterminal: its name, the two sets, and its alternatives with the sets of
what they can begin with. -/
def reportLines (nt : Nat) : List String :=
  let x := Symbol.nonterminal nt
  [g.nonterminalName nt, "  FIRST  " ++ g.describeSet (a.first.symbol x),
    "  FOLLOW " ++ g.describeSet (a.follow g x)] ++
  (g.alternatives nt).map fun p =>
    "  " ++ g.describeNumbered p ++ "    " ++ g.describeSet (a.first.production p)

/-- **The written form of an analysis**: the reachable nonterminals in order. -/
def report : String :=
  String.join ((a.reachable.flatMap (a.reportLines g)).map (· ++ "\n"))

end Analysis

end PredictiveParsing
