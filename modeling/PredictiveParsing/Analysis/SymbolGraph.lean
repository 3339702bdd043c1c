import PredictiveParsing.Analysis.Basic

/-!
# Symbol graphs

The relations from which it is found what can come after each symbol, as a graph. Its nodes are
the start symbol and the symbols that take part in a relation, in order of first mention.

## Main definitions

* `Relation`: how two symbols are related
* `Analysis.relations`: the related pairs, in order
* `SymbolGraph`, `Analysis.symbolGraph`: the graph
* `SymbolGraph.describe`: its written form, as a graph that drawing tools read
-/

namespace PredictiveParsing

/-- **How two symbols are related.** -/
inductive Relation where
  /-- The second can come right after the first. -/
  | follows
  /-- What stands for the second can end with the first. -/
  | ends
deriving DecidableEq

/-- The name of a relation. -/
def Relation.name : Relation → String
  | follows => "follows"
  | ends => "ends"

/-- Two symbols and how they are related. -/
structure RelatedPair where
  /-- The first symbol. -/
  source : Symbol
  /-- The second symbol. -/
  target : Symbol
  /-- Their relation. -/
  relation : Relation
deriving DecidableEq

/-- An edge between two nodes, given by their places among the nodes. -/
structure GraphEdge where
  /-- The place of the first node. -/
  source : Nat
  /-- The place of the second node. -/
  target : Nat
  /-- How they are related. -/
  relation : Relation
deriving DecidableEq

/-- **A graph of symbols.** -/
structure SymbolGraph where
  /-- The symbols that are nodes. -/
  nodes : List Symbol
  /-- The edges. -/
  edges : List GraphEdge
deriving DecidableEq

namespace Analysis

variable (a : Analysis) (g : Grammar)

/-- The pairs with a given first symbol: what follows it, then what it ends. -/
def relationsOf (x : Symbol) : List RelatedPair :=
  (a.followers g x).map (⟨x, ·, .follows⟩) ++
    (a.endsOf g x).map fun nt => ⟨x, .nonterminal nt, .ends⟩

/-- **The related pairs**, in the order of the numbers of their first symbols. -/
def relations : List RelatedPair :=
  (List.range g.symbolCount).flatMap fun id => a.relationsOf g (g.symbolOfId id)

/-- **The graph of the relations**: the start symbol is its first node. -/
def symbolGraph : SymbolGraph :=
  let pairs := a.relations g
  let nodes :=
    (.nonterminal g.start :: pairs.flatMap fun r => [r.source, r.target]).eraseDups
  { nodes
    edges := pairs.map fun r => ⟨nodes.idxOf r.source, nodes.idxOf r.target, r.relation⟩ }

end Analysis

namespace SymbolGraph

/-- The written form of a character in a label: quotes and backslashes are marked, and a line
feed ends a line that is set flush left. -/
def labelChar : Char → List Char
  | '"' => ['\\', '"']
  | '\\' => ['\\', '\\']
  | '\n' => ['\\', 'l']
  | c => [c]

/-- The attributes of a node or an edge with a label. -/
def labelled (text : String) : String :=
  "[ label = \"" ++ String.ofList (text.toList.flatMap labelChar) ++ "\" ]"

/-- **The written form of a graph**: a line for each node and for each edge. -/
def describe (graph : SymbolGraph) (g : Grammar) : String :=
  let nodes := graph.nodes.zipIdx.map fun (x, i) =>
    "    " ++ toString i ++ " " ++ labelled (g.symbolName x) ++ "\n"
  let edges := graph.edges.map fun e =>
    "    " ++ toString e.source ++ " -> " ++ toString e.target ++ " " ++
      labelled e.relation.name ++ "\n"
  "digraph \x7b\n" ++ String.join nodes ++ String.join edges ++ "\x7d\n"

end SymbolGraph

end PredictiveParsing
