import PredictiveParsing.Grammar.Basic

/-!
# Reachable nonterminals

The nonterminals that can occur in a text derived from the start symbol, found by a walk in
breadth: each nonterminal is expanded once, in the order in which the nonterminals are met.

## Main definitions

* `Grammar.successors`: the nonterminals in the alternatives of a nonterminal
* `Grammar.reachable`: the reachable nonterminals in the order of the walk
-/

namespace PredictiveParsing

/-- The number of a nonterminal symbol. -/
def Symbol.nonterminal? : Symbol → Option Nat
  | .terminal _ => none
  | .nonterminal nt => some nt

namespace Grammar

variable (g : Grammar)

/-- The nonterminals in the alternatives of a nonterminal, as they occur there. -/
def successors (nt : Nat) : List Nat :=
  (g.alternatives nt).flatMap fun p => (g.body p).filterMap Symbol.nonterminal?

/-- The walk from the nonterminals of a queue on; those in `visited` are expanded already. Each
step expands a nonterminal, so their number bounds the steps. -/
def walk : (fuel : Nat) → (visited queue : List Nat) → List Nat
  | 0, visited, _ => visited
  | _ + 1, visited, [] => visited
  | fuel + 1, visited, nt :: queue =>
    let fresh := (g.successors nt).filter fun m => !(visited ++ nt :: queue).contains m
    walk fuel (visited ++ [nt]) (queue ++ fresh.eraseDups)

/-- **The reachable nonterminals**, the start symbol first, in the order of a walk in breadth. -/
def reachable : List Nat := g.walk g.nonterminals.size [] [g.start]

/-- The nonterminals that are not reachable, in order of number. -/
def unreachable : List Nat :=
  let met := g.reachable
  (List.range g.nonterminals.size).filter fun nt => !met.contains nt

end Grammar

end PredictiveParsing
