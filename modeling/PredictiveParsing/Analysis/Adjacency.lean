import PredictiveParsing.Analysis.First
import PredictiveParsing.Analysis.Reachable

/-!
# Neighbours and ends

Two relations between symbols say what can come after a symbol. A symbol *follows* another if it
can stand right after it, and a symbol *ends* a nonterminal if a text derived from the
nonterminal can end with it. Both are read off the bodies of the reachable productions.

First every symbol is registered as a follower of the one before it. Then each body is walked
from its end: the last symbol ends the head, and a symbol that can vanish passes on to the one
before it what follows it and, as long as everything behind can vanish, what it ends. All sets
are shared between the productions, so what is passed on includes what other productions have
contributed so far.

## Main definitions

* `Adjacency`: the two relations
* `Adjacency.register`, `Adjacency.updateEnds`: what one production contributes
* `Grammar.adjacency`: the relations of a grammar
* `lastPropagating`: the first of the symbols of a body behind which everything can vanish
-/

namespace PredictiveParsing

/-- **What follows and what is ended by each symbol.** Symbols are given by their number among
all symbols, ended nonterminals by their number among the nonterminals. -/
structure Adjacency where
  /-- For each symbol the symbols that follow it. -/
  followers : Array IndexSet
  /-- For each symbol the nonterminals that it ends. -/
  endsOf : Array IndexSet

namespace Adjacency

/-- The empty relations on a number of symbols. -/
def empty (count : Nat) : Adjacency := ⟨.replicate count ∅, .replicate count ∅⟩

/-- The symbols that follow a symbol. -/
def followersOf (a : Adjacency) (x : Nat) : IndexSet := a.followers[x]?.getD ∅

/-- The nonterminals that a symbol ends. -/
def endedBy (a : Adjacency) (x : Nat) : IndexSet := a.endsOf[x]?.getD ∅

/-- Lets a symbol follow another. -/
def addFollower (a : Adjacency) (x y : Nat) : Adjacency :=
  { a with followers := a.followers.modify x (·.insert y) }

/-- Lets a symbol end a nonterminal. -/
def addEnd (a : Adjacency) (x nt : Nat) : Adjacency :=
  { a with endsOf := a.endsOf.modify x (·.insert nt) }

/-- Lets a symbol be followed by all that follows another. -/
def passFollowers (a : Adjacency) (source target : Nat) : Adjacency :=
  { a with followers := a.followers.modify target (·.union (a.followersOf source)) }

/-- Lets a symbol end all that another ends. -/
def passEnds (a : Adjacency) (source target : Nat) : Adjacency :=
  { a with endsOf := a.endsOf.modify target (·.union (a.endedBy source)) }

/-- **Registers neighbours**: each symbol of a body follows the one before it. -/
def register (a : Adjacency) (g : Grammar) : List Symbol → Adjacency
  | x :: y :: rest => (a.addFollower (g.symbolId x) (g.symbolId y)).register g (y :: rest)
  | _ => a

/-- Walks a body from its end: `right` is the symbol at hand and the list holds the symbols
before it, the nearest first. `unbroken` tells whether everything behind `right` can vanish. -/
def inherit (g : Grammar) (nullable : Symbol → Bool) (unbroken : Bool) (right : Symbol) :
    List Symbol → Adjacency → Adjacency
  | [], a => a
  | left :: rest, a =>
    if nullable right then
      -- all that is known so far is passed on, from whichever production it comes
      let a := a.passFollowers (g.symbolId right) (g.symbolId left)
      let a := if unbroken then a.passEnds (g.symbolId right) (g.symbolId left) else a
      inherit g nullable unbroken left rest a
    else inherit g nullable false left rest a

/-- **Records the ends of a production**: its last symbol ends the head, and symbols that can
vanish pass on to the ones before them. -/
def updateEnds (a : Adjacency) (g : Grammar) (nullable : Symbol → Bool) (head : Nat)
    (body : List Symbol) : Adjacency :=
  match body.reverse with
  | [] => a
  | last :: rest => inherit g nullable true last rest (a.addEnd (g.symbolId last) head)

end Adjacency

/-- The first index of a body behind which every symbol can vanish; none for an empty body. -/
def lastPropagating (nullable : Symbol → Bool) (body : List Symbol) : Option Nat :=
  if body.isEmpty then none
  else some (body.length - 1 - (body.reverse.takeWhile nullable).length)

namespace Grammar

variable (g : Grammar)

/-- The productions of the reachable nonterminals, in the order of the walk. -/
def reachableProductions : List Nat := g.reachable.flatMap g.alternatives

/-- **The relations of a grammar**: first all neighbours are registered, then the ends of each
production are recorded. -/
def adjacency (nullable : Symbol → Bool) : Adjacency :=
  let neighbours := g.reachableProductions.foldl (fun a p => a.register g (g.body p))
    (Adjacency.empty g.symbolCount)
  g.reachable.foldl (fun a nt =>
    (g.alternatives nt).foldl (fun a p => a.updateEnds g nullable nt (g.body p)) a) neighbours

end Grammar

end PredictiveParsing
