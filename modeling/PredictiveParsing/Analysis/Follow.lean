import PredictiveParsing.Analysis.Adjacency

/-!
# What can come after

`FOLLOW` of a symbol holds the terminals that can stand right after it, and the mark for the end
of the input if nothing needs to. It holds what its followers can begin with, the mark if the
symbol is the start symbol, and all that can come after a nonterminal that the symbol ends. The
last part is found by passing sets on, round by round, until nothing changes.

Each round passes over the symbols in order and works on the sets in place, so what a round adds
can travel on within the same round. A round that changes something adds a member to some set,
which bounds the number of rounds.

## Main definitions

* `followStart`: the sets before anything is passed on
* `sweep`, `settle`: one round, and all rounds
-/

namespace PredictiveParsing

/-- The sets of all symbols, by number among all symbols. -/
abbrev FollowTable := Array LookaheadSet

namespace FollowTable

/-- The set of a symbol. -/
def get (table : FollowTable) (size x : Nat) : LookaheadSet := table[x]?.getD (.empty size)

/-- Passes the set of one symbol on to another, and tells whether that added anything. -/
def pass (table : FollowTable) (size source target : Nat) : FollowTable × Bool :=
  let (s, grew) := (table.get size target).absorb (table.get size source)
  (table.setIfInBounds target s, grew)

end FollowTable

namespace Grammar

variable (g : Grammar)

/-- The sets before anything is passed on. -/
def followStart (adjacency : Adjacency) (first : Symbol → LookaheadSet) : FollowTable :=
  (Array.range g.symbolCount).map fun x =>
    let start := match g.symbolOfId x with
      | .nonterminal nt => if g.isStart nt then g.emptySet.withEnd else g.emptySet
      | .terminal _ => g.emptySet
    (adjacency.followersOf x).toList.foldl
      (fun s f => s.union (first (g.symbolOfId f)).withoutEpsilon) start

/-- The pairs of symbols between which sets are passed on: each symbol receives the sets of the
nonterminals that it ends. -/
def inheritances (adjacency : Adjacency) : List (Nat × Nat) :=
  (List.range g.symbolCount).flatMap fun x =>
    (adjacency.endedBy x).toList.filterMap fun nt =>
      let source := g.symbolId (.nonterminal nt)
      -- a symbol has nothing to receive from itself
      if source == x then none else some (source, x)

/-- **One round**: sets are passed on along the pairs in order; tells whether any of them grew. -/
def sweep (pairs : List (Nat × Nat)) (table : FollowTable) : FollowTable × Bool :=
  pairs.foldl (fun (table, changed) (source, target) =>
    let (table, grew) := table.pass g.terminals.size source target
    (table, changed || grew)) (table, false)

/-- **Rounds until nothing changes**, and their number; at most `fuel` rounds are made. -/
def settle (pairs : List (Nat × Nat)) : (fuel : Nat) → FollowTable → FollowTable × Nat
  | 0, table => (table, 0)
  | fuel + 1, table =>
    let (table, changed) := g.sweep pairs table
    if changed then
      let (table, rounds) := settle pairs fuel table
      (table, rounds + 1)
    else (table, 1)

/-- A number of rounds that is always enough: every round but the last adds one of at most
`terminals + 1` members to the set of one symbol. -/
def roundBound : Nat := g.symbolCount * (g.terminals.size + 1) + 1

/-- **What can come after** each symbol, and the number of rounds it took to find out. -/
def followSets (adjacency : Adjacency) (first : Symbol → LookaheadSet) : FollowTable × Nat :=
  g.settle (g.inheritances adjacency) g.roundBound (g.followStart adjacency first)

end Grammar

end PredictiveParsing
