import PredictiveParsing.Grammar.Basic

/-!
# What can come first

`FIRST` of a nonterminal holds the terminals with which the texts derived from it can begin, and
the mark for the empty text if that can be derived. The sets are found by a search in depth: the
alternatives of a nonterminal are explored one after the other, each from its first symbol up to
the first one that cannot vanish. A nonterminal whose exploration leads back to it can begin with
itself, and is reported with the nonterminals on the way.

Since the sets of all nonterminals that the exploration of a nonterminal meets are known before
its own set is made, one pass is enough.

## Main definitions

* `bodyFirst`: what a sequence of symbols can begin with, given it for each symbol
* `Grammar.visit`: the exploration of one nonterminal
* `FirstSets`, `Grammar.firstSets`: the sets of all nonterminals and productions
* `LeftRecursion`: the report of a nonterminal that can begin with itself
-/

namespace PredictiveParsing

/-- **What a sequence of symbols can begin with**, given it for each symbol: the sets of the
symbols up to the first one that cannot vanish. -/
def bodyFirst (size : Nat) (first : Symbol → LookaheadSet) : List Symbol → LookaheadSet
  | [] => (LookaheadSet.empty size).withEpsilon
  | x :: rest =>
    if (first x).hasEpsilon then (first x).withoutEpsilon.union (bodyFirst size first rest)
    else first x

/-- The sets that are known in a search, the latest first. -/
structure KnownFirst where
  /-- The nonterminals with their sets, the latest first. -/
  finished : List (Nat × LookaheadSet) := []
deriving DecidableEq

namespace KnownFirst

/-- The set of a nonterminal, if it is known. -/
def find? (k : KnownFirst) (nt : Nat) : Option LookaheadSet := k.finished.lookup nt

/-- Records the set of a nonterminal. -/
def record (k : KnownFirst) (nt : Nat) (s : LookaheadSet) : KnownFirst := ⟨(nt, s) :: k.finished⟩

/-- What a symbol can begin with; a nonterminal that is not known begins with nothing. -/
def symbol (k : KnownFirst) (size : Nat) : Symbol → LookaheadSet
  | .terminal t => .singleton size t
  | .nonterminal nt => (k.find? nt).getD (.empty size)

end KnownFirst

/-- **A nonterminal can begin with itself.** -/
structure LeftRecursion where
  /-- The nonterminal. -/
  nonterminal : Nat
  /-- The nonterminals on the way, from the one that begins with itself back to it. -/
  cycle : List Nat
  /-- The sets that were known before. -/
  known : KnownFirst

/-- The way from a nonterminal back to it, given the nonterminals under exploration, the latest
first. -/
def cycleOf (path : List Nat) (nt : Nat) : List Nat :=
  nt :: (path.takeWhile (· != nt)).reverse ++ [nt]

/-- Explores the symbols of a body up to the first one that cannot vanish. -/
def exploreBody (size : Nat) (visit : Nat → KnownFirst → Except LeftRecursion KnownFirst) :
    List Symbol → KnownFirst → Except LeftRecursion KnownFirst
  | [], k => .ok k
  | .terminal _ :: _, k => .ok k
  | .nonterminal nt :: rest, k => do
    let k ← visit nt k
    if (k.symbol size (.nonterminal nt)).hasEpsilon then exploreBody size visit rest k else .ok k

/-- Explores bodies one after the other. -/
def exploreBodies (size : Nat) (visit : Nat → KnownFirst → Except LeftRecursion KnownFirst) :
    List (List Symbol) → KnownFirst → Except LeftRecursion KnownFirst
  | [], k => .ok k
  | body :: bodies, k => do
    let k ← exploreBody size visit body k
    exploreBodies size visit bodies k

namespace Grammar

variable (g : Grammar)

/-- The bodies of the alternatives of a nonterminal. -/
def bodies (nt : Nat) : List (List Symbol) := (g.alternatives nt).map g.body

/-- What the alternatives of a nonterminal can begin with, given it for each symbol. -/
def unionFirst (first : Symbol → LookaheadSet) (nt : Nat) : LookaheadSet :=
  (g.bodies nt).foldl (fun s body => s.union (bodyFirst g.terminals.size first body)) g.emptySet

/-- **Explores a nonterminal.** `path` holds the nonterminals under exploration, the latest
first. They are distinct, so `fuel` never runs out if it starts above the number of
nonterminals. -/
def visit : (fuel : Nat) → (path : List Nat) → (nt : Nat) → KnownFirst →
    Except LeftRecursion KnownFirst
  | 0, path, nt, k => .error ⟨nt, cycleOf path nt, k⟩
  | fuel + 1, path, nt, k =>
    if (k.find? nt).isSome then .ok k
    -- to meet a nonterminal under exploration means that nothing was read on the way back to it
    else if nt ∈ path then .error ⟨nt, cycleOf path nt, k⟩
    else do
      let k ← exploreBodies g.terminals.size (visit fuel (nt :: path)) (g.bodies nt) k
      return k.record nt (g.unionFirst (k.symbol g.terminals.size) nt)

/-- Explores nonterminals one after the other. -/
def visitAll : List Nat → KnownFirst → Except LeftRecursion KnownFirst
  | [], k => .ok k
  | nt :: rest, k => do
    let k ← g.visit (g.nonterminals.size + 1) [] nt k
    visitAll rest k

end Grammar

/-- **What can come first**, for every nonterminal and production. -/
structure FirstSets where
  /-- The number of terminals. -/
  size : Nat
  /-- The sets of the nonterminals. -/
  nonterminals : Array LookaheadSet
  /-- The sets of the productions. -/
  productions : Array LookaheadSet
  /-- The nonterminals in the order in which their sets were found. -/
  order : List Nat

namespace FirstSets

/-- What a nonterminal can begin with. -/
def nonterminal (f : FirstSets) (nt : Nat) : LookaheadSet :=
  f.nonterminals[nt]?.getD (.empty f.size)

/-- What a symbol can begin with. -/
def symbol (f : FirstSets) : Symbol → LookaheadSet
  | .terminal t => .singleton f.size t
  | .nonterminal nt => f.nonterminal nt

/-- What a production can begin with. -/
def production (f : FirstSets) (p : Nat) : LookaheadSet := f.productions[p]?.getD (.empty f.size)

/-- Whether a symbol can vanish. -/
def nullable (f : FirstSets) (x : Symbol) : Bool := (f.symbol x).hasEpsilon

end FirstSets

/-- **What can come first** in a grammar, unless a nonterminal can begin with itself. -/
def Grammar.firstSets (g : Grammar) : Except LeftRecursion FirstSets := do
  let k ← g.visitAll (List.range g.nonterminals.size) {}
  let first := k.symbol g.terminals.size
  return {
    size := g.terminals.size
    nonterminals := (Array.range g.nonterminals.size).map fun nt => first (.nonterminal nt)
    productions := g.productions.map fun p => bodyFirst g.terminals.size first p.body
    order := (k.finished.map (·.1)).reverse }

end PredictiveParsing
