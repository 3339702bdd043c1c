import PredictiveParsing.Analysis.Basic

/-!
# Prediction

Which alternative of a nonterminal is taken depends on the next token only: the first
alternative that can begin with it, and if there is none, the first alternative that can vanish.
Where two alternatives accept the same token the earlier one is taken, and the clash is listed.

## Main definitions

* `Choice`, `Prediction`: how one nonterminal chooses, and the choices of a grammar
* `Choice.select`: the choice for a token or the end of the input
* `Conflict`, `Prediction.conflicts`: the clashes between alternatives
-/

namespace PredictiveParsing

/-- One alternative with the terminals that it can begin with. -/
structure Prospect where
  /-- The number of the production. -/
  production : Nat
  /-- The terminals it can begin with; the mark for the empty text is left out. -/
  lookahead : LookaheadSet
deriving DecidableEq

/-- **How a nonterminal chooses** among its alternatives. -/
structure Choice where
  /-- The alternatives in order of preference. -/
  prospects : List Prospect
  /-- The first alternative that can vanish. -/
  epsilon : Option Nat
deriving DecidableEq

/-- What a nonterminal chooses. -/
inductive Selection where
  /-- An alternative that can begin with the token. -/
  | alternative (p : Nat)
  /-- An alternative that can vanish. -/
  | epsilon (p : Nat)
  /-- None. -/
  | none
deriving DecidableEq

namespace Choice

/-- The choice where nothing can be chosen. -/
def never : Choice := ⟨[], none⟩

/-- **The choice for a token**, given by the number of its terminal, or for the end of the
input. -/
def select (c : Choice) (lookahead : Option Nat) : Selection :=
  match lookahead.bind fun t => c.prospects.find? (·.lookahead.hasTerminal t) with
  | some prospect => .alternative prospect.production
  | none =>
    match c.epsilon with
    | some p => .epsilon p
    | none => .none

/-- The names of the tokens that each alternative can begin with. -/
def expected (c : Choice) (g : Grammar) : List (List String) :=
  c.prospects.map fun prospect => prospect.lookahead.names g.terminalNames

end Choice

/-- What two alternatives both accept. -/
inductive Clash where
  /-- A terminal. -/
  | terminal (t : Nat)
  /-- The empty text. -/
  | epsilon
deriving DecidableEq

/-- **Two alternatives that accept the same.** -/
structure Conflict where
  /-- The nonterminal. -/
  nonterminal : Nat
  /-- What both alternatives accept. -/
  clash : Clash
  /-- The alternative that comes first and is taken. -/
  chosen : Nat
  /-- The later alternative. -/
  shadowed : Nat
deriving DecidableEq

/-- The written form of a conflict. -/
def Conflict.describe (c : Conflict) (g : Grammar) : String :=
  let clash := match c.clash with
    | .terminal t => g.terminalName t
    | .epsilon => "$"
  "`" ++ g.nonterminalName c.nonterminal ++ "` on " ++ clash ++ ": `" ++
    g.describeNumbered c.chosen ++ "` shadows `" ++ g.describeNumbered c.shadowed ++ "`"

/-- **How every nonterminal of a grammar chooses**, and where alternatives clash. -/
structure Prediction where
  /-- The choices of the nonterminals. -/
  choices : Array Choice
  /-- The clashes, in the order of the nonterminals' walk. -/
  conflicts : List Conflict

namespace Prediction

/-- How a nonterminal chooses. -/
def choice (p : Prediction) (nt : Nat) : Choice := p.choices[nt]?.getD .never

/-- The choice among some alternatives, given what each can begin with. -/
def choiceOf (first : Nat → LookaheadSet) (alternatives : List Nat) : Choice where
  prospects := alternatives.map fun p => ⟨p, (first p).withoutEpsilon⟩
  epsilon := alternatives.find? fun p => (first p).hasEpsilon

/-- The clashes between two alternatives of a nonterminal. -/
def clashes (first : Nat → LookaheadSet) (nt chosen shadowed : Nat) : List Conflict :=
  let common := (first chosen).inter (first shadowed)
  (common.terminals.map fun t => ⟨nt, .terminal t, chosen, shadowed⟩) ++
    (if common.hasEpsilon then [⟨nt, .epsilon, chosen, shadowed⟩] else [])

/-- The clashes between the alternatives of a list, earlier ones with later ones. -/
def conflictsOf (first : Nat → LookaheadSet) (nt : Nat) : List Nat → List Conflict
  | [] => []
  | chosen :: later => later.flatMap (clashes first nt chosen) ++ conflictsOf first nt later

/-- **The prediction for an analysed grammar.** Clashes are looked for among the reachable
nonterminals only. -/
def ofAnalysis (g : Grammar) (a : Analysis) : Prediction where
  choices := g.nonterminals.map fun n => choiceOf a.first.production n.alternatives
  conflicts := a.reachable.flatMap fun nt =>
    conflictsOf a.first.production nt (g.alternatives nt)

end Prediction

end PredictiveParsing
