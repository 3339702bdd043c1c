import PredictiveParsing.Grammar.LookaheadSet
import PredictiveParsing.Lexicon.Scan

/-!
# Grammars

A grammar has numbered terminals, nonterminals and productions. The alternatives of a
nonterminal are ordered, since earlier ones are preferred. A production may say how the values
of its symbols become a value: a binding names the type of node and a field for each symbol.

## Main definitions

* `Symbol`, `Production`, `Binding`: the parts of grammars
* `Grammar`: terminals, nonterminals, productions, the start symbol and the lexicon
* `Grammar.alternatives`, `Grammar.body`: the productions of a nonterminal, and their symbols
* `Grammar.symbolId`, `Grammar.symbolOfId`: the common numbering of all symbols
* `Grammar.describe`: the written form of a grammar

## Main results

* `Grammar.symbolOfId_symbolId`: the common numbering is faithful on the symbols of a grammar
-/

namespace PredictiveParsing

/-- **A symbol**, by its number among the terminals or the nonterminals. -/
inductive Symbol where
  /-- A terminal. -/
  | terminal (number : Nat)
  /-- A nonterminal. -/
  | nonterminal (number : Nat)
deriving DecidableEq, Inhabited

/-- A terminal: its name and the pattern of its tokens. -/
structure Terminal where
  /-- The name. -/
  name : String
  /-- The text of the pattern. -/
  pattern : String
deriving DecidableEq, Inhabited

/-- A nonterminal: its name, its alternatives, and the mark of the start symbol. -/
structure Nonterminal where
  /-- The name. -/
  name : String
  /-- The numbers of its productions, in order of preference. -/
  alternatives : List Nat
  /-- Whether it is the start symbol. -/
  isStart : Bool
deriving DecidableEq, Inhabited

/-- The name that a field has in a node, or the mark of a value that is not to be named. -/
inductive Field where
  /-- A named field. -/
  | named (name : String)
  /-- A value without a name. -/
  | discard
deriving DecidableEq

namespace Field

/-- The written form of a discarded field, and of a binding without a value. -/
def discardMark : String := "_"

/-- The field that a name stands for. -/
def ofName (name : String) : Field := if name == discardMark then discard else named name

/-- The written form of a field. -/
def name : Field → String
  | named name => name
  | discard => discardMark

end Field

/-- **How a production makes its value.** A production without a binding makes the tuple of the
values of its symbols. -/
inductive Binding where
  /-- A node of the given type, with a field for each symbol. -/
  | node (nodeType : String) (fields : List Field)
  /-- No value. -/
  | suppressed
deriving DecidableEq

namespace Binding

/-- The binding to a type of node with fields given by name. -/
def ofNames (nodeType : String) (names : List String) : Binding :=
  node nodeType (names.map Field.ofName)

/-- The written form of a binding, as it follows the symbols of a production. -/
def describe : Binding → String
  | node nodeType fields => " # " ++ nodeType ++ String.join (fields.map fun f => " " ++ f.name)
  | suppressed => " # " ++ Field.discardMark

end Binding

/-- **A production**: a nonterminal, the symbols it may stand for, and how a value is made. -/
structure Production where
  /-- The number of the nonterminal. -/
  head : Nat
  /-- The symbols, none for the empty text. -/
  body : List Symbol
  /-- How the value is made. -/
  binding : Option Binding
deriving DecidableEq, Inhabited

/-- **A grammar.** -/
structure Grammar where
  /-- The terminals, in order of declaration. -/
  terminals : Array Terminal
  /-- The nonterminals, in order of first declaration. -/
  nonterminals : Array Nonterminal
  /-- The productions. -/
  productions : Array Production
  /-- The number of the start symbol. -/
  start : Nat
  /-- The rules for tokens: rule `t + 1` reads terminal `t`. -/
  lexicon : Lexicon

namespace Grammar

variable (g : Grammar)

/-- The name of a terminal. -/
def terminalName (t : Nat) : String := (g.terminals[t]?.map (·.name)).getD ""

/-- The name of a nonterminal. -/
def nonterminalName (nt : Nat) : String := (g.nonterminals[nt]?.map (·.name)).getD ""

/-- The name of a symbol. -/
def symbolName : Symbol → String
  | .terminal t => g.terminalName t
  | .nonterminal nt => g.nonterminalName nt

/-- The productions of a nonterminal, in order of preference. -/
def alternatives (nt : Nat) : List Nat := (g.nonterminals[nt]?.map (·.alternatives)).getD []

/-- The symbols of a production. -/
def body (p : Nat) : List Symbol := (g.productions[p]?.map (·.body)).getD []

/-- Whether a nonterminal is the start symbol. -/
def isStart (nt : Nat) : Bool := (g.nonterminals[nt]?.map (·.isStart)).getD false

/-- The terminal with a name. -/
def terminal? (name : String) : Option Nat := g.terminals.findIdx? (·.name == name)

/-- The nonterminal with a name. -/
def nonterminal? (name : String) : Option Nat := g.nonterminals.findIdx? (·.name == name)

/-- The number of symbols. -/
def symbolCount : Nat := g.terminals.size + g.nonterminals.size

/-- The number of a symbol among all symbols: terminals come first. -/
def symbolId : Symbol → Nat
  | .terminal t => t
  | .nonterminal nt => g.terminals.size + nt

/-- The symbol with a number among all symbols. -/
def symbolOfId (id : Nat) : Symbol :=
  if id < g.terminals.size then .terminal id else .nonterminal (id - g.terminals.size)

/-- The empty lookahead set. -/
def emptySet : LookaheadSet := .empty g.terminals.size

/-- The names of the terminals. -/
def terminalNames : Array String := g.terminals.map (·.name)

/-- The written form of a lookahead set. -/
def describeSet (s : LookaheadSet) : String := s.describe g.terminalNames

/-- The written form of a production. -/
def describeProduction (p : Production) : String :=
  let symbols := if p.body.isEmpty then " $" else
    String.join (p.body.map fun x => " " ++ g.symbolName x)
  g.nonterminalName p.head ++ " :=" ++ symbols ++ (p.binding.map (·.describe)).getD ""

/-- The written form of the production with a number. -/
def describeNumbered (p : Nat) : String := (g.productions[p]?.map g.describeProduction).getD ""

/-- **The written form of a grammar**: one production on each line. -/
def describe : String :=
  String.join (g.productions.toList.map fun p => g.describeProduction p ++ "\n")

/-- The common numbering is faithful on the symbols of a grammar. -/
theorem symbolOfId_symbolId {x : Symbol} (h : ∀ t, x = .terminal t → t < g.terminals.size) :
    g.symbolOfId (g.symbolId x) = x := by
  cases x with
  | terminal t => simp [symbolId, symbolOfId, h t rfl]
  | nonterminal nt => simp [symbolId, symbolOfId]

end Grammar

end PredictiveParsing
