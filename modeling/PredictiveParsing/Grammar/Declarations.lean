import PredictiveParsing.Grammar.Item

/-!
# Declarations

Declarations name a start symbol, terminals with their patterns, and rules. Nothing is checked
until a grammar is built from them. Then the repetitions are expanded, names become numbers in
order of first declaration, and the first fault is reported: faults of operators and reserved
names come first, then clashes of names, then an unknown start, then faults of bodies and
bindings rule by rule, and last the patterns.

## Main definitions

* `Declarations`: what is declared
* `Declarations.build`: the grammar, or the first fault
-/

namespace PredictiveParsing

/-- **Declarations of a grammar**, in order. -/
structure Declarations where
  /-- The name of the start symbol. -/
  start : String
  /-- The names and patterns of terminals; the order is their priority. -/
  terminals : List (String × String) := []
  /-- The rules. -/
  rules : List Rule := []
deriving Inhabited

namespace Declarations

/-- Declares a terminal. -/
def addTerminal (d : Declarations) (name pattern : String) : Declarations :=
  { d with terminals := d.terminals ++ [(name, pattern)] }

/-- Whether a terminal with a name is declared. -/
def hasTerminal (d : Declarations) (name : String) : Bool := d.terminals.any (·.1 == name)

/-- Declares a rule. -/
def addRule (d : Declarations) (head : String) (items : List Item) (binding : Option Binding) :
    Declarations :=
  { d with rules := d.rules ++ [⟨head, items, binding⟩] }

/-- Declares a rule without repetitions. -/
def addProduction (d : Declarations) (head : String) (body : List String)
    (binding : Option Binding) : Declarations :=
  d.addRule head (body.map .symbol) binding

end Declarations

/-- The first name of a list that stands in it before, or among the names seen already. -/
def firstRepeated? (seen : List String) : List String → Option String
  | [] => none
  | name :: names => if name ∈ seen then some name else firstRepeated? (name :: seen) names

/-- The symbol with a name, given the names of the terminals and of the heads. -/
def resolve (terminals heads : List String) (head name : String) : Except BuildError Symbol :=
  match terminals.idxOf? name with
  | some t => .ok (.terminal t)
  | none =>
    match heads.idxOf? name with
    | some nt => .ok (.nonterminal nt)
    | none => .error (.undeclaredSymbol head name)

/-- The names of the named fields. -/
def Field.namesOf (fields : List Field) : List String :=
  fields.filterMap fun
    | .named name => some name
    | .discard => none

/-- Checks that a binding fits a body of some number of symbols. -/
def checkBinding (head : String) (symbols : Nat) : Option Binding → Except BuildError Unit
  | none => .ok ()
  | some .suppressed => if symbols = 0 then .ok () else .error (.suppressedNonEpsilon head)
  | some (.node nodeType fields) =>
    if fields.length ≠ symbols then
      .error (.bindingArity head nodeType fields.length symbols)
    else
      match firstRepeated? [] (Field.namesOf fields) with
      | some field => .error (.duplicateField head nodeType field)
      | none => .ok ()

/-- The production that a rule without repetitions stands for. -/
def FlatRule.toProduction (terminals heads : List String) (rule : FlatRule) :
    Except BuildError Production := do
  let body ← rule.body.mapM (resolve terminals heads rule.head)
  checkBinding rule.head body.length rule.binding
  return ⟨heads.idxOf rule.head, body, rule.binding⟩

/-- Checks that no name is declared as two symbols: first among the terminals, then between the
terminals and the heads. -/
def checkNames (terminals heads : List String) : Except BuildError Unit :=
  match firstRepeated? [] terminals with
  | some name => .error (.duplicateSymbol name)
  | none =>
    match heads.find? (· ∈ terminals) with
    | some name => .error (.duplicateSymbol name)
    | none => .ok ()

/-- The numbers of the productions of a head, in order. -/
def alternativesOf (productions : List Production) (nt : Nat) : List Nat :=
  (productions.zipIdx.filter (·.1.head == nt)).map (·.2)

/-- **The grammar of declarations**, or the first fault. -/
def Declarations.build (engine : PatternEngine) (d : Declarations) : Except BuildError Grammar := do
  let rules ← expandRules d.rules
  let terminals := d.terminals.map (·.1)
  let heads := (rules.map (·.head)).eraseDups
  checkNames terminals heads
  match heads.idxOf? d.start with
  | none => throw (.unknownStart d.start)
  | some start =>
    let productions ← rules.mapM (·.toProduction terminals heads)
    let lexicon ← (Lexicon.build engine d.terminals).mapError .invalidPattern
    return {
      terminals := (d.terminals.map fun (name, pattern) => ⟨name, pattern⟩).toArray
      nonterminals := (heads.zipIdx.map fun (name, nt) =>
        ⟨name, alternativesOf productions nt, name == d.start⟩).toArray
      productions := productions.toArray
      start, lexicon }

end PredictiveParsing
