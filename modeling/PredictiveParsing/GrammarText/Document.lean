import PredictiveParsing.Grammar.Declarations
import PredictiveParsing.Pattern.Literal

/-!
# The contents of grammar files

## Main definitions

* `Document`: what a grammar file says
* `Document.toDeclarations`: the declarations that it stands for
-/

namespace PredictiveParsing.GrammarText

/-- **An expression** in the body of a rule. -/
inductive Expr where
  /-- The name of a symbol. -/
  | symbol (name : String)
  /-- A text that stands for itself. -/
  | literal (text : String)
  /-- Any number of rounds. -/
  | anyNumber (parts : List Expr)
  /-- At most one round. -/
  | optional (parts : List Expr)
  /-- Each part once, in any order. -/
  | set (parts : List Expr)
deriving Inhabited

/-- One alternative of a declaration. -/
structure Alternative where
  /-- The expressions of the body, none for the empty body. -/
  parts : List Expr
  /-- How the value is made. -/
  binding : Option Binding
deriving Inhabited

/-- A declaration of alternatives for a nonterminal. -/
structure Declaration where
  /-- The name of the nonterminal. -/
  head : String
  /-- Its alternatives. -/
  alternatives : List Alternative
deriving Inhabited

/-- **What a grammar file says.** -/
structure Document where
  /-- The name of the start symbol. -/
  root : String
  /-- The names and patterns of the tokens. -/
  tokens : List (String × String)
  /-- The declarations of nonterminals. -/
  declarations : List Declaration
deriving Inhabited

/-- Declares a text as a terminal that stands for itself, unless there is a terminal of that
name. -/
def declareLiteral (d : Declarations) (text : String) : Declarations :=
  if d.hasTerminal text then d
  else d.addTerminal text (String.ofList (Pattern.escape text.toList))

mutual

/-- The item that an expression stands for; texts met on the way are declared. -/
def Expr.toItem : Expr → Declarations → Item × Declarations
  | .symbol name, d => (.symbol name, d)
  | .literal text, d => (.symbol text, declareLiteral d text)
  | .anyNumber parts, d =>
    let (items, d) := Expr.toItems parts d
    (.anyNumber items, d)
  | .optional parts, d =>
    let (items, d) := Expr.toItems parts d
    (.optional items, d)
  | .set parts, d =>
    let (items, d) := Expr.toItems parts d
    (.oneOfEach items, d)

/-- The items that expressions stand for, in order. -/
def Expr.toItems : List Expr → Declarations → List Item × Declarations
  | [], d => ([], d)
  | e :: rest, d =>
    let (item, d) := e.toItem d
    let (items, d) := Expr.toItems rest d
    (item :: items, d)

end

/-- Adds the rule of an alternative. -/
def Alternative.declare (head : String) (d : Declarations) (a : Alternative) : Declarations :=
  let (items, d) := Expr.toItems a.parts d
  d.addRule head items a.binding

/-- Adds the rules of a declaration. -/
def Declaration.declare (d : Declarations) (declaration : Declaration) : Declarations :=
  declaration.alternatives.foldl (Alternative.declare declaration.head) d

/-- **The declarations that a grammar file stands for**: the tokens in order, then the texts that
stand for themselves in order of first use; and one rule for each alternative. -/
def Document.toDeclarations (doc : Document) : Declarations :=
  doc.declarations.foldl Declaration.declare { start := doc.root, terminals := doc.tokens }

end PredictiveParsing.GrammarText
