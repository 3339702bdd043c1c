import PredictiveParsing.GrammarText.FromTree

/-!
# How grammar files are written

The contents of a grammar file and the tokens that it is written with, token by token. The forms
follow the layout of grammar files: brackets around expressions, bars between alternatives, hash
marks before bindings. Nothing here refers to trees or their values.

## Main definitions

* `Sequence`: parts that are written one after the other
* `Expr.Written`, `BindingWritten`, `Alternative.Written`, `Declaration.Written`, `PairWritten`:
  the parts of a grammar file
* `Document.Written`: a whole grammar file
-/

namespace PredictiveParsing.GrammarText

/-- **A token of a grammar file**: the name of its terminal, and its text. -/
abbrev Lexeme := String × String

/-- **Parts are written one after the other.** -/
inductive Sequence {α : Type} (written : α → List Lexeme → Prop) : List α → List Lexeme → Prop
  | nil : Sequence written [] []
  | cons {a : α} {rest : List α} {ls ms : List Lexeme} (ha : written a ls)
      (hrest : Sequence written rest ms) : Sequence written (a :: rest) (ls ++ ms)

/-- A text stands in quotes, single or double ones. -/
def IsQuoted (text : String) (inner : List Char) : Prop :=
  text.toList = '\'' :: inner ++ ['\''] ∨ text.toList = '"' :: inner ++ ['"']

instance (text : String) (inner : List Char) : Decidable (IsQuoted text inner) :=
  inferInstanceAs (Decidable (_ ∨ _))

/-- **An expression is written**: a name, a text in quotes, or other expressions in brackets, at
least one of them. -/
inductive Expr.Written : Expr → List Lexeme → Prop
  | symbol (name : String) : Written (.symbol name) [("name", name)]
  | literal {text : String} {inner : List Char} (h : IsQuoted text inner) :
      Written (.literal (String.ofList (unescape inner))) [("string", text)]
  | anyNumber {e : Expr} {rest : List Expr} {ls : List Lexeme} (opening closing : String)
      (h : Sequence Written (e :: rest) ls) :
      Written (.anyNumber (e :: rest)) (("lrepeat", opening) :: ls ++ [("rrepeat", closing)])
  | optional {e : Expr} {rest : List Expr} {ls : List Lexeme} (opening closing : String)
      (h : Sequence Written (e :: rest) ls) :
      Written (.optional (e :: rest)) (("lopt", opening) :: ls ++ [("ropt", closing)])
  | set {e : Expr} {rest : List Expr} {ls : List Lexeme} (opening closing : String)
      (h : Sequence Written (e :: rest) ls) :
      Written (.set (e :: rest)) (("lset", opening) :: ls ++ [("rset", closing)])

/-- **A binding is written**: there is none, or it stands behind a hash mark. The mark of a
discarded field alone suppresses the value; otherwise the names are those of a node and its
fields. -/
inductive BindingWritten : Option Binding → List Lexeme → Prop
  | absent : BindingWritten none []
  | suppressed (pound : String) :
      BindingWritten (some .suppressed) [("pound", pound), ("name", Field.discardMark)]
  | node (pound : String) {name : String} {fields : List String}
      (h : ¬ (name = Field.discardMark ∧ fields = [])) :
      BindingWritten (some (.ofNames name fields))
        (("pound", pound) :: ("name", name) :: fields.map (("name", ·)))

/-- **An alternative is written**: expressions or the mark of the empty body, then a binding. -/
inductive Alternative.Written : Alternative → List Lexeme → Prop
  | parts {e : Expr} {rest : List Expr} {binding : Option Binding} {ls ms : List Lexeme}
      (hparts : Sequence Expr.Written (e :: rest) ls) (hbinding : BindingWritten binding ms) :
      Written ⟨e :: rest, binding⟩ (ls ++ ms)
  | empty (epsilon : String) {binding : Option Binding} {ms : List Lexeme}
      (hbinding : BindingWritten binding ms) :
      Written ⟨[], binding⟩ (("epsilon", epsilon) :: ms)

/-- An alternative is written behind a bar. -/
inductive BarWritten : Alternative → List Lexeme → Prop
  | mk (bar : String) {a : Alternative} {ls : List Lexeme} (h : a.Written ls) :
      BarWritten a (("bar", bar) :: ls)

/-- **A declaration is written**: the name of the nonterminal, and its alternatives with bars
between them. -/
inductive Declaration.Written : Declaration → List Lexeme → Prop
  | mk (head define semi : String) {first : Alternative} {rest : List Alternative}
      {ls ms : List Lexeme} (hfirst : first.Written ls) (hrest : Sequence BarWritten rest ms) :
      Written ⟨head, first :: rest⟩
        (("name", head) :: ("define", define) :: ls ++ ms ++ [("semi", semi)])

/-- **A token is declared**: its name, and its pattern in quotes. -/
inductive PairWritten : String × String → List Lexeme → Prop
  | mk (name : String) {text : String} {inner : List Char} (h : IsQuoted text inner) :
      PairWritten (name, String.ofList inner) [("name", name), ("string", text)]

/-- **A grammar file is written**: the name of the start symbol, the tokens with their patterns,
and the declarations. -/
inductive Document.Written : Document → List Lexeme → Prop
  | mk (root name tokens grammar : String) {pairs : List (String × String)}
      {declarations : List Declaration} {ls ms : List Lexeme}
      (hpairs : Sequence PairWritten pairs ls)
      (hdeclarations : Sequence Declaration.Written declarations ms) :
      Written ⟨name, pairs, declarations⟩
        (("root", root) :: ("name", name) :: ("tokens", tokens) :: ls ++
          ("grammar", grammar) :: ms)

end PredictiveParsing.GrammarText
