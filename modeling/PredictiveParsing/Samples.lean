import PredictiveParsing.Grammar.Declarations

/-!
# Sample grammars

Grammar files for trying things out, arithmetic and a small language of statements among them, and
the declarations of still smaller grammars.

## Main definitions

* `Samples.arithmetic`: sums and products of numbers, with parentheses
* `Samples.statements`: assignments, conditions and output
* `Samples.nested`, `Samples.renested`: nested lists, and their rules in another order
* `Samples.roundabout`: a nonterminal that begins with itself in a roundabout way
* `Samples.twoContexts`: a nonterminal without tokens between others and at the beginning
* `Samples.frame`: parentheses around an item that may be missing
* `Samples.overlaps`: a nonterminal with alternatives that accept the same
* `Samples.trailing`: an item that may be missing before a token that it can begin with
* `Samples.levels`: nonterminals that are reached in several ways
* `Samples.rounds`, `Samples.groups`: rules with repetitions of all kinds, and their terminals
* `Samples.sharedType`: a type of node that two rules make
* `Samples.vector`: a type of node that is called `vec`
* `Samples.borrowed`: a rule that writes the name of a fresh nonterminal
* `Samples.tangled`: declarations with a fault of nearly every kind
* `Samples.pairs`: a grammar file of one line, and its tokens
* `Samples.homonym`: a grammar file with a text in quotes that is the name of another token
-/

namespace PredictiveParsing.Samples

/-- **Sums and products** of numbers, with parentheses. -/
def arithmetic : String :=
  "\n".intercalate [
    "%root E",
    "%tokens",
    "    NUM '[0-9]+'",
    "%grammar",
    "    E := T Ep # Expr term rest ;",
    "    Ep := '+' T Ep # Plus _ term rest",
    "        | $ # _ ;",
    "    T := F Tp # Term factor rest ;",
    "    Tp := '*' F Tp # Mult _ factor rest",
    "        | $ # _ ;",
    "    F := '(' E ')' # Paren _ expr _",
    "       | NUM # Num val ;"] ++ "\n"

/-- **Statements**: assignments, conditions and output, with expressions. -/
def statements : String :=
  "\n".intercalate [
    "%root Program",
    "%tokens",
    "    if 'if'",
    "    then 'then'",
    "    else 'else'",
    "    print 'print'",
    "    leq '<='",
    "    geq '>='",
    "    lt '<'",
    "    gt '>'",
    "    equal '=='",
    "    plus '\\+'",
    "    minus '-'",
    "    mult '\\*'",
    "    divide '/'",
    "    number '[0-9]+'",
    "    name '\\w+'",
    "%grammar",
    "    Program := Statement [ Statement ] # Program first rest ;",
    "",
    "    Statement := name '=' Expression ';' # Assignment target _ value _",
    "               | if Expression then '\x7b' Program '\x7d' < else '\x7b' Program '\x7d' >" ++
      " # Condition _ cond _ _ body _ otherwise",
    "               | print Expression ';' # Print _ value _ ;",
    "",
    "    Expression := Sum Comparison # Expression left compare ;",
    "    Comparison := CompareOp Sum # Comparison op right",
    "                | $ # _ ;",
    "    CompareOp := leq | geq | lt | gt | equal ;",
    "",
    "    Sum := Product SumRest # Sum left rest ;",
    "    SumRest := AddOp Product SumRest # SumRest op right rest",
    "             | $ # _ ;",
    "    AddOp := plus | minus ;",
    "",
    "    Product := Atom ProductRest # Product left rest ;",
    "    ProductRest := MulOp Atom ProductRest # ProductRest op right rest",
    "                 | $ # _ ;",
    "    MulOp := mult | divide ;",
    "",
    "    Atom := '(' Expression ')' # Paren _ inner _",
    "          | number # Number value",
    "          | name # Variable name ;"] ++ "\n"

/-- **Nested lists**: rows of letters and of lists in parentheses. -/
def nested : Declarations where
  start := "List"
  terminals := [("a", "a"), ("(", "\\("), (")", "\\)")]
  rules := [
    ⟨"List", [.symbol "Item", .symbol "List"], some (.ofNames "Cons" ["head", "tail"])⟩,
    ⟨"List", [], some .suppressed⟩,
    ⟨"Item", [.symbol "a"], none⟩,
    ⟨"Item", [.symbol "(", .symbol "List", .symbol ")"],
      some (.ofNames "Group" ["_", "inner", "_"])⟩]

/-- **Nested lists in another order**: the rules of `Item` and `List` are mixed, and between them
there is a rule for `Row`, which is not reachable. -/
def renested : Declarations where
  start := "List"
  terminals := [("a", "a"), ("(", "\\("), (")", "\\)")]
  rules := [
    ⟨"Item", [.symbol "a"], none⟩,
    ⟨"Row", [.symbol "List", .symbol "a"], some (.ofNames "Row" ["list", "_"])⟩,
    ⟨"List", [.symbol "Item", .symbol "List"], some (.ofNames "Cons" ["head", "tail"])⟩,
    ⟨"Item", [.symbol "(", .symbol "List", .symbol ")"],
      some (.ofNames "Group" ["_", "inner", "_"])⟩,
    ⟨"List", [], some .suppressed⟩]

/-- **A roundabout recursion**: `Sum` begins with itself behind the vanishing `Sign` and by way of
`Rest`, and none of them is reachable. -/
def roundabout : Declarations where
  start := "Unit"
  terminals := [("a", "a"), ("-", "-")]
  rules := [
    ⟨"Unit", [.symbol "a"], none⟩,
    ⟨"Sum", [.symbol "Sign", .symbol "Rest"], none⟩,
    ⟨"Rest", [.symbol "a"], none⟩,
    ⟨"Rest", [.symbol "Sum", .symbol "a"], none⟩,
    ⟨"Sign", [.symbol "-"], none⟩,
    ⟨"Sign", [], none⟩]

/-- **One symbol in two contexts**: the vanishing `Gap` stands between `Item` and `c`, and it stands
before `d`. -/
def twoContexts : Declarations where
  start := "Start"
  terminals := [("a", "a"), ("c", "c"), ("d", "d")]
  rules := [
    ⟨"Start", [.symbol "Item", .symbol "Gap", .symbol "c"], none⟩,
    ⟨"Start", [.symbol "Gap", .symbol "d"], none⟩,
    ⟨"Item", [.symbol "a"], none⟩,
    ⟨"Gap", [], none⟩]

/-- **A frame around a gap**: between parentheses there is an `a` or nothing, and the nonterminal
that can vanish is the only symbol in the rule of another one. -/
def frame : Declarations where
  start := "Frame"
  terminals := [("a", "a"), ("(", "\\("), (")", "\\)")]
  rules := [
    ⟨"Frame", [.symbol "(", .symbol "Filling", .symbol ")"], none⟩,
    ⟨"Filling", [.symbol "Item"], none⟩,
    ⟨"Item", [.symbol "a"], none⟩,
    ⟨"Item", [], none⟩]

/-- **Overlaps**: of the alternatives of `Row` two begin with `a` and two can vanish. -/
def overlaps : Declarations where
  start := "Row"
  terminals := [("a", "a"), ("b", "b")]
  rules := [
    ⟨"Row", [.symbol "a", .symbol "b"], none⟩,
    ⟨"Row", [.symbol "Gap", .symbol "Gap"], none⟩,
    ⟨"Row", [.symbol "a"], none⟩,
    ⟨"Row", [], none⟩,
    ⟨"Gap", [.symbol "b"], none⟩,
    ⟨"Gap", [], none⟩]

/-- **A trailing item**: an `a` that may be missing stands before an `a` that may not. -/
def trailing : Declarations where
  start := "Row"
  terminals := [("a", "a")]
  rules := [
    ⟨"Row", [.symbol "Item", .symbol "a"], none⟩,
    ⟨"Item", [.symbol "a"], none⟩,
    ⟨"Item", [], none⟩]

/-- **Levels**: `Deep` is reached by way of `Right` and by way of `Left`, and `Near` leads back to
the start symbol. -/
def levels : Declarations where
  start := "Start"
  terminals := [("a", "a"), ("b", "b")]
  rules := [
    ⟨"Start", [.symbol "Right", .symbol "Left"], none⟩,
    ⟨"Left", [.symbol "Deep", .symbol "b"], none⟩,
    ⟨"Deep", [.symbol "a"], none⟩,
    ⟨"Right", [.symbol "Near", .symbol "Deep"], none⟩,
    ⟨"Near", [.symbol "b", .symbol "Start"], none⟩,
    ⟨"Near", [.symbol "a"], none⟩]

/-- **Rounds within rounds**: groups of an `a` with any number of `b`, at least one of them, and at
most one group more in parentheses. -/
def rounds : List Rule :=
  [⟨"Groups", [.atLeastOne [.symbol "a", .anyNumber [.symbol "b"]],
      .optional [.symbol "(", .symbol "Groups", .symbol ")"]],
    some (.ofNames "Groups" ["groups", "rest"])⟩]

/-- Rounds within rounds, with their terminals. -/
def groups : Declarations where
  start := "Groups"
  terminals := [("a", "a"), ("b", "b"), ("(", "\\("), (")", "\\)")]
  rules := rounds

/-- **A shared type**: both rules make pairs, but the second one discards the parentheses and has no
value for the field `type`. -/
def sharedType : Declarations where
  start := "Pair"
  terminals := [("a", "a"), ("(", "\\("), (")", "\\)")]
  rules := [
    ⟨"Pair", [.symbol "a", .symbol "a"], some (.ofNames "Pair" ["first", "type"])⟩,
    ⟨"Pair", [.symbol "(", .symbol "a", .symbol ")"],
      some (.ofNames "Pair" ["_", "first", "_"])⟩]

/-- **A marked field**: the binding names its first value with the mark of discarded values, and
discards the second one. -/
def marked : Declarations where
  start := "Pair"
  terminals := [("a", "a"), ("b", "b")]
  rules := [
    ⟨"Pair", [.symbol "a", .symbol "b"], some (.node "Pair" [.named "_", .discard])⟩]

/-- **A vector**: the rule makes nodes of the type `vec`. -/
def vector : Declarations where
  start := "Row"
  terminals := [("a", "a")]
  rules := [⟨"Row", [.symbol "a"], some (.ofNames "vec" ["item"])⟩]

/-- **A borrowed name**: the rule repeats `a`, and writes the name that is drawn for the repetition,
though no rule declares it. -/
def borrowed : Declarations where
  start := "S"
  terminals := [("a", "a"), ("b", "b")]
  rules := [
    ⟨"S", [.anyNumber [.symbol "a"], .symbol "b", .symbol "_anon_Repeat0"], none⟩]

/-- **A tangle of faults**: a terminal is declared twice and has the name of a head, the start has
no rule, a rule writes a name that nothing declares, and its binding has a field too many, twice. -/
def tangled : Declarations where
  start := "Row"
  terminals := [("a", "a"), ("b", "b"), ("a", "(")]
  rules := [
    ⟨"b", [.symbol "a", .symbol "Gap"], some (.ofNames "Pair" ["first", "second", "first"])⟩]

/-- **Pairs**: a letter and a sign any number of times, or nothing. -/
def pairs : String := "%root L %tokens a 'x' %grammar L := [ a '+' ] | $ # _ ;"

/-- The tokens of the grammar file of pairs, each with the name of its terminal. -/
def pairsTokens : List (String × String) :=
  [("root", "%root"), ("name", "L"), ("tokens", "%tokens"), ("name", "a"), ("string", "'x'"),
    ("grammar", "%grammar"), ("name", "L"), ("define", ":="), ("lrepeat", "["), ("name", "a"),
    ("string", "'+'"), ("rrepeat", "]"), ("bar", "|"), ("epsilon", "$"), ("pound", "#"),
    ("name", "_"), ("semi", ";")]

/-- **A homonym**: the text in quotes is the name of a token that is listed with another pattern. -/
def homonym : String := "%root S %tokens x 'y' %grammar S := 'x' ;"

end PredictiveParsing.Samples
