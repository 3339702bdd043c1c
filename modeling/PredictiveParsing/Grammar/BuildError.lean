import PredictiveParsing.Grammar.Basic

/-!
# Faults of declarations

## Main definitions

* `BuildError`: why declarations make no grammar
* `BuildError.message`: the wording
-/

namespace PredictiveParsing

/-- An operator that has no expansion into plain productions. -/
inductive UnsupportedOperator where
  /-- One of each item, in any order. -/
  | set
  /-- A repetition of nothing. -/
  | emptyRepetition
  /-- A repetition that is not "any number", "at least one" or "at most one". -/
  | bounds
deriving DecidableEq

/-- The wording for an operator. -/
def UnsupportedOperator.describe : UnsupportedOperator → String
  | set => "set"
  | emptyRepetition => "empty repetition"
  | bounds => "repetition bounds other than *, + and ?"

/-- **Why declarations make no grammar.** -/
inductive BuildError where
  /-- A body names a symbol that nothing declares. -/
  | undeclaredSymbol (head name : String)
  /-- A name is declared as two symbols. -/
  | duplicateSymbol (name : String)
  /-- The start symbol has no productions. -/
  | unknownStart (name : String)
  /-- A binding does not have one field for each symbol. -/
  | bindingArity (head nodeType : String) (fields symbols : Nat)
  /-- A binding names a field twice. -/
  | duplicateField (head nodeType field : String)
  /-- A head has a name that is kept for the expansion of operators. -/
  | reservedName (name : String)
  /-- The value of a production with symbols is suppressed. -/
  | suppressedNonEpsilon (head : String)
  /-- An operator has no expansion. -/
  | unsupportedOperator (operator : UnsupportedOperator)
  /-- The pattern of a terminal is no pattern. -/
  | invalidPattern (e : PatternError)
deriving DecidableEq

/-- The message of a fault. -/
def BuildError.message : BuildError → String
  | undeclaredSymbol head name =>
    "production of `" ++ head ++ "` refers to undeclared symbol `" ++ name ++ "`"
  | duplicateSymbol name => "symbol `" ++ name ++ "` is declared more than once"
  | unknownStart name => "start symbol `" ++ name ++ "` has no productions"
  | bindingArity head nodeType fields symbols =>
    "binding `" ++ nodeType ++ "` on a production of `" ++ head ++ "` names " ++
      toString fields ++ " fields for " ++ toString symbols ++ " symbols"
  | duplicateField head nodeType field =>
    "binding `" ++ nodeType ++ "` on a production of `" ++ head ++ "` names field `" ++ field ++
      "` twice"
  | reservedName name =>
    "nonterminal `" ++ name ++ "` uses the prefix reserved for desugared operators"
  | suppressedNonEpsilon head => "binding `_` on a non-empty production of `" ++ head ++ "`"
  | unsupportedOperator operator => "unsupported grammar operator: " ++ operator.describe
  | invalidPattern e => e.message

end PredictiveParsing
