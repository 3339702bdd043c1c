import PredictiveParsing.Prediction
import PredictiveParsing.Tree.Shape

/-!
# Compiled grammars

A grammar with everything that parsing and the emission of parsers need.

## Main definitions

* `Compiled`: a grammar, its analysis, its prediction and the shapes of its values
* `Grammar.compile`: fails only if a nonterminal can begin with itself
-/

namespace PredictiveParsing

/-- **A grammar with everything that parsing needs.** -/
structure Compiled where
  /-- The grammar. -/
  grammar : Grammar
  /-- What is found out about it. -/
  analysis : Analysis
  /-- How its nonterminals choose. -/
  prediction : Prediction
  /-- How its productions make values. -/
  shapes : Shapes

/-- **Compiles a grammar**, unless a nonterminal can begin with itself. -/
def Grammar.compile (g : Grammar) : Except LeftRecursion Compiled := do
  let analysis ← g.analyze
  return {
    grammar := g, analysis
    prediction := .ofAnalysis g analysis
    shapes := .ofGrammar g }

end PredictiveParsing
