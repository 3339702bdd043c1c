import PredictiveParsing.Session
import PredictiveParsing.Lexicon.TokenStream
import PredictiveParsing.Emission.Run
import PredictiveParsing.Samples
import PredictiveParsing.Main
import PredictiveParsing.Proofs.Analysis.First
import PredictiveParsing.Proofs.Emission.Agreement
import PredictiveParsing.Proofs.Parse.Completeness
import PredictiveParsing.Proofs.Parse.Soundness
import PredictiveParsing.Proofs.Analysis.LeftRecursion
import PredictiveParsing.Proofs.Analysis.FollowCoverage
import PredictiveParsing.Proofs.Analysis.FollowSources
import PredictiveParsing.Proofs.Analysis.BreadthFirst
import PredictiveParsing.Proofs.Analysis.SymbolGraph
import PredictiveParsing.Proofs.Grammar.Replacement
import PredictiveParsing.Proofs.Grammar.Expansion
import PredictiveParsing.Proofs.Parse.Nesting
import PredictiveParsing.Proofs.Parse.FirstError
import PredictiveParsing.Proofs.Tree.Leaves
import PredictiveParsing.Proofs.Tree.Rounds
import PredictiveParsing.Proofs.GrammarText.Faithful
import PredictiveParsing.Proofs.Lexicon.TokenStream
import PredictiveParsing.Proofs.Grammar.Resolution
import PredictiveParsing.Proofs.Renumbering.Reordering
import PredictiveParsing.Proofs.Renumbering.Alike
import PredictiveParsing.Proofs.Grammar.Representation
import PredictiveParsing.Proofs.Grammar.Faults
import PredictiveParsing.Proofs.Parse.Lookahead
import PredictiveParsing.Proofs.Parse.Expected
import PredictiveParsing.Proofs.GrammarText.Literals
import PredictiveParsing.Proofs.Prediction.Choices
import PredictiveParsing.Proofs.Parse.Horizon
import PredictiveParsing.Proofs.Lexicon.Segments
import PredictiveParsing.Proofs.Emission.Closure
import PredictiveParsing.Proofs.Emission.NodeStruct
import PredictiveParsing.Proofs.Emission.Identifier
import PredictiveParsing.Proofs.Emission.Scope
import PredictiveParsing.Proofs.Analysis.VanishingSuffix
import PredictiveParsing.Proofs.Analysis.FollowRounds
import PredictiveParsing.Proofs.Emission.Beginnings
import PredictiveParsing.Proofs.Grammar.FreshNames
