import PredictiveParsing.Pattern.Engine
import PredictiveParsing.Proofs.Analysis.WithLexicon
import PredictiveParsing.Proofs.GrammarText.Lowering
import PredictiveParsing.Proofs.GrammarText.Reading
import PredictiveParsing.Samples

/-!
# Grammar files are lowered faithfully

The next token decides in the grammar of grammar files, so whatever is derived in it is parsed.
The value that the parse yields is never malformed: it is taken apart into what was written, and
that is turned into declarations part by part.

## Main results

* `exists_isLL1`: the next token decides, whatever engine makes the rules for tokens
* `exists_document_of_tree`: the value of a tree is taken apart into what its leaves write
* `exists_document_of_derives`: a derived grammar file is lowered to what is written in it
-/

namespace PredictiveParsing.GrammarText

/-- **The next token decides in the grammar of grammar files.** -/
theorem exists_isLL1 {engine : PatternEngine} {g : Grammar}
    (hbuild : declarations.build engine = .ok g) : ∃ c, g.compile = .ok c ∧ c.IsLL1 := by
  -- the rules for tokens do not matter, so one engine is enough
  have hrun : ((declarations.build Pattern.engine).toOption.bind fun g =>
      g.compile.toOption.map fun c => decide c.IsLL1) = some true := by
    decide +kernel
  simp only [Option.bind_eq_some_iff, Option.map_eq_some_iff, toOption_eq_some] at hrun
  obtain ⟨g', hbuild', c', hcompile', hll⟩ := hrun
  obtain ⟨c, hcompile, himp⟩ := Declarations.exists_compile_of_build hbuild hbuild' hcompile'
  exact ⟨c, hcompile, himp (of_decide_eq_true hll)⟩

/-- The text of a token stands for itself. -/
theorem reading_token {name text : String} (hname : name ∈ tokens.map (·.1))
    (hne : name ≠ "string") : reading name (.token text) [(name, text)] := by
  unfold reading
  split <;> first
    | exact ⟨text, rfl, rfl⟩
    | exact absurd rfl hne
    | exact absurd hname (by decide)

/-- The value of a tree of a grammar file is taken apart into what its leaves write. -/
theorem exists_document_of_tree {engine : PatternEngine} {g : Grammar}
    (hbuild : declarations.build engine = .ok g) {tree : SyntaxTree}
    (htree : g.IsTree (.nonterminal g.start) tree)
    (hquoted : ∀ t ∈ tree.yield, g.terminalName t.terminal = "string" →
      ∃ inner, IsQuoted t.text inner) :
    ∃ doc, documentOf (tree.value (.ofGrammar g)) = .ok doc ∧
      doc.Written (tree.yield.map g.lexeme) := by
  have hleaves : ∀ t ∈ tree.yield,
      reading (g.terminalName t.terminal) (.token t.text) [g.lexeme t] := by
    intro t ht
    by_cases hstring : g.terminalName t.terminal = "string"
    · obtain ⟨inner, hinner⟩ := hquoted t ht hstring
      rw [Grammar.lexeme, hstring]
      exact ⟨t.text, inner, rfl, rfl, hinner⟩
    · have hsymbol : g.HasSymbol (.terminal t.terminal) :=
        (htree.derives.hasSymbol (Declarations.wellFormed_of_build hbuild)
          (List.mem_map_of_mem ht)).elim id fun h => by simp at h
      exact reading_token (Declarations.terminalName_mem_of_build hbuild hsymbol) hstring
  exact htree.meaning hbuild expandRules_rules keeps_reading hleaves

/-- **A derived grammar file is lowered to what is written in it.** -/
theorem exists_document_of_derives {engine : PatternEngine} {g : Grammar}
    (hbuild : declarations.build engine = .ok g) {tokens : List Token}
    (hderives : g.Derives [.nonterminal g.start] (tokens.map fun t => .terminal t.terminal))
    (hquoted : ∀ t ∈ tokens, g.terminalName t.terminal = "string" → ∃ inner, IsQuoted t.text inner)
    (line : Nat) : ∃ c value events doc, g.compile = .ok c ∧
      c.parseScan (Scan.prepend tokens (.done line)) = .ok value (.done line) events ∧
      documentOf value = .ok doc ∧ doc.Written (tokens.map g.lexeme) ∧
      doc.toDeclarations =
        { start := doc.root
          terminals := withLiterals doc.tokens doc.literals
          rules := doc.declarations.flatMap Declaration.rules } := by
  obtain ⟨c, hcompile, hll⟩ := exists_isLL1 hbuild
  obtain ⟨rfl, hc⟩ := Compiled.coherent hbuild hcompile
  obtain ⟨tree, htree, rfl⟩ := Grammar.exists_tree_of_derives hderives
  obtain ⟨doc, hdoc, hwritten⟩ := exists_document_of_tree hbuild htree hquoted
  rw [← hc.shapes] at hdoc
  exact ⟨c, _, _, doc, hcompile, hll.parseScan_eq hc htree line, hdoc, hwritten,
    doc.toDeclarations_eq⟩

/-- A grammar file with a token, a text that stands for itself, a repetition and a suppressed
value. -/
theorem exists_document_of_derives_pairs : ∃ (g : Grammar) (tokens : List Token) (c : Compiled)
    (value : Value) (events : List Event) (doc : Document),
    declarations.build Pattern.engine = .ok g ∧
    g.lexicon.scan Samples.pairs.toList = Scan.prepend tokens (.done 1) ∧ g.compile = .ok c ∧
    c.parseScan (Scan.prepend tokens (.done 1)) = .ok value (.done 1) events ∧
    documentOf value = .ok doc ∧ doc.Written Samples.pairsTokens := by
  have hrun : ((declarations.build Pattern.engine).toOption.bind fun g =>
      g.compile.toOption.bind fun c => match c.parse Samples.pairs with
        | .ok _ rest _ => some (rest, (g.lexicon.scan Samples.pairs.toList).tokens.map g.lexeme)
        | _ => none) = some (.done 1, Samples.pairsTokens) := by
    decide +kernel
  simp only [Option.bind_eq_some_iff, toOption_eq_some] at hrun
  obtain ⟨g, hbuild, c, hcompile, hrun⟩ := hrun
  split at hrun
  · rename_i v rest events hparse
    obtain ⟨rfl, hlexemes⟩ := Prod.mk.inj (Option.some.inj hrun)
    obtain ⟨rfl, hc⟩ := Compiled.coherent hbuild hcompile
    obtain ⟨tree, line, htree, hscan, ⟨⟩, -⟩ := hc.exists_tree_of_parse hparse
    rw [hscan, Scan.tokens_prepend, Scan.tokens, List.append_nil] at hlexemes
    have hquoted : ∀ t ∈ tree.yield, c.grammar.terminalName t.terminal = "string" →
        ∃ inner, IsQuoted t.text inner := by
      intro t ht hstring
      have hmem := List.mem_map_of_mem (f := c.grammar.lexeme) ht
      rw [hlexemes, Grammar.lexeme, hstring] at hmem
      have htext : t.text = "'x'" ∨ t.text = "'+'" := by simpa [Samples.pairsTokens] using hmem
      rcases htext with htext | htext
      · exact ⟨['x'], by rw [htext]; decide +kernel⟩
      · exact ⟨['+'], by rw [htext]; decide +kernel⟩
    obtain ⟨c', value, events, doc, hcompile', hparse', hdoc, hwritten, -⟩ :=
      exists_document_of_derives hbuild htree.derives hquoted 1
    exact ⟨_, tree.yield, c', value, events, doc, hbuild, hscan, hcompile', hparse', hdoc,
      hlexemes ▸ hwritten⟩
  · cases hrun

end PredictiveParsing.GrammarText
