import PredictiveParsing.Proofs.Grammar.SyntaxTree
import PredictiveParsing.Proofs.Parse.Descent

/-!
# What is parsed is derived

A parse that succeeds has walked through a syntax tree: each call of a nonterminal is a node with
the production that was chosen, and each token consumed is a leaf. The value and the events are
those of the tree, whatever alternatives were chosen; a grammar whose alternatives clash is no
exception.

The tree is found by induction on the number of nested calls, and for each body by induction on
its symbols.

## Main definitions

* `Compiled.ReadsTrees`: a way of reading symbols that reads trees

## Main results

* `Compiled.Coherent.readsTrees`: every call of a nonterminal reads a tree
* `Compiled.parse_sound`: a text that is parsed has a tree from the start symbol
-/

namespace PredictiveParsing

open SyntaxTree (yieldAll values traceAll)

namespace Compiled

/-- **A way of reading symbols reads trees**: where it succeeds it has passed over the tokens of
a tree of the symbol, with its value and its events. -/
def ReadsTrees (c : Compiled) (read : Symbol → Reading Value) : Prop :=
  ∀ x s v s' events, read x s = .ok v s' events → ∃ t, c.grammar.IsTree x t ∧
    v = t.value c.shapes ∧ s = Scan.prepend t.yield s' ∧ events = t.trace c.grammar s'

variable {c : Compiled}

/-- If symbols are read as trees, sequences of symbols are read as forests. -/
theorem ReadsTrees.exists_forest {read : Symbol → Reading Value} (hread : c.ReadsTrees read)
    {xs : List Symbol} {s s' : Scan} {vs : List Value} {events : List Event}
    (h : readAll read xs s = .ok vs s' events) :
    ∃ ts, c.grammar.IsForest xs ts ∧ vs = values c.shapes ts ∧
      s = Scan.prepend (yieldAll ts) s' ∧ events = traceAll c.grammar ts s' := by
  induction xs generalizing s vs events with
  | nil =>
    obtain ⟨rfl, rfl, rfl⟩ := readAll_nil_eq_ok.mp h
    exact ⟨[], .nil, rfl, rfl, rfl⟩
  | cons x xs ih =>
    obtain ⟨v, r, rest, before, after, hx, hrest, rfl, rfl⟩ := readAll_cons_eq_ok.mp h
    obtain ⟨ts, hts, rfl, rfl, rfl⟩ := ih hrest
    obtain ⟨t, ht, rfl, rfl, rfl⟩ := hread x s v _ before hx
    exact ⟨t :: ts, .cons ht hts, rfl, by simp [yieldAll], rfl⟩

/-- A token that is consumed is a leaf. -/
theorem exists_leaf_of_consume {t : Nat} {s s' : Scan} {v : Value} {events : List Event}
    (h : c.consume t s = .ok v s' events) : ∃ tree, c.grammar.IsTree (.terminal t) tree ∧
      v = tree.value c.shapes ∧ s = Scan.prepend tree.yield s' ∧
      events = tree.trace c.grammar s' := by
  obtain ⟨token, rfl, rfl, rfl, rfl⟩ := consume_eq_ok.mp h
  exact ⟨.leaf token, .leaf token .nil, rfl, rfl, rfl⟩

/-- **Every call of a nonterminal reads a tree.** -/
theorem Coherent.readsTrees (hc : c.Coherent) (fuel : Nat) :
    c.ReadsTrees (c.readSymbol fuel) := by
  induction fuel with
  | zero =>
    rintro (t | nt) s v s' events h
    · exact exists_leaf_of_consume h
    · cases h
  | succ fuel ih =>
    rintro (t | nt) s v s' events h
    · exact exists_leaf_of_consume h
    · -- whatever was chosen is an alternative of the nonterminal, and that is all a node needs
      obtain ⟨next, p, vs, later, -, hp, hbody, rfl, rfl⟩ := descend_succ_eq_ok.mp h
      obtain ⟨ts, hts, rfl, rfl, rfl⟩ := ih.exists_forest hbody
      obtain ⟨production, -, hget, rfl, hbody⟩ :=
        hc.wellFormed.exists_production (hc.mem_alternatives_of_select hp)
      rw [hbody] at hts
      refine ⟨.node p ts, .node hget hts .nil, rfl, rfl, ?_⟩
      simp [SyntaxTree.trace, hget]

/-- A text that is parsed has a syntax tree. -/
theorem Coherent.exists_tree_of_parse (hc : c.Coherent) {text : String} {v : Value} {rest : Scan}
    {events : List Event} (hparse : c.parse text = .ok v rest events) :
    ∃ tree line, c.grammar.IsTree (.nonterminal c.grammar.start) tree ∧
      c.grammar.lexicon.scan text.toList = Scan.prepend tree.yield (.done line) ∧
      rest = .done line ∧ v = tree.value c.shapes ∧
      events = tree.trace c.grammar (.done line) := by
  obtain ⟨line, rfl, hread⟩ := parse_eq_ok.mp hparse
  obtain ⟨tree, htree, rfl, hscan, rfl⟩ := hc.readsTrees _ _ _ _ _ _ hread
  exact ⟨tree, line, htree, hscan, rfl, rfl, rfl⟩

/-- **What is parsed is derived.** For every grammar that compiles, whether or not its alternatives
clash: if a text is parsed its scan ends without an error, the tokens are those of a syntax tree
from the start symbol, and the value and the events are those of the tree. -/
theorem parse_sound {engine : PatternEngine} {d : Declarations} {g : Grammar} {c : Compiled}
    (hbuild : d.build engine = .ok g) (hcompile : g.compile = .ok c) {text : String} {v : Value}
    {rest : Scan} {events : List Event} (hparse : c.parse text = .ok v rest events) :
    ∃ tree line, g.IsTree (.nonterminal g.start) tree ∧
      g.lexicon.scan text.toList = Scan.prepend tree.yield (.done line) ∧ rest = .done line ∧
      v = tree.value c.shapes ∧ events = tree.trace g (.done line) := by
  obtain ⟨rfl, hc⟩ := coherent hbuild hcompile
  exact hc.exists_tree_of_parse hparse

/-- A letter and a list in parentheses are parsed, so they are derived. -/
theorem parse_sound_nested : ∃ g c tree line, Samples.nested.build Pattern.engine = .ok g ∧
    g.compile = .ok c ∧ g.IsTree (.nonterminal g.start) tree ∧
    tree.yield.map (·.text) = ["a", "(", "a", ")"] ∧
    g.lexicon.scan "a ( a )".toList = Scan.prepend tree.yield (.done line) := by
  have hrun : ((Samples.nested.build Pattern.engine).toOption.bind fun g =>
      g.compile.toOption.bind fun c => match c.parse "a ( a )" with
        | .ok _ rest _ => some (rest, (g.lexicon.scan "a ( a )".toList).tokens.map (·.text))
        | _ => none) = some (.done 1, ["a", "(", "a", ")"]) := by
    decide +kernel
  simp only [Option.bind_eq_some_iff, toOption_eq_some] at hrun
  obtain ⟨g, hbuild, c, hcompile, hrun⟩ := hrun
  split at hrun
  · rename_i v rest events hparse
    obtain ⟨tree, line, htree, hscan, -⟩ := parse_sound hbuild hcompile hparse
    refine ⟨g, c, tree, line, hbuild, hcompile, htree, ?_, hscan⟩
    have htexts := (Prod.mk.inj (Option.some.inj hrun)).2
    rwa [hscan, Scan.tokens_prepend, Scan.tokens, List.append_nil] at htexts
  · cases hrun

end Compiled

end PredictiveParsing
