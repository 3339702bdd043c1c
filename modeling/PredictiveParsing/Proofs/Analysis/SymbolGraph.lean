import PredictiveParsing.Analysis.SymbolGraph
import PredictiveParsing.Pattern.Engine
import PredictiveParsing.Proofs.Analysis.FollowSources
import PredictiveParsing.Proofs.Grammar.Representation
import PredictiveParsing.Proofs.Lookup.Follow
import PredictiveParsing.Samples

/-!
# The graph from which FOLLOW is found

The graph of the relations has an edge for each related pair, and a node for each symbol that an
edge mentions. FOLLOW can be read off it: what comes after a symbol is what the followers can begin
with of the symbols to which a path of edges for ends leads, and the end of the input comes after a
symbol from which such a path leads to the start symbol. The rounds in which sets are passed on add
nothing else, since each passes on along an edge, and they stop only when nothing is left to pass on
along any edge, so they add all of it, cycles included.

## Main definitions

* `Analysis.Relates`: two symbols are related
* `SymbolGraph.Joins`, `SymbolGraph.HasEdge`: an edge goes from one symbol to another
* `Analysis.EndsPath`, `SymbolGraph.EndsPath`: a path of ends
* `Analysis.Brings`: what comes after a symbol before anything is passed on

## Main results

* `Analysis.mem_relations`: the related pairs are listed, none of them twice
* `Analysis.hasEdge_symbolGraph`: there is an edge for each related pair, and no other
* `Compiled.Coherent.mem_follow_iff`: FOLLOW is what is brought along paths of ends
* `Compiled.symbolGraph_exact`: what the graph is, and how FOLLOW is read off it
-/

namespace PredictiveParsing

namespace Analysis

variable {a : Analysis} {g : Grammar} {x y : Symbol} {r : Relation}

/-- **Two symbols are related**: the second is one of the followers of the first, or one of the
nonterminals that the first ends. -/
def Relates (a : Analysis) (g : Grammar) (x : Symbol) (r : Relation) (y : Symbol) : Prop :=
  g.HasSymbol x ∧
    match r with
    | .follows => y ∈ a.followers g x
    | .ends => ∃ nt ∈ a.endsOf g x, y = .nonterminal nt

/-- **A path of ends**: each symbol on it ends the next one. -/
def EndsPath (a : Analysis) (g : Grammar) : Symbol → Symbol → Prop :=
  Relation.ReflTransGen fun x y => a.Relates g x .ends y

/-! ## The related pairs -/

theorem mem_followers (hx : g.HasSymbol x) :
    y ∈ a.followers g x ↔ a.Relates g x .follows y := by
  simp [Relates, hx]

theorem mem_endsOf {nt : Nat} (hx : g.HasSymbol x) :
    nt ∈ a.endsOf g x ↔ a.Relates g x .ends (.nonterminal nt) := by
  simp [Relates, hx]

theorem mem_relationsOf (hx : g.HasSymbol x) :
    ⟨x, y, r⟩ ∈ a.relationsOf g x ↔ a.Relates g x r y := by
  cases r <;> simp [relationsOf, Relates, hx, eq_comm]

theorem source_of_mem_relationsOf {pair : RelatedPair} (h : pair ∈ a.relationsOf g x) :
    pair.source = x := by
  rcases List.mem_append.mp h with h | h <;>
    · obtain ⟨y, -, rfl⟩ := List.mem_map.mp h
      rfl

/-- **The related pairs** are listed. -/
theorem mem_relations : ⟨x, y, r⟩ ∈ a.relations g ↔ a.Relates g x r y := by
  simp only [relations, List.mem_flatMap, List.mem_range]
  constructor
  · rintro ⟨id, hid, h⟩
    obtain rfl : x = g.symbolOfId id := source_of_mem_relationsOf h
    exact (mem_relationsOf (Grammar.hasSymbol_symbolOfId hid)).mp h
  · intro h
    refine ⟨g.symbolId x, Grammar.symbolId_lt h.1, ?_⟩
    rw [Grammar.symbolOfId_symbolId_of_hasSymbol h.1]
    exact (mem_relationsOf h.1).mpr h

/-- Different numbers are those of different symbols. -/
theorem symbolOfId_injective : Function.Injective g.symbolOfId :=
  Function.LeftInverse.injective fun _ => g.symbolId_symbolOfId

theorem nodup_relationsOf : (a.relationsOf g x).Nodup := by
  have hfollowers : (a.followers g x).Nodup :=
    (IndexSet.nodup_toList _).map symbolOfId_injective
  refine List.nodup_append.mpr ⟨?_, ?_, ?_⟩
  · exact hfollowers.map fun y y' h => congrArg RelatedPair.target h
  · refine (IndexSet.nodup_toList _).map fun nt nt' h => ?_
    exact Symbol.nonterminal.inj (congrArg RelatedPair.target h)
  · -- a follower and an end make different pairs, even if they are the same symbol
    intro pair hpair pair' hpair' heq
    obtain ⟨y, -, rfl⟩ := List.mem_map.mp hpair
    obtain ⟨nt, -, rfl⟩ := List.mem_map.mp hpair'
    simp at heq

/-- **No related pair is listed twice.** -/
theorem nodup_relations : (a.relations g).Nodup := by
  refine List.nodup_flatMap.mpr ⟨fun id _ => nodup_relationsOf, ?_⟩
  refine List.nodup_range.imp fun {id id'} hne => ?_
  intro pair h h'
  have hsource := source_of_mem_relationsOf h
  rw [source_of_mem_relationsOf h'] at hsource
  exact hne (symbolOfId_injective hsource.symm)

end Analysis

/-! ## The graph -/

namespace SymbolGraph

variable {graph : SymbolGraph} {x y : Symbol} {r : Relation}

/-- **An edge goes from one symbol to another.** -/
def Joins (graph : SymbolGraph) (e : GraphEdge) (x : Symbol) (r : Relation) (y : Symbol) : Prop :=
  graph.nodes[e.source]? = some x ∧ e.relation = r ∧ graph.nodes[e.target]? = some y

/-- There is an edge from one symbol to another. -/
def HasEdge (graph : SymbolGraph) (x : Symbol) (r : Relation) (y : Symbol) : Prop :=
  ∃ e ∈ graph.edges, graph.Joins e x r y

/-- **A path of zero or more edges** for ends. -/
def EndsPath (graph : SymbolGraph) : Symbol → Symbol → Prop :=
  Relation.ReflTransGen fun x y => graph.HasEdge x .ends y

/-- If no symbol is two nodes, two edges do not join the same symbols in the same way. -/
theorem Joins.unique (hnodes : graph.nodes.Nodup) {e e' : GraphEdge} (h : graph.Joins e x r y)
    (h' : graph.Joins e' x r y) : e = e' := by
  have hplace {i j : Nat} {z : Symbol} (hi : graph.nodes[i]? = some z)
      (hj : graph.nodes[j]? = some z) : i = j := by
    obtain ⟨hlt, -⟩ := List.getElem?_eq_some_iff.mp hi
    exact (List.getElem?_inj hlt hnodes).mp (hi.trans hj.symm)
  cases e
  cases e'
  rw [GraphEdge.mk.injEq]
  exact ⟨hplace h.1 h'.1, hplace h.2.2 h'.2.2, h.2.1.trans h'.2.1.symm⟩

end SymbolGraph

namespace Analysis

variable {a : Analysis} {g : Grammar} {x y : Symbol} {r : Relation}

/-- The edge for a related pair. -/
def edgeOf (a : Analysis) (g : Grammar) (pair : RelatedPair) : GraphEdge where
  source := (a.symbolGraph g).nodes.idxOf pair.source
  target := (a.symbolGraph g).nodes.idxOf pair.target
  relation := pair.relation

theorem edges_symbolGraph : (a.symbolGraph g).edges = (a.relations g).map (a.edgeOf g) := rfl

theorem nodup_nodes : (a.symbolGraph g).nodes.Nodup := nodup_eraseDups _

/-- **The nodes** are the start symbol and the symbols that take part in a relation. -/
theorem mem_nodes : x ∈ (a.symbolGraph g).nodes ↔
    x = .nonterminal g.start ∨ ∃ r y, a.Relates g x r y ∨ a.Relates g y r x := by
  simp only [symbolGraph, List.mem_eraseDups, List.mem_cons, List.mem_flatMap, List.not_mem_nil,
    or_false]
  refine or_congr_right ⟨?_, ?_⟩
  · rintro ⟨⟨y, z, r⟩, hpair, rfl | rfl⟩
    · exact ⟨r, z, .inl (mem_relations.mp hpair)⟩
    · exact ⟨r, y, .inr (mem_relations.mp hpair)⟩
  · rintro ⟨r, y, h | h⟩
    · exact ⟨_, mem_relations.mpr h, .inl rfl⟩
    · exact ⟨_, mem_relations.mpr h, .inr rfl⟩

/-- The start symbol is the first node. -/
theorem head_nodes : (a.symbolGraph g).nodes[0]? = some (.nonterminal g.start) := by
  rw [symbolGraph, List.eraseDups_cons]
  rfl

theorem getElem?_idxOf_nodes (hx : x ∈ (a.symbolGraph g).nodes) :
    (a.symbolGraph g).nodes[(a.symbolGraph g).nodes.idxOf x]? = some x :=
  List.getElem?_idxOf hx

/-- The edge for a related pair joins its symbols. -/
theorem joins_edgeOf (h : a.Relates g x r y) :
    (a.symbolGraph g).Joins (a.edgeOf g ⟨x, y, r⟩) x r y := by
  refine ⟨getElem?_idxOf_nodes ?_, rfl, getElem?_idxOf_nodes ?_⟩
  · exact mem_nodes.mpr (.inr ⟨r, y, .inl h⟩)
  · exact mem_nodes.mpr (.inr ⟨r, x, .inr h⟩)

/-- Every edge is that of a related pair, whose symbols it joins. -/
theorem exists_of_mem_edges {e : GraphEdge} (he : e ∈ (a.symbolGraph g).edges) :
    ∃ x y, (a.symbolGraph g).Joins e x e.relation y ∧ a.Relates g x e.relation y := by
  rw [edges_symbolGraph] at he
  obtain ⟨⟨x, y, r⟩, hpair, rfl⟩ := List.mem_map.mp he
  have hrelates := mem_relations.mp hpair
  exact ⟨x, y, joins_edgeOf hrelates, hrelates⟩

/-- **There is an edge for each related pair, and no other.** -/
theorem hasEdge_symbolGraph : (a.symbolGraph g).HasEdge x r y ↔ a.Relates g x r y := by
  constructor
  · rintro ⟨e, he, hjoins⟩
    obtain ⟨x', y', hjoins', hrelates⟩ := exists_of_mem_edges he
    obtain rfl : x' = x := Option.some.inj (hjoins'.1.symm.trans hjoins.1)
    obtain rfl : y' = y := Option.some.inj (hjoins'.2.2.symm.trans hjoins.2.2)
    exact hjoins.2.1 ▸ hrelates
  · intro h
    refine ⟨a.edgeOf g ⟨x, y, r⟩, ?_, joins_edgeOf h⟩
    rw [edges_symbolGraph]
    exact List.mem_map_of_mem (mem_relations.mpr h)

theorem endsPath_symbolGraph : (a.symbolGraph g).EndsPath = a.EndsPath g := by
  simp only [SymbolGraph.EndsPath, EndsPath, hasEdge_symbolGraph]

/-- **No edge is drawn twice.** -/
theorem nodup_edges : (a.symbolGraph g).edges.Nodup := by
  rw [edges_symbolGraph]
  refine List.Nodup.map_on ?_ nodup_relations
  rintro ⟨x, y, r⟩ hpair ⟨x', y', r'⟩ hpair' heq
  have hjoins := joins_edgeOf (mem_relations.mp hpair)
  have hjoins' := joins_edgeOf (mem_relations.mp hpair')
  rw [← heq] at hjoins'
  obtain rfl : x = x' := Option.some.inj (hjoins.1.symm.trans hjoins'.1)
  obtain rfl : y = y' := Option.some.inj (hjoins.2.2.symm.trans hjoins'.2.2)
  obtain rfl : r = r' := hjoins.2.1.symm.trans hjoins'.2.1
  rfl

/-- What comes after a symbol before anything is passed on: what its followers can begin with, and
the end of the input if it is the start symbol. -/
def Brings (a : Analysis) (g : Grammar) (x : Symbol) (slot : Nat) : Prop :=
  (x = .nonterminal g.start ∧ slot = g.terminals.size) ∨
    ∃ f, a.Relates g x .follows f ∧ slot ∈ (a.first.symbol f).slots ∧
      slot ≠ g.terminals.size + 1

end Analysis

/-! ## FOLLOW on the graph -/

namespace Compiled

namespace Coherent

variable {c : Compiled} (hc : c.Coherent) {x y : Symbol} {r : Relation} {slot : Nat}

include hc

theorem adjacency_bounded : Adjacency.Bounded c.grammar c.analysis.adjacency := by
  let nullable? (x : Symbol) : Option Bool := some (c.analysis.first.nullable x)
  have hknown : ∀ x, c.grammar.HasSymbol x → nullable? x = some (c.analysis.first.nullable x) :=
    fun x _ => rfl
  rw [hc.adjacency]
  exact (hc.wellFormed.adjacency?_eq hknown).2

/-- What a symbol is related to is a symbol of the grammar. -/
theorem hasSymbol_of_relates (h : c.analysis.Relates c.grammar x r y) :
    c.grammar.HasSymbol y := by
  cases r with
  | follows =>
    obtain ⟨id, hid, rfl⟩ := List.mem_map.mp h.2
    exact Grammar.hasSymbol_symbolOfId (hc.adjacency_bounded.followers _ id hid)
  | ends =>
    obtain ⟨nt, hnt, rfl⟩ := h.2
    exact hc.adjacency_bounded.ends _ nt hnt

/-- Every node is a symbol of the grammar. -/
theorem hasSymbol_of_mem_nodes (hx : x ∈ (c.analysis.symbolGraph c.grammar).nodes) :
    c.grammar.HasSymbol x := by
  rcases Analysis.mem_nodes.mp hx with rfl | ⟨r, y, h | h⟩
  · exact hc.wellFormed.start_lt
  · exact h.1
  · exact hc.hasSymbol_of_relates h

/-- **Before anything is passed on**, the sets are what the symbols bring. -/
theorem mem_followStart (hx : c.grammar.HasSymbol x) :
    slot ∈ ((c.grammar.followStart c.analysis.adjacency c.analysis.first.symbol).get
      c.grammar.terminals.size (c.grammar.symbolId x)).slots ↔
      c.analysis.Brings c.grammar x slot := by
  rw [Grammar.mem_followStart hc.wellFormed (FirstSets.size_symbol hc.wellFormed hc.firstSets)
    (Grammar.symbolId_lt hx), Grammar.symbolOfId_symbolId_of_hasSymbol hx]
  refine or_congr_right ?_
  simp only [← Analysis.mem_followers hx, Analysis.followers, List.mem_map, IndexSet.mem_def,
    exists_exists_and_eq_and]

/-- **All that comes after a symbol** has been brought along a path of ends. -/
theorem exists_endsPath_of_mem_follow (hx : c.grammar.HasSymbol x)
    (hslot : slot ∈ (c.analysis.follow c.grammar x).slots) :
    ∃ y, c.analysis.EndsPath c.grammar x y ∧ c.analysis.Brings c.grammar y slot := by
  have hwithin : c.analysis.followTable.Within c.grammar.terminals.size fun id slot =>
      ∃ y, c.analysis.EndsPath c.grammar (c.grammar.symbolOfId id) y ∧
        c.analysis.Brings c.grammar y slot := by
    rw [hc.followTable]
    refine Grammar.within_settle ?_ _ ?_
    · rintro ⟨source, target⟩ hpair slot ⟨y, hpath, hslot⟩
      obtain ⟨htarget, -, nt, hnt, rfl⟩ := Grammar.mem_inheritances.mp hpair
      rw [c.grammar.symbolOfId_symbolId (x := .nonterminal nt) (by simp)] at hpath
      refine ⟨y, .head ⟨Grammar.hasSymbol_symbolOfId htarget, nt, ?_, rfl⟩ hpath, hslot⟩
      rwa [Analysis.endsOf, Grammar.symbolId_symbolOfId]
    · intro id slot hslot
      by_cases hid : id < c.grammar.symbolCount
      · have hsame : c.grammar.symbolId (c.grammar.symbolOfId id) = id :=
          Grammar.symbolId_symbolOfId
        rw [← hsame] at hslot
        exact ⟨_, .refl, (hc.mem_followStart (Grammar.hasSymbol_symbolOfId hid)).mp hslot⟩
      · rw [FollowTable.get, Array.getElem?_eq_none (by simpa [Grammar.followStart] using hid)]
          at hslot
        simp [LookaheadSet.empty] at hslot
  simpa [Grammar.symbolOfId_symbolId_of_hasSymbol hx] using hwithin _ slot hslot

/-- **FOLLOW is what is brought along paths of ends.** -/
theorem mem_follow_iff (hx : c.grammar.HasSymbol x) :
    slot ∈ (c.analysis.follow c.grammar x).slots ↔
      ∃ y, c.analysis.EndsPath c.grammar x y ∧ c.analysis.Brings c.grammar y slot := by
  refine ⟨hc.exists_endsPath_of_mem_follow hx, ?_⟩
  rintro ⟨y, hpath, hslot⟩
  -- Induction along the path from its end, where the set has been from the start.
  induction hpath using Relation.ReflTransGen.head_induction_on with
  | refl => exact hc.followTable_settled.2.1 _ slot ((hc.mem_followStart hx).mpr hslot)
  | head hedge _ ih =>
    obtain ⟨-, nt, hnt, rfl⟩ := hedge
    exact hc.mem_follow_of_endedBy hx hnt (ih (hc.adjacency_bounded.ends _ nt hnt))

/-- **The terminals in FOLLOW** are what the followers on paths of ends can begin with. -/
theorem mem_terminals_follow_iff (hx : c.grammar.HasSymbol x) {t : Nat} :
    t ∈ (c.analysis.follow c.grammar x).terminals ↔
      ∃ y f, c.analysis.EndsPath c.grammar x y ∧ c.analysis.Relates c.grammar y .follows f ∧
        t ∈ (c.analysis.first.symbol f).terminals := by
  have hsize := FirstSets.size_symbol hc.wellFormed hc.firstSets
  simp only [LookaheadSet.mem_terminals, hc.size_follow, hc.mem_follow_iff hx, hsize]
  constructor
  · rintro ⟨⟨y, hpath, ⟨-, rfl⟩ | ⟨f, hf, hslot, -⟩⟩, ht⟩
    · exact absurd ht (Nat.lt_irrefl _)
    · exact ⟨y, f, hpath, hf, hslot, ht⟩
  · rintro ⟨y, f, hpath, hf, hslot, ht⟩
    exact ⟨⟨y, hpath, .inr ⟨f, hf, hslot, by omega⟩⟩, ht⟩

/-- **The end of the input is in FOLLOW** if a path of ends leads to the start symbol. -/
theorem hasEnd_follow_iff (hx : c.grammar.HasSymbol x) :
    (c.analysis.follow c.grammar x).hasEnd = true ↔
      c.analysis.EndsPath c.grammar x (.nonterminal c.grammar.start) := by
  rw [LookaheadSet.hasEnd_iff, hc.size_follow, hc.mem_follow_iff hx]
  constructor
  · rintro ⟨y, hpath, ⟨rfl, -⟩ | ⟨f, hf, hslot, hne⟩⟩
    · exact hpath
    · have hbegin := (FirstSets.canBegin_of_mem_symbol hc.wellFormed hc.firstSets
        (hc.hasSymbol_of_relates hf) hslot).lt_or_eq
      omega
  · exact fun hpath => ⟨_, hpath, .inl ⟨rfl, rfl⟩⟩

end Coherent

/-- **The graph of a grammar, and FOLLOW on it.** The start symbol is the first node, and the nodes
are it and the symbols that take part in a relation, each of them once and under a name of its own.
Each edge joins two related symbols, and there is exactly one edge for each symbol that follows
another, and one for each nonterminal that a symbol ends. A terminal is in FOLLOW of a symbol if and
only if a path of ends leads from the symbol to one with an edge to a follower that can begin with
the terminal, and the end of the input is in it if and only if such a path leads to the start. -/
theorem symbolGraph_exact {engine : PatternEngine} {d : Declarations} {g : Grammar} {c : Compiled}
    {graph : SymbolGraph} (hbuild : d.build engine = .ok g) (hcompile : g.compile = .ok c)
    (hgraph : c.analysis.symbolGraph g = graph) :
    graph.nodes[0]? = some (.nonterminal g.start) ∧ graph.nodes.Nodup ∧
    (∀ x ∈ graph.nodes, ∀ y ∈ graph.nodes, g.symbolName x = g.symbolName y → x = y) ∧
    (∀ x, x ∈ graph.nodes ↔ g.HasSymbol x ∧ (x = .nonterminal g.start ∨
      ∃ r y, c.analysis.Relates g x r y ∨ c.analysis.Relates g y r x)) ∧
    graph.edges.Nodup ∧
    (∀ e ∈ graph.edges, ∃ x y, graph.Joins e x e.relation y ∧
      c.analysis.Relates g x e.relation y) ∧
    (∀ x, g.HasSymbol x →
      (∀ y ∈ c.analysis.followers g x, ∃! e, e ∈ graph.edges ∧ graph.Joins e x .follows y) ∧
      (∀ nt ∈ c.analysis.endsOf g x,
        ∃! e, e ∈ graph.edges ∧ graph.Joins e x .ends (.nonterminal nt))) ∧
    ∀ x, g.HasSymbol x →
      (∀ t, t ∈ (c.analysis.follow g x).terminals ↔ ∃ y f, graph.EndsPath x y ∧
        graph.HasEdge y .follows f ∧ t ∈ (c.analysis.first.symbol f).terminals) ∧
      ((c.analysis.follow g x).hasEnd = true ↔ graph.EndsPath x (.nonterminal g.start)) := by
  obtain ⟨rfl, hc⟩ := coherent hbuild hcompile
  subst hgraph
  have honce {x y : Symbol} {r : Relation} (h : c.analysis.Relates c.grammar x r y) :
      ∃! e, e ∈ (c.analysis.symbolGraph c.grammar).edges ∧
        (c.analysis.symbolGraph c.grammar).Joins e x r y := by
    obtain ⟨e, he, hjoins⟩ := Analysis.hasEdge_symbolGraph.mpr h
    exact ⟨e, ⟨he, hjoins⟩, fun e' he' => he'.2.unique Analysis.nodup_nodes hjoins⟩
  refine ⟨Analysis.head_nodes, Analysis.nodup_nodes, fun x hx y hy => ?_, fun x => ?_,
    Analysis.nodup_edges, fun e => Analysis.exists_of_mem_edges, fun x hx => ⟨?_, ?_⟩,
    fun x hx => ⟨fun t => ?_, ?_⟩⟩
  · exact hc.wellFormed.symbolName_inj (hc.hasSymbol_of_mem_nodes hx)
      (hc.hasSymbol_of_mem_nodes hy)
  · rw [← Analysis.mem_nodes]
    exact ⟨fun h => ⟨hc.hasSymbol_of_mem_nodes h, h⟩, And.right⟩
  · exact fun y hy => honce ((Analysis.mem_followers hx).mp hy)
  · exact fun nt hnt => honce ((Analysis.mem_endsOf hx).mp hnt)
  · simp only [Analysis.endsPath_symbolGraph, Analysis.hasEdge_symbolGraph]
    exact hc.mem_terminals_follow_iff hx
  · rw [Analysis.endsPath_symbolGraph]
    exact hc.hasEnd_follow_iff hx

/-- An `a` ends an item and by it a list, which is the start symbol and comes before `)`. -/
theorem symbolGraph_exact_nested : ∃ g c, Samples.nested.build Pattern.engine = .ok g ∧
    g.compile = .ok c ∧ g.HasSymbol (.terminal 0) ∧
    (c.analysis.symbolGraph g).nodes =
      [.nonterminal 0, .terminal 0, .nonterminal 1, .terminal 1, .terminal 2] ∧
    (∃! e, e ∈ (c.analysis.symbolGraph g).edges ∧
      (c.analysis.symbolGraph g).Joins e (.terminal 0) .ends (.nonterminal 1)) ∧
    (c.analysis.symbolGraph g).EndsPath (.terminal 0) (.nonterminal g.start) ∧
    ∃ y f, (c.analysis.symbolGraph g).EndsPath (.terminal 0) y ∧
      (c.analysis.symbolGraph g).HasEdge y .follows f ∧
      2 ∈ (c.analysis.first.symbol f).terminals := by
  have hrun : ((Samples.nested.build Pattern.engine).toOption.bind fun g =>
      g.compile.toOption.map fun c => decide (
        0 < g.terminals.size ∧ 1 ∈ c.analysis.endsOf g (.terminal 0) ∧
        (c.analysis.symbolGraph g).nodes =
          [.nonterminal 0, .terminal 0, .nonterminal 1, .terminal 1, .terminal 2] ∧
        (c.analysis.follow g (.terminal 0)).hasEnd = true ∧
        2 ∈ (c.analysis.follow g (.terminal 0)).terminals)) = some true := by
    decide +kernel
  simp only [Option.bind_eq_some_iff, Option.map_eq_some_iff, toOption_eq_some,
    decide_eq_true_eq] at hrun
  obtain ⟨g, hbuild, c, hcompile, hsymbol, hitem, hnodes, hend, hclosing⟩ := hrun
  obtain ⟨-, -, -, -, -, -, honce, hfollow⟩ := symbolGraph_exact hbuild hcompile rfl
  obtain ⟨hterminals, hending⟩ := hfollow (.terminal 0) hsymbol
  exact ⟨g, c, hbuild, hcompile, hsymbol, hnodes, (honce (.terminal 0) hsymbol).2 1 hitem,
    hending.mp hend, (hterminals 2).mp hclosing⟩

end Compiled

end PredictiveParsing
