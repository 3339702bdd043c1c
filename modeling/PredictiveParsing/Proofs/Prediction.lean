import PredictiveParsing.Compiled
import PredictiveParsing.Proofs.Analysis.First

/-!
# What is chosen

The parts of a compiled grammar are made from each other, and the choice of a nonterminal is made
from what its alternatives can begin with. So a production that is chosen is an alternative of
the nonterminal, and either it can begin with the next token or it can vanish.

## Main definitions

* `Compiled.Coherent`: the parts of a compiled grammar belong together
* `Selection.production?`: the production that is chosen

## Main results

* `Compiled.coherent`: building and compiling make coherent parts
* `Choice.select_eq_alternative`, `Choice.select_eq_epsilon`: when a production is chosen
* `Compiled.Coherent.mem_alternatives_of_select`: it is an alternative
-/

namespace PredictiveParsing

/-! ## Coherent parts -/

/-- **The parts of a compiled grammar belong together.** -/
structure Compiled.Coherent (c : Compiled) : Prop where
  /-- The grammar is well formed. -/
  wellFormed : c.grammar.WellFormed
  /-- FIRST is that of the grammar. -/
  firstSets : c.grammar.firstSets = .ok c.analysis.first
  /-- So are the reachable nonterminals. -/
  reachable : c.analysis.reachable = c.grammar.reachable
  /-- The neighbours are found with FIRST. -/
  adjacency : c.analysis.adjacency = c.grammar.adjacency c.analysis.first.nullable
  /-- FOLLOW is found with the neighbours. -/
  followTable : c.analysis.followTable =
    (c.grammar.followSets c.analysis.adjacency c.analysis.first.symbol).1
  /-- The choices are made from FIRST. -/
  prediction : c.prediction = .ofAnalysis c.grammar c.analysis
  /-- The shapes are those of the grammar. -/
  shapes : c.shapes = .ofGrammar c.grammar

/-- **Building and compiling make coherent parts.** -/
theorem Compiled.coherent {engine : PatternEngine} {d : Declarations} {g : Grammar} {c : Compiled}
    (hbuild : d.build engine = .ok g) (hcompile : g.compile = .ok c) :
    c.grammar = g ∧ c.Coherent := by
  simp only [Grammar.compile, Grammar.analyze, bind_eq_ok, pure_eq_ok] at hcompile
  obtain ⟨a, ⟨first, hfirst, rfl⟩, rfl⟩ := hcompile
  exact ⟨rfl, Declarations.wellFormed_of_build hbuild, hfirst, rfl, rfl, rfl, rfl, rfl⟩

/-! ## Choices -/

/-- The production that is chosen. -/
def Selection.production? : Selection → Option Nat
  | alternative p => some p
  | epsilon p => some p
  | none => Option.none

namespace Choice

variable {first : Nat → LookaheadSet} {alternatives : List Nat} {p : Nat}

/-- **The first alternative that can begin with a token is chosen.** -/
theorem select_eq_alternative {lookahead : Option Nat} :
    (Prediction.choiceOf first alternatives).select lookahead = .alternative p ↔
      ∃ t, lookahead = some t ∧
        alternatives.find? (fun q => (first q).withoutEpsilon.hasTerminal t) = some p := by
  cases lookahead with
  | none =>
    unfold select Prediction.choiceOf
    cases alternatives.find? fun q => (first q).hasEpsilon <;> simp
  | some t =>
    unfold select Prediction.choiceOf
    simp only [Option.bind_some, List.find?_map, Function.comp_def, Option.some.injEq,
      exists_eq_left']
    cases alternatives.find? fun q => (first q).withoutEpsilon.hasTerminal t with
    | none => cases alternatives.find? fun q => (first q).hasEpsilon <;> simp
    | some q => simp

/-- **If no alternative can begin with the token, the first one that can vanish is chosen.** -/
theorem select_eq_epsilon {lookahead : Option Nat} :
    (Prediction.choiceOf first alternatives).select lookahead = .epsilon p ↔
      (∀ t, lookahead = some t →
        ∀ q ∈ alternatives, (first q).withoutEpsilon.hasTerminal t = false) ∧
      alternatives.find? (fun q => (first q).hasEpsilon) = some p := by
  cases lookahead with
  | none =>
    unfold select Prediction.choiceOf
    cases alternatives.find? fun q => (first q).hasEpsilon <;> simp
  | some t =>
    unfold select Prediction.choiceOf
    simp only [Option.bind_some, List.find?_map, Function.comp_def, Option.some.injEq,
      forall_eq']
    cases hfind : alternatives.find? fun q => (first q).withoutEpsilon.hasTerminal t with
    | none =>
      have hall : ∀ q ∈ alternatives, (first q).withoutEpsilon.hasTerminal t = false :=
        fun q hq => Bool.eq_false_iff.mpr (List.find?_eq_none.mp hfind q hq)
      cases alternatives.find? fun q => (first q).hasEpsilon with
      | none => simp
      | some q => simpa using fun _ => hall
    | some q =>
      have hq := List.find?_some hfind
      have hmem := List.mem_of_find?_eq_some hfind
      simp only [Option.map_some, reduceCtorEq, false_iff, not_and]
      intro hall
      rw [hall q hmem] at hq
      cases hq

/-- A choice is made among the alternatives. -/
theorem mem_of_select {lookahead : Option Nat}
    (h : ((Prediction.choiceOf first alternatives).select lookahead).production? = some p) :
    p ∈ alternatives := by
  cases hselect : (Prediction.choiceOf first alternatives).select lookahead with
  | alternative q =>
    obtain ⟨t, -, hfind⟩ := select_eq_alternative.mp hselect
    rw [hselect] at h
    obtain rfl : q = p := by simpa [Selection.production?] using h
    exact List.mem_of_find?_eq_some hfind
  | epsilon q =>
    obtain ⟨-, hfind⟩ := select_eq_epsilon.mp hselect
    rw [hselect] at h
    obtain rfl : q = p := by simpa [Selection.production?] using h
    exact List.mem_of_find?_eq_some hfind
  | none => simp [hselect, Selection.production?] at h

end Choice

namespace Compiled.Coherent

variable {c : Compiled} (hc : c.Coherent)

include hc

/-- The choice of every nonterminal is among its alternatives. -/
theorem choice_eq (nt : Nat) : c.prediction.choice nt =
    Prediction.choiceOf c.analysis.first.production (c.grammar.alternatives nt) := by
  rw [hc.prediction, Prediction.choice, Prediction.ofAnalysis, Grammar.alternatives]
  cases h : c.grammar.nonterminals[nt]? <;> simp [h, Prediction.choiceOf, Choice.never]

/-- **A production that is chosen is an alternative** of the nonterminal. -/
theorem mem_alternatives_of_select {nt p : Nat} {lookahead : Option Nat}
    (h : ((c.prediction.choice nt).select lookahead).production? = some p) :
    p ∈ c.grammar.alternatives nt := by
  rw [hc.choice_eq] at h
  exact Choice.mem_of_select h

/-- What an alternative can begin with is what its body can. -/
theorem production_eq {nt p : Nat} (hp : p ∈ c.grammar.alternatives nt) :
    c.analysis.first.production p =
      bodyFirst c.grammar.terminals.size c.analysis.first.symbol (c.grammar.body p) := by
  obtain ⟨production, -, hget, -⟩ := hc.wellFormed.exists_production hp
  exact FirstSets.production_eq hc.wellFormed hc.firstSets (Array.getElem?_eq_some_iff.mp hget).1

theorem size_production {nt p : Nat} (hp : p ∈ c.grammar.alternatives nt) :
    (c.analysis.first.production p).size = c.grammar.terminals.size := by
  rw [hc.production_eq hp, size_bodyFirst (FirstSets.size_symbol hc.wellFormed hc.firstSets)]

/-- A nonterminal can begin with what one of its alternatives can begin with. -/
theorem mem_nonterminal_of_mem_production {nt p x : Nat} (hp : p ∈ c.grammar.alternatives nt)
    (hx : x ∈ (c.analysis.first.production p).slots) :
    x ∈ (c.analysis.first.nonterminal nt).slots := by
  obtain ⟨production, hmem, -, hhead, hbody⟩ := hc.wellFormed.exists_production hp
  rw [hc.production_eq hp, hbody] at hx
  exact (FirstSets.mem_nonterminal hc.wellFormed hc.firstSets).mpr ⟨production, hmem, hhead, hx⟩

end Compiled.Coherent

end PredictiveParsing
