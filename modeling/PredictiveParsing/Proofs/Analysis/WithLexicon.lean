import PredictiveParsing.Proofs.Grammar.Build
import PredictiveParsing.Proofs.Parse.Completeness

/-!
# Rules for tokens do not matter to the analysis

An engine only makes the rules for tokens, and nothing that is found out about a grammar depends
on them. So grammars that engines make of the same declarations compile alike, and what has been
found out for one of them holds for all.

## Main definitions

* `Grammar.withLexicon`: a grammar with other rules for tokens

## Main results

* `Grammar.analyze_withLexicon`: the analysis is the same
* `Declarations.eq_withLexicon_of_build`: engines make the same of declarations otherwise
* `Declarations.exists_compile_of_build`: so the next token decides with all engines or none
-/

namespace PredictiveParsing

namespace Grammar

/-- **A grammar with other rules for tokens.** -/
def withLexicon (g : Grammar) (lexicon : Lexicon) : Grammar := { g with lexicon }

variable (g : Grammar) (lexicon : Lexicon)

theorem visit_withLexicon : (g.withLexicon lexicon).visit = g.visit := by
  funext fuel path nt k
  induction fuel generalizing path nt k with
  | zero => rfl
  | succ fuel ih =>
    have hvisit : (g.withLexicon lexicon).visit fuel (nt :: path) = g.visit fuel (nt :: path) := by
      funext m k
      exact ih _ m k
    unfold visit
    rw [hvisit]
    rfl

theorem visitAll_withLexicon (nts : List Nat) (k : KnownFirst) :
    (g.withLexicon lexicon).visitAll nts k = g.visitAll nts k := by
  induction nts generalizing k with
  | nil => rfl
  | cons nt nts ih =>
    unfold visitAll
    rw [visit_withLexicon, funext ih]
    rfl

theorem firstSets_withLexicon : (g.withLexicon lexicon).firstSets = g.firstSets := by
  unfold firstSets
  rw [visitAll_withLexicon]
  rfl

theorem walk_withLexicon (fuel : Nat) (visited queue : List Nat) :
    (g.withLexicon lexicon).walk fuel visited queue = g.walk fuel visited queue := by
  induction fuel generalizing visited queue with
  | zero => rfl
  | succ fuel ih =>
    cases queue with
    | nil => rfl
    | cons nt queue => exact ih _ _

theorem reachable_withLexicon : (g.withLexicon lexicon).reachable = g.reachable :=
  g.walk_withLexicon lexicon ..

theorem register_withLexicon (a : Adjacency) (body : List Symbol) :
    a.register (g.withLexicon lexicon) body = a.register g body := by
  induction body generalizing a with
  | nil => rfl
  | cons x rest ih =>
    cases rest with
    | nil => rfl
    | cons y rest => exact ih _

theorem inherit_withLexicon (nullable : Symbol → Bool) (unbroken : Bool) (right : Symbol)
    (body : List Symbol) (a : Adjacency) :
    Adjacency.inherit (g.withLexicon lexicon) nullable unbroken right body a =
      Adjacency.inherit g nullable unbroken right body a := by
  induction body generalizing unbroken right a with
  | nil => rfl
  | cons left rest ih =>
    unfold Adjacency.inherit
    rw [ih, ih]
    rfl

theorem updateEnds_withLexicon (nullable : Symbol → Bool) (a : Adjacency) (head : Nat)
    (body : List Symbol) : a.updateEnds (g.withLexicon lexicon) nullable head body =
      a.updateEnds g nullable head body := by
  unfold Adjacency.updateEnds
  cases body.reverse with
  | nil => rfl
  | cons last rest => exact g.inherit_withLexicon lexicon ..

theorem adjacency_withLexicon (nullable : Symbol → Bool) :
    (g.withLexicon lexicon).adjacency nullable = g.adjacency nullable := by
  unfold adjacency reachableProductions
  simp only [reachable_withLexicon, register_withLexicon, updateEnds_withLexicon]
  rfl

theorem settle_withLexicon (pairs : List (Nat × Nat)) (fuel : Nat) (table : FollowTable) :
    (g.withLexicon lexicon).settle pairs fuel table = g.settle pairs fuel table := by
  induction fuel generalizing table with
  | zero => rfl
  | succ fuel ih =>
    unfold settle
    simp only [ih]
    rfl

/-- **The analysis does not read the rules for tokens.** -/
theorem analyze_withLexicon : (g.withLexicon lexicon).analyze = g.analyze := by
  unfold analyze
  simp only [firstSets_withLexicon, adjacency_withLexicon, reachable_withLexicon, followSets,
    settle_withLexicon]
  rfl

end Grammar

namespace Declarations

variable {engine engine' : PatternEngine} {d : Declarations} {g g' : Grammar}

/-- Engines make the same of declarations, but for the rules for tokens. -/
theorem eq_withLexicon_of_build (h : d.build engine = .ok g) (h' : d.build engine' = .ok g') :
    g = g'.withLexicon g.lexicon := by
  obtain ⟨rules, start, productions, lexicon, hrules, -, hstart, hproductions, -, rfl⟩ :=
    build_eq_ok.mp h
  obtain ⟨rules', start', productions', lexicon', hrules', -, hstart', hproductions', -, rfl⟩ :=
    build_eq_ok.mp h'
  obtain rfl := Except.ok.inj (hrules.symm.trans hrules')
  obtain rfl := Option.some.inj (hstart.symm.trans hstart')
  obtain rfl : productions = productions' := by
    have hproductions := mapM_eq_ok.mpr hproductions
    rw [mapM_eq_ok.mpr hproductions'] at hproductions
    exact (Except.ok.inj hproductions).symm
  rfl

/-- **What compiles with one engine compiles with all**, and the next token decides with all of
them or with none. -/
theorem exists_compile_of_build {c' : Compiled} (h : d.build engine = .ok g)
    (h' : d.build engine' = .ok g') (hcompile : g'.compile = .ok c') :
    ∃ c, g.compile = .ok c ∧ (c'.IsLL1 → c.IsLL1) := by
  simp only [Grammar.compile, bind_eq_ok, pure_eq_ok] at hcompile ⊢
  obtain ⟨analysis, hanalyze, rfl⟩ := hcompile
  rw [eq_withLexicon_of_build h h', Grammar.analyze_withLexicon]
  exact ⟨_, ⟨analysis, hanalyze, rfl⟩, fun hll => ⟨hll.conflicts, hll.disjoint⟩⟩

end Declarations

end PredictiveParsing
