import PredictiveParsing.Proofs.Emission.Closure
import PredictiveParsing.Proofs.Parse.Expected

/-!
# Every alternative begins with something

The equations for FIRST alone do not keep a set from being empty: a nonterminal that begins with
itself in all its alternatives would satisfy them without a member. But where the search for FIRST
succeeds each nonterminal begins only with nonterminals that were finished before it, so every set
has a member, which is a terminal or the mark for the empty text. A failure without an alternative
comes from a nonterminal that cannot vanish, so each alternative that it lists begins with a token.
And an alternative that gets no branch in an emitted parser, since it begins with no token, derives
the empty text and no other.

## Main results

* `FirstSets.exists_of_nonterminal`, `FirstSets.exists_of_production`: each of them can begin with
  something
* `Compiled.Coherent.lookaheadNames_ne_nil`: an alternative that cannot vanish lists a token
* `Compiled.Coherent.derives_iff_of_lookaheadNames_eq_nil`: one that lists none derives nothing else
* `Compiled.Coherent.exists_of_noAlternative`: where a failure without an alternative comes from
* `Compiled.firstSets_nonempty`: what follows for sets, failures, and branches
-/

namespace PredictiveParsing

/-! ## Sets with members -/

/-- What can come first is a terminal or the mark for the empty text; so a set with a member holds
one of these. -/
theorem LookaheadSet.exists_terminal_or_hasEpsilon {g : Grammar} {s : LookaheadSet}
    {α : List Symbol} (hsize : s.size = g.terminals.size)
    (hbegin : ∀ y ∈ s.slots, g.CanBegin α y) (h : ∃ y, y ∈ s.slots) :
    (∃ t, t ∈ s.terminals) ∨ s.hasEpsilon = true := by
  obtain ⟨y, hy⟩ := h
  rcases (hbegin y hy).lt_or_eq with hlt | rfl
  · exact .inl ⟨y, LookaheadSet.mem_terminals.mpr ⟨hy, hsize ▸ hlt⟩⟩
  · exact .inr (LookaheadSet.hasEpsilon_iff.mpr (hsize ▸ hy))

namespace FirstSets

variable {g : Grammar} {f : FirstSets} (wf : g.WellFormed) (h : g.firstSets = .ok f)

include wf h

/-- **Every nonterminal can begin with something.** -/
theorem exists_of_nonterminal {nt : Nat} (hnt : nt < g.nonterminals.size) :
    (∃ t, t ∈ (f.nonterminal nt).terminals) ∨ (f.nonterminal nt).hasEpsilon = true := by
  have hsymbol : g.HasSymbol (.nonterminal nt) := hnt
  exact LookaheadSet.exists_terminal_or_hasEpsilon (size_symbol wf h (.nonterminal nt))
    (fun y hy => canBegin_of_mem_symbol wf h hsymbol hy) (exists_mem_symbol wf h hsymbol)

/-- **Every production can begin with something.** -/
theorem exists_of_production {p : Nat} (hp : p < g.productions.size) :
    (∃ t, t ∈ (f.production p).terminals) ∨ (f.production p).hasEpsilon = true := by
  have hsymbols : ∀ x ∈ g.body p, g.HasSymbol x := by
    intro x hx
    have hget : g.productions[p]? = some g.productions[p] := Array.getElem?_eq_getElem hp
    rw [Grammar.body_of_getElem? hget] at hx
    exact wf.body_mem _ (Array.mem_of_getElem? hget) x hx
  rw [production_eq wf h hp]
  refine LookaheadSet.exists_terminal_or_hasEpsilon (size_bodyFirst (size_symbol wf h) _)
    (fun y hy => (mem_bodyFirst_iff wf h hsymbols).mp hy) ?_
  exact exists_mem_bodyFirst (size_symbol wf h) fun before x after hbody _ =>
    exists_mem_symbol wf h (hsymbols x (by simp [hbody]))

end FirstSets

/-! ## Alternatives and their tokens -/

namespace Compiled

namespace Coherent

variable {c : Compiled} (hc : c.Coherent) {nt p : Nat}

include hc

/-- **An alternative that cannot vanish lists a token.** -/
theorem lookaheadNames_ne_nil (hp : p ∈ c.grammar.alternatives nt)
    (hepsilon : (c.analysis.first.production p).hasEpsilon = false) : c.lookaheadNames p ≠ [] := by
  obtain ⟨production, -, hget, -⟩ := hc.wellFormed.exists_production hp
  have hlt := (Array.getElem?_eq_some_iff.mp hget).1
  rcases FirstSets.exists_of_production hc.wellFormed hc.firstSets hlt with ⟨t, ht⟩ | htrue
  · have hheld : (Clash.terminal t).HeldBy (c.analysis.first.production p) := ht
    obtain ⟨γ, hderives⟩ := (hc.heldBy_production hp).mp hheld
    exact List.ne_nil_of_mem ((hc.mem_lookaheadNames hp).mpr ⟨t, γ, hderives, rfl⟩)
  · rw [hepsilon] at htrue
    cases htrue

/-- **An alternative that lists no token derives the empty text and no other.** -/
theorem derives_iff_of_lookaheadNames_eq_nil (hp : p ∈ c.grammar.alternatives nt)
    (hnames : c.lookaheadNames p = []) (w : List Nat) :
    c.grammar.Derives (c.grammar.body p) (w.map .terminal) ↔ w = [] := by
  constructor
  · intro hderives
    cases w with
    | nil => rfl
    | cons t w =>
      have hname := (hc.mem_lookaheadNames hp).mpr ⟨t, w.map .terminal, hderives, rfl⟩
      rw [hnames] at hname
      cases hname
  · rintro rfl
    cases hepsilon : (c.analysis.first.production p).hasEpsilon with
    | true =>
      have hheld : Clash.epsilon.HeldBy (c.analysis.first.production p) := hepsilon
      exact (hc.heldBy_production hp).mp hheld
    | false => exact absurd hnames (hc.lookaheadNames_ne_nil hp hepsilon)

theorem expected_choice (nt : Nat) : (c.prediction.choice nt).expected c.grammar =
    (c.grammar.alternatives nt).map c.lookaheadNames := by
  rw [hc.choice_eq, Choice.expected, Prediction.choiceOf, List.map_map]
  rfl

/-- What a nonterminal that cannot vanish asks for: something for each alternative. -/
theorem ne_nil_of_mem_expected (hnull : c.analysis.first.nullable (.nonterminal nt) = false)
    {names : List String} (hnames : names ∈ (c.prediction.choice nt).expected c.grammar) :
    names ≠ [] := by
  rw [hc.expected_choice] at hnames
  obtain ⟨p, hp, rfl⟩ := List.mem_map.mp hnames
  refine hc.lookaheadNames_ne_nil hp (Bool.eq_false_iff.mpr fun hepsilon => ?_)
  rw [LookaheadSet.hasEpsilon_iff, hc.size_production hp] at hepsilon
  have hmem := hc.mem_nonterminal_of_mem_production hp hepsilon
  have htrue : c.analysis.first.nullable (.nonterminal nt) = true :=
    LookaheadSet.hasEpsilon_iff.mpr (FirstSets.size_symbol hc.wellFormed hc.firstSets
      (.nonterminal nt) ▸ hmem)
  rw [hnull] at htrue
  cases htrue

variable {line : Nat} {name : String} {expected : List (List String)} {found : Found}

/-- **A failure without an alternative** comes from a nonterminal that cannot vanish, and lists the
tokens that its alternatives begin with. -/
theorem exists_of_noAlternative {text : String} {events : List Event}
    (h : c.parse text = .failed (.noAlternative line name expected found) events) :
    ∃ nt < c.grammar.nonterminals.size, name = c.grammar.nonterminalName nt ∧
      c.analysis.first.nullable (.nonterminal nt) = false ∧
      expected = (c.prediction.choice nt).expected c.grammar := by
  rcases parse_eq_failed.mp h with hstart | ⟨v, rest, -, hend⟩
  · have hsymbol : c.grammar.HasSymbol (.nonterminal c.grammar.start) := hc.wellFormed.start_lt
    cases hc.raises_of_failed _ _ _ _ _ hsymbol hstart with
    | noAlternative hnt hnull => exact ⟨_, hnt, rfl, hnull, rfl⟩
  · -- what is left behind the start symbol is never blamed on an alternative
    cases rest <;> cases hend

/-- A routine that can fail is that of a nonterminal that cannot vanish. -/
theorem nullable_of_fallback_eq_fail (hnt : nt < c.grammar.nonterminals.size)
    (hfallback : (c.routine nt).fallback = .fail expected) :
    c.analysis.first.nullable (.nonterminal nt) = false ∧
      expected = (c.prediction.choice nt).expected c.grammar := by
  constructor
  · have hsymbol : c.grammar.HasSymbol (.nonterminal nt) := hnt
    refine Bool.eq_false_iff.mpr fun hnull => ?_
    have hderives := (FirstSets.nullable_iff hc.wellFormed hc.firstSets hsymbol).mp hnull
    obtain ⟨body, hbody⟩ := (hc.exists_fallback_iff nt).mpr hderives
    rw [hfallback] at hbody
    cases hbody
  · rw [routine] at hfallback
    split at hfallback
    · cases hfallback
    · exact (Fallback.fail.inj hfallback).symm

end Coherent

/-- **No set of FIRST is empty**, if FIRST is found at all: the set of each nonterminal and of each
production holds a terminal or the mark for the empty text. So each alternative listed by a
failure without an alternative names a token, in a parse and in an emitted routine. A routine has a
branch for each alternative that names a token, and an alternative that it drops derives the empty
text and no other. -/
theorem firstSets_nonempty {engine : PatternEngine} {d : Declarations} {g : Grammar}
    {f : FirstSets} (hbuild : d.build engine = .ok g) (hfirst : g.firstSets = .ok f) :
    (∀ nt < g.nonterminals.size,
      (∃ t, t ∈ (f.nonterminal nt).terminals) ∨ (f.nonterminal nt).hasEpsilon = true) ∧
    (∀ p < g.productions.size,
      (∃ t, t ∈ (f.production p).terminals) ∨ (f.production p).hasEpsilon = true) ∧
    ∃ c, g.compile = .ok c ∧ c.analysis.first = f ∧
      (∀ text line name expected found events,
        c.parse text = .failed (.noAlternative line name expected found) events →
        expected ≠ [] ∧ ∀ names ∈ expected, names ≠ []) ∧
      ∀ nt < g.nonterminals.size,
        (∀ expected, (c.routine nt).fallback = .fail expected → ∀ names ∈ expected, names ≠ []) ∧
        (c.routine nt).branches =
          ((g.alternatives nt).filter fun p => !(c.lookaheadNames p).isEmpty).map
            (fun p => ⟨c.lookaheadNames p, c.routineBody p⟩) ∧
        ∀ p ∈ g.alternatives nt, c.lookaheadNames p = [] →
          ∀ w : List Nat, g.Derives (g.body p) (w.map .terminal) ↔ w = [] := by
  have wf := Declarations.wellFormed_of_build hbuild
  obtain ⟨c, hcompile, rfl⟩ : ∃ c, g.compile = .ok c ∧ c.analysis.first = f := by
    simp [Grammar.compile, Grammar.analyze, hfirst, bind, Except.bind, pure, Except.pure]
  refine ⟨fun nt => FirstSets.exists_of_nonterminal wf hfirst,
    fun p => FirstSets.exists_of_production wf hfirst, c, hcompile, rfl, ?_⟩
  obtain ⟨rfl, hc⟩ := coherent hbuild hcompile
  constructor
  · intro text line name expected found events hparse
    obtain ⟨nt, hnt, -, hnull, rfl⟩ := hc.exists_of_noAlternative hparse
    refine ⟨?_, fun names => hc.ne_nil_of_mem_expected hnull⟩
    simpa [hc.expected_choice] using hc.wellFormed.alternatives_ne_nil nt hnt
  · intro nt hnt
    refine ⟨fun expected hfallback names hnames => ?_, hc.branches_routine nt,
      fun p hp => hc.derives_iff_of_lookaheadNames_eq_nil hp⟩
    obtain ⟨hnull, rfl⟩ := hc.nullable_of_fallback_eq_fail hnt hfallback
    exact hc.ne_nil_of_mem_expected hnull hnames

/-- A frame has to begin with `(`, which the failure on an `a` lists. The alternative of an item
without symbols lists nothing and gets no branch. -/
theorem firstSets_nonempty_frame : ∃ g f c, Samples.frame.build Pattern.engine = .ok g ∧
    g.firstSets = .ok f ∧ g.compile = .ok c ∧
    (∃ found events, c.parse "a" = .failed (.noAlternative 1 "Frame" [["("]] found) events) ∧
    (∀ names ∈ [["("]], names ≠ []) ∧
    3 ∈ g.alternatives 2 ∧ (c.routine 2).branches.map (·.lookahead) = [["a"]] ∧
    ∀ w : List Nat, g.Derives (g.body 3) (w.map .terminal) ↔ w = [] := by
  have hrun : ((Samples.frame.build Pattern.engine).toOption.bind fun g =>
      g.compile.toOption.map fun c => (match c.parse "a" with
        | .failed (.noAlternative line name expected _) _ => some (line, name, expected)
        | _ => none, decide (2 < g.nonterminals.size ∧ 3 ∈ g.alternatives 2 ∧
          c.lookaheadNames 3 = [] ∧ (c.routine 2).branches.map (·.lookahead) = [["a"]]))) =
      some (some (1, "Frame", [["("]]), true) := by
    decide +kernel
  simp only [Option.bind_eq_some_iff, Option.map_eq_some_iff, toOption_eq_some, Prod.mk.injEq,
    decide_eq_true_eq] at hrun
  obtain ⟨g, hbuild, c, hcompile, hparse, hnt, hp, hnames, hbranches⟩ := hrun
  have hfirst : g.firstSets = .ok c.analysis.first := by
    obtain ⟨rfl, hc⟩ := coherent hbuild hcompile
    exact hc.firstSets
  obtain ⟨-, -, c', hcompile', -, hlisted, hroutine⟩ := firstSets_nonempty hbuild hfirst
  obtain rfl : c = c' := Except.ok.inj (hcompile.symm.trans hcompile')
  obtain ⟨-, -, hdropped⟩ := hroutine 2 hnt
  split at hparse
  · rename_i line name expected found events hfailed
    obtain ⟨rfl, rfl, rfl⟩ : line = 1 ∧ name = "Frame" ∧ expected = [["("]] := by
      simpa using hparse
    exact ⟨g, _, c, hbuild, hfirst, hcompile, ⟨found, events, hfailed⟩,
      (hlisted _ _ _ _ _ _ hfailed).2, hp, hbranches, hdropped 3 hp hnames⟩
  · cases hparse

end Compiled

end PredictiveParsing
