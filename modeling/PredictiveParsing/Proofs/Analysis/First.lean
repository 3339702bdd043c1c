import PredictiveParsing.Pattern.Engine
import PredictiveParsing.Proofs.Analysis.FirstSearch
import PredictiveParsing.Proofs.Grammar.Build
import PredictiveParsing.Proofs.Grammar.Derivation
import PredictiveParsing.Samples

/-!
# FIRST is exact

The sets that the search finds hold just what derivations account for. One half is an induction
on the record: each set is made from older ones, so a member of it is accounted for by a shorter
search. The other half is an induction on derivations: since the sets solve their equations, a
step of a derivation never adds to what a sequence can begin with.

## Main results

* `Grammar.Recorded.canBegin`: a recorded member is accounted for
* `FirstSets.mem_bodyFirst_of_canBegin`: what is accounted for is a member
* `FirstSets.mem_symbol_iff`, `nullable_iff`: both together
* `FirstSets.exact`: the sets of nonterminals and productions, by terminals and marks
-/

namespace PredictiveParsing

namespace Grammar

variable {g : Grammar}

/-- What a derivation leads to consists of symbols of the grammar, apart from those it starts
with. -/
theorem Derives.hasSymbol (wf : g.WellFormed) {α β : List Symbol} (h : g.Derives α β)
    {x : Symbol} (hx : x ∈ β) : g.HasSymbol x ∨ x ∈ α := by
  induction h with
  | refl => exact .inr hx
  | tail _ hstep ih =>
    obtain ⟨hp, before, after⟩ := hstep
    rcases List.mem_append.mp hx with hx | hx
    · rcases List.mem_append.mp hx with hx | hx
      · exact ih (List.mem_append_left _ hx)
      · exact .inl (wf.body_mem _ hp x hx)
    · exact ih (List.mem_append_right _ (List.mem_cons_of_mem _ hx))

/-- If the members of the sets of symbols are accounted for, so are those of the set of a
sequence. -/
theorem canBegin_of_mem_bodyFirst {first : Symbol → LookaheadSet}
    (hsize : ∀ x, (first x).size = g.terminals.size)
    (hfirst : ∀ s x, g.HasSymbol s → x ∈ (first s).slots → g.CanBegin [s] x)
    {α : List Symbol} (hα : ∀ s ∈ α, g.HasSymbol s) {x : Nat}
    (hx : x ∈ (bodyFirst g.terminals.size first α).slots) : g.CanBegin α x := by
  induction α generalizing x with
  | nil =>
    rw [mem_bodyFirst_nil] at hx
    exact hx ▸ .epsilon (.refl [])
  | cons s α ih =>
    have hs := hα s List.mem_cons_self
    rcases (mem_bodyFirst_cons hsize).mp hx with ⟨hx, hne⟩ | ⟨heps, hx⟩
    · exact (hfirst s x hs hx).append_right hne α
    · exact .append_left (CanBegin.epsilon_iff.mp (hfirst s _ hs heps))
        (ih (fun y hy => hα y (List.mem_cons_of_mem _ hy)) hx)

theorem canBegin_terminal {t x : Nat} (ht : t < g.terminals.size)
    (hx : x ∈ (LookaheadSet.singleton g.terminals.size t).slots) :
    g.CanBegin [.terminal t] x := by
  obtain rfl : x = t := by simpa [LookaheadSet.singleton, LookaheadSet.empty] using hx
  exact .terminal ht (.refl _)

/-- **A recorded member is accounted for**: the set has been made from older ones. -/
theorem Recorded.canBegin (wf : g.WellFormed) {k : KnownFirst} (h : g.Recorded k) :
    ∀ s x, g.HasSymbol s → x ∈ (k.symbol g.terminals.size s).slots → g.CanBegin [s] x := by
  -- Induction on the record: what the older sets hold is accounted for.
  induction h with
  | empty =>
    rintro (t | nt) x hs hx
    · exact canBegin_terminal hs hx
    · simp [KnownFirst.symbol, KnownFirst.find?, LookaheadSet.empty] at hx
  | @record k n hk hnew hcovers ih =>
    rintro (t | nt) x hs hx
    · exact canBegin_terminal hs hx
    · rw [KnownFirst.symbol, KnownFirst.find?_record] at hx
      split at hx
      · rename_i heq
        subst heq
        obtain ⟨body, hbody, hx⟩ := mem_unionFirst.mp hx
        obtain ⟨p, hp, rfl, rfl⟩ := wf.mem_bodies.mp hbody
        exact .of_derives (.of_production hp)
          (canBegin_of_mem_bodyFirst hk.size_symbol ih (wf.body_mem p hp) hx)
      · exact ih (.nonterminal nt) x hs hx

end Grammar

namespace FirstSets

variable {g : Grammar} {f : FirstSets} (wf : g.WellFormed) (h : g.firstSets = .ok f)

include wf h

/-- A step of a derivation adds nothing to what a sequence can begin with. -/
theorem mem_bodyFirst_of_rewrites {α β : List Symbol} (hs : g.Rewrites α β) {x : Nat}
    (hx : x ∈ (bodyFirst g.terminals.size f.symbol β).slots) :
    x ∈ (bodyFirst g.terminals.size f.symbol α).slots := by
  obtain @⟨p, hp, before, after⟩ := hs
  have hsize := size_symbol wf h
  have hbody {y : Nat} (hy : y ∈ (bodyFirst g.terminals.size f.symbol p.body).slots) :
      y ∈ (f.symbol (.nonterminal p.head)).slots :=
    (mem_nonterminal wf h).mpr ⟨p, hp, rfl, hy⟩
  simp only [List.append_assoc, mem_bodyFirst_append hsize, mem_bodyFirst_cons hsize] at hx ⊢
  rcases hx with hx | ⟨heps, ⟨hx, hne⟩ | ⟨heps', hx⟩⟩
  · exact .inl hx
  · exact .inr ⟨heps, .inl ⟨hbody hx, hne⟩⟩
  · exact .inr ⟨heps, .inr ⟨hbody heps', hx⟩⟩

theorem mem_bodyFirst_of_derives {α β : List Symbol} (hd : g.Derives α β) {x : Nat}
    (hx : x ∈ (bodyFirst g.terminals.size f.symbol β).slots) :
    x ∈ (bodyFirst g.terminals.size f.symbol α).slots := by
  induction hd with
  | refl => exact hx
  | tail _ hstep ih => exact ih (mem_bodyFirst_of_rewrites wf h hstep hx)

/-- **What is accounted for is a member.** -/
theorem mem_bodyFirst_of_canBegin {α : List Symbol} {x : Nat} (hx : g.CanBegin α x) :
    x ∈ (bodyFirst g.terminals.size f.symbol α).slots := by
  cases hx with
  | @terminal t γ ht hd =>
    refine mem_bodyFirst_of_derives wf h hd ?_
    rw [mem_bodyFirst_cons (size_symbol wf h)]
    refine .inl ⟨?_, Nat.ne_of_lt (Nat.lt_succ_of_lt ht)⟩
    simp [symbol, LookaheadSet.singleton]
  | epsilon hd => exact mem_bodyFirst_of_derives wf h hd (mem_bodyFirst_nil.mpr rfl)

theorem canBegin_of_mem_symbol {s : Symbol} (hs : g.HasSymbol s) {x : Nat}
    (hx : x ∈ (f.symbol s).slots) : g.CanBegin [s] x := by
  obtain ⟨k, hk, -, hsymbol, -⟩ := exists_record wf h
  rw [hsymbol] at hx
  exact hk.canBegin wf s x hs hx

/-- **What a sequence of symbols can begin with** is what derivations account for. -/
theorem mem_bodyFirst_iff {α : List Symbol} (hα : ∀ s ∈ α, g.HasSymbol s) {x : Nat} :
    x ∈ (bodyFirst g.terminals.size f.symbol α).slots ↔ g.CanBegin α x :=
  ⟨Grammar.canBegin_of_mem_bodyFirst (size_symbol wf h)
      (fun _ _ hs => canBegin_of_mem_symbol wf h hs) hα,
    mem_bodyFirst_of_canBegin wf h⟩

/-- **What a symbol can begin with** is what derivations account for. -/
theorem mem_symbol_iff {s : Symbol} (hs : g.HasSymbol s) {x : Nat} :
    x ∈ (f.symbol s).slots ↔ g.CanBegin [s] x := by
  refine ⟨canBegin_of_mem_symbol wf h hs, fun hx => ?_⟩
  have hmem := mem_bodyFirst_of_canBegin wf h hx
  rw [mem_bodyFirst_cons (size_symbol wf h), mem_bodyFirst_nil] at hmem
  rcases hmem with ⟨hx, -⟩ | ⟨heps, rfl⟩
  · exact hx
  · exact heps

/-- A symbol can vanish just if it derives the empty text. -/
theorem nullable_iff {s : Symbol} (hs : g.HasSymbol s) :
    f.nullable s = true ↔ g.Derives [s] [] := by
  rw [nullable, LookaheadSet.hasEpsilon_iff, size_symbol wf h, mem_symbol_iff wf h hs,
    Grammar.CanBegin.epsilon_iff]

end FirstSets

/-! ## Terminals and marks -/

/-- **A set is exact for a sequence of symbols**: its terminals are those with which a sequence
that it derives begins, it holds the mark for the empty text just if that is derived, and it never
holds the mark for the end of the input. -/
structure LookaheadSet.ExactFor (g : Grammar) (α : List Symbol) (s : LookaheadSet) : Prop where
  /-- The terminals with which a derived sequence begins. -/
  terminal : ∀ t, t ∈ s.terminals ↔ ∃ γ, g.Derives α (.terminal t :: γ)
  /-- Whether the empty text is derived. -/
  epsilon : s.hasEpsilon = true ↔ g.Derives α []
  /-- The end of the input is no beginning. -/
  not_end : s.hasEnd = false

theorem LookaheadSet.exactFor_of_mem_iff {g : Grammar} {α : List Symbol} {s : LookaheadSet}
    (hsize : s.size = g.terminals.size)
    (hα : ∀ t γ, g.Derives α (.terminal t :: γ) → t < g.terminals.size)
    (h : ∀ x, x ∈ s.slots ↔ g.CanBegin α x) : s.ExactFor g α where
  terminal t := by
    rw [mem_terminals, hsize, h]
    constructor
    · rintro ⟨hx, ht⟩
      exact (Grammar.CanBegin.terminal_iff ht).mp hx
    · rintro ⟨γ, hd⟩
      exact ⟨.terminal (hα t γ hd) hd, hα t γ hd⟩
  epsilon := by rw [hasEpsilon_iff, hsize, h, Grammar.CanBegin.epsilon_iff]
  not_end := by
    rw [Bool.eq_false_iff, ne_eq, hasEnd_iff, hsize, h]
    exact Grammar.CanBegin.not_end

/-- **FIRST is exact**, for every nonterminal and every production, reachable or not. -/
theorem FirstSets.exact {engine : PatternEngine} {d : Declarations} {g : Grammar} {f : FirstSets}
    (hbuild : d.build engine = .ok g) (hfirst : g.firstSets = .ok f) :
    (∀ nt < g.nonterminals.size, (f.nonterminal nt).ExactFor g [.nonterminal nt]) ∧
      ∀ p < g.productions.size, (f.production p).ExactFor g (g.body p) := by
  have wf := Declarations.wellFormed_of_build hbuild
  constructor
  · intro nt hnt
    refine LookaheadSet.exactFor_of_mem_iff (size_symbol wf hfirst (.nonterminal nt)) ?_
      fun x => mem_symbol_iff (s := .nonterminal nt) wf hfirst hnt
    intro t γ hd
    exact (hd.hasSymbol wf List.mem_cons_self).resolve_right (by simp)
  · intro p hp
    have hbody : ∀ x ∈ g.body p, g.HasSymbol x := by
      have hget : g.productions[p]? = some g.productions[p] := Array.getElem?_eq_getElem hp
      rw [Grammar.body_of_getElem? hget]
      exact wf.body_mem _ (Array.getElem_mem hp)
    rw [production_eq wf hfirst hp]
    refine LookaheadSet.exactFor_of_mem_iff (size_bodyFirst (size_symbol wf hfirst) _) ?_
      fun x => mem_bodyFirst_iff wf hfirst hbody
    intro t γ hd
    exact (hd.hasSymbol wf List.mem_cons_self).elim id (hbody _)

/-- A nested list can begin with a letter or a parenthesis, and it can be empty. -/
theorem FirstSets.exact_nested : ∃ g f, Samples.nested.build Pattern.engine = .ok g ∧
    g.firstSets = .ok f ∧ (f.nonterminal 0).terminals = [0, 1] ∧
    (∃ γ, g.Derives [.nonterminal 0] (.terminal 1 :: γ)) ∧ g.Derives [.nonterminal 0] [] := by
  have hsets : ((Samples.nested.build Pattern.engine).toOption.bind fun g =>
      g.firstSets.toOption.map fun f => (decide (0 < g.nonterminals.size),
        (f.nonterminal 0).terminals, (f.nonterminal 0).hasEpsilon)) =
      some (true, [0, 1], true) := by
    decide +kernel
  simp only [Option.bind_eq_some_iff, Option.map_eq_some_iff, toOption_eq_some, Prod.mk.injEq,
    decide_eq_true_eq] at hsets
  obtain ⟨g, hbuild, f, hfirst, hsize, hterminals, hepsilon⟩ := hsets
  have hexact := (FirstSets.exact hbuild hfirst).1 0 hsize
  refine ⟨g, f, hbuild, hfirst, hterminals, (hexact.terminal 1).mp ?_, hexact.epsilon.mp hepsilon⟩
  rw [hterminals]
  decide

end PredictiveParsing
