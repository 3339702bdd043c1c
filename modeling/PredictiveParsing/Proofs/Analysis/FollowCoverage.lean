import PredictiveParsing.Proofs.Analysis.FollowEquations
import PredictiveParsing.Proofs.Analysis.Reachable

/-!
# FOLLOW misses nothing

Whatever can come right after a symbol in a sentential form is in FOLLOW of the symbol. The
invariant of a derivation is about every place in the form: FOLLOW of the symbol there holds what
the rest of the form can begin with, and the end of the input if the rest can vanish. A step puts
in a body. The rest behind a symbol of the body is the rest of the body before the rest behind the
head, and the equations of FOLLOW treat the two parts of it.

## Main definitions

* `Compiled.Covers`: FOLLOW holds what can come next before the rest of a form

## Main results

* `Compiled.Coherent.covers_of_sentential`: it does so at every place of a sentential form
* `Compiled.Coherent.mem_follow_of_canFollow`: what can come after a symbol is in FOLLOW
* `Compiled.follow_complete`: the same by terminals and the mark for the end of the input
-/

namespace PredictiveParsing

theorem Grammar.WellFormed.hasSymbol_of_occurs {g : Grammar} (wf : g.WellFormed) {x : Symbol}
    (h : g.Occurs x) : g.HasSymbol x := by
  obtain ⟨before, after, hform⟩ := h
  rcases Grammar.Derives.hasSymbol wf hform (x := x) (by simp) with hx | hx
  · exact hx
  · obtain rfl : x = .nonterminal g.start := by simpa using hx
    exact wf.start_lt

namespace Compiled

/-- **FOLLOW of a symbol holds what can come next** before the rest of a form: what the rest can
begin with, and the end of the input if the rest can vanish. -/
structure Covers (c : Compiled) (x : Symbol) (rest : List Symbol) : Prop where
  beginning : ∀ slot ∈ (bodyFirst c.grammar.terminals.size c.analysis.first.symbol rest).slots,
    slot ≠ c.grammar.terminals.size + 1 → slot ∈ (c.analysis.follow c.grammar x).slots
  ending : (∀ y ∈ rest, c.analysis.first.nullable y = true) →
    c.grammar.terminals.size ∈ (c.analysis.follow c.grammar x).slots

namespace Coherent

variable {c : Compiled} (hc : c.Coherent)

include hc

/-- A step behind a symbol adds nothing to what can come next. -/
theorem covers_of_rewrites {x : Symbol} {α β : List Symbol} (h : c.Covers x α)
    (hstep : c.grammar.Rewrites α β) : c.Covers x β where
  beginning slot hslot hne := h.beginning slot
    (FirstSets.mem_bodyFirst_of_rewrites hc.wellFormed hc.firstSets hstep hslot) hne
  ending hnull := by
    have hsize := FirstSets.size_symbol hc.wellFormed hc.firstSets
    refine h.ending ((epsilon_mem_bodyFirst hsize).mp ?_)
    exact FirstSets.mem_bodyFirst_of_rewrites hc.wellFormed hc.firstSets hstep
      ((epsilon_mem_bodyFirst hsize).mpr hnull)

/-- A body that is put in for its head is covered if the head is. -/
theorem covers_of_body {p : Production} (hp : p ∈ c.grammar.productions)
    (hhead : p.head ∈ c.grammar.reachable) {rest : List Symbol}
    (h : c.Covers (.nonterminal p.head) rest) {before after : List Symbol} {x : Symbol}
    (hbody : p.body = before ++ x :: after) : c.Covers x (after ++ rest) := by
  have hsize := FirstSets.size_symbol hc.wellFormed hc.firstSets
  obtain ⟨i, hi, -, hi'⟩ := hc.wellFormed.exists_alternative hp
  rw [hbody] at hi'
  constructor
  · intro slot hslot hne
    rcases (mem_bodyFirst_append hsize).mp hslot with ⟨hslot, -⟩ | ⟨heps, hslot⟩
    · exact hc.mem_follow_of_mem_bodyFirst hhead hi hi' hslot hne
    · -- the rest of the body can vanish, so what comes after the head comes after `x`
      have hnull := (epsilon_mem_bodyFirst hsize).mp heps
      exact hc.mem_follow_of_vanishing hhead hi hi' hnull (h.beginning slot hslot hne)
  · intro hnull
    refine hc.mem_follow_of_vanishing hhead hi hi' (fun y hy => hnull y (by simp [hy])) ?_
    exact h.ending fun y hy => hnull y (by simp [hy])

/-- **At every place of a sentential form** FOLLOW holds what can come next. -/
theorem covers_of_sentential {α : List Symbol} (h : c.grammar.Sentential α) :
    ∀ before x after, α = before ++ x :: after → c.Covers x after := by
  -- Induction on the derivation. The place is before the body that the last step has put in, in
  -- that body, or behind it.
  induction h with
  | refl =>
    intro before x after heq
    obtain ⟨-, rfl, rfl⟩ : before = [] ∧ x = .nonterminal c.grammar.start ∧ after = [] := by
      cases before with
      | nil => simpa [eq_comm] using heq
      | cons y before => simp at heq
    refine ⟨fun slot hslot hne => absurd (mem_bodyFirst_nil.mp hslot) hne, fun _ => ?_⟩
    exact hc.end_mem_follow
  | tail hprev hstep ih =>
    obtain @⟨p, hp, left, right⟩ := hstep
    intro before x after heq
    rcases append_eq_append_cons.mp heq with ⟨rest, hinner, rfl⟩ | ⟨rest, rfl, rfl⟩
    · rcases append_eq_append_cons.mp hinner with ⟨rest', rfl, rfl⟩ | ⟨rest', rfl, hbody⟩
      · exact hc.covers_of_rewrites (ih before x _ (by simp)) (.replace hp rest' right)
      · have hhead : p.head ∈ c.grammar.reachable :=
          hc.wellFormed.mem_reachable_iff.mpr ⟨left, right, hprev⟩
        exact hc.covers_of_body hp hhead (ih left _ right rfl) hbody
    · exact ih (left ++ .nonterminal p.head :: rest) x after (by simp)

/-- **What can come after a symbol is in FOLLOW.** -/
theorem mem_follow_of_canFollow {x : Symbol} {slot : Nat} (h : c.grammar.CanFollow x slot) :
    slot ∈ (c.analysis.follow c.grammar x).slots := by
  cases h with
  | terminal ht h =>
    obtain ⟨before, after, hform⟩ := h
    refine (hc.covers_of_sentential hform before x _ rfl).beginning slot ?_ (by omega)
    rw [mem_bodyFirst_cons (FirstSets.size_symbol hc.wellFormed hc.firstSets)]
    refine .inl ⟨?_, by omega⟩
    simp [FirstSets.symbol, LookaheadSet.singleton]
  | ending h =>
    obtain ⟨before, hform⟩ := h
    exact (hc.covers_of_sentential hform before x [] rfl).ending (by simp)

theorem mem_terminals_follow {x : Symbol} {t : Nat} (h : c.grammar.Precedes x (.terminal t)) :
    t ∈ (c.analysis.follow c.grammar x).terminals := by
  have ht : t < c.grammar.terminals.size := hc.wellFormed.hasSymbol_of_occurs h.occurs_right
  rw [LookaheadSet.mem_terminals, hc.size_follow]
  exact ⟨hc.mem_follow_of_canFollow (.terminal ht h), ht⟩

theorem hasEnd_follow {x : Symbol} (h : c.grammar.ComesLast x) :
    (c.analysis.follow c.grammar x).hasEnd = true := by
  rw [LookaheadSet.hasEnd_iff, hc.size_follow]
  exact hc.mem_follow_of_canFollow (.ending h)

end Coherent

/-- **FOLLOW misses nothing**: it holds every terminal that stands right behind the symbol in a
sentential form, and the end of the input if a sentential form ends with the symbol. -/
theorem follow_complete {engine : PatternEngine} {d : Declarations} {g : Grammar} {c : Compiled}
    (hbuild : d.build engine = .ok g) (hcompile : g.compile = .ok c) (x : Symbol) :
    (∀ t, g.Precedes x (.terminal t) → t ∈ (c.analysis.follow g x).terminals) ∧
      (g.ComesLast x → (c.analysis.follow g x).hasEnd = true) := by
  obtain ⟨rfl, hc⟩ := coherent hbuild hcompile
  exact ⟨fun t h => hc.mem_terminals_follow h, hc.hasEnd_follow⟩

/-- In a list an item can stand before a letter, and it can come last. -/
theorem follow_complete_nested : ∃ g c, Samples.nested.build Pattern.engine = .ok g ∧
    g.compile = .ok c ∧
    (g.Precedes (.nonterminal 1) (.terminal 0) ∧ g.ComesLast (.nonterminal 1)) ∧
    0 ∈ (c.analysis.follow g (.nonterminal 1)).terminals ∧
    (c.analysis.follow g (.nonterminal 1)).hasEnd = true := by
  have hrun : ((Samples.nested.build Pattern.engine).toOption.bind fun g =>
      g.compile.toOption.map fun _ => decide (
        [.nonterminal g.start] = [Symbol.nonterminal 0] ∧
        (([.nonterminal 0] :: [[.nonterminal 1, .nonterminal 0],
          [.nonterminal 1, .nonterminal 1, .nonterminal 0],
          [.nonterminal 1, .terminal 0, .nonterminal 0]]).IsChain fun α β => β ∈ g.steps α) ∧
        ([.nonterminal 0] :: [[.nonterminal 1, .nonterminal 0],
          [.nonterminal 1]]).IsChain fun α β => β ∈ g.steps α)) = some true := by
    decide +kernel
  simp only [Option.bind_eq_some_iff, Option.map_eq_some_iff, toOption_eq_some,
    decide_eq_true_eq] at hrun
  obtain ⟨g, hbuild, c, hcompile, hstart, hbefore, hlast⟩ := hrun
  have hprecedes : g.Precedes (.nonterminal 1) (.terminal 0) := by
    refine ⟨[], [.nonterminal 0], ?_⟩
    rw [Grammar.Sentential, hstart]
    exact Grammar.derives_of_isChain hbefore rfl
  have hends : g.ComesLast (.nonterminal 1) := by
    refine ⟨[], ?_⟩
    rw [Grammar.Sentential, hstart]
    exact Grammar.derives_of_isChain hlast rfl
  obtain ⟨hterminals, hend⟩ := follow_complete hbuild hcompile (.nonterminal 1)
  exact ⟨g, c, hbuild, hcompile, ⟨hprecedes, hends⟩, hterminals 0 hprecedes, hend hends⟩

end Compiled

end PredictiveParsing
