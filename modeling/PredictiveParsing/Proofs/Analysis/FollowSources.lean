import PredictiveParsing.Proofs.Analysis.FollowCoverage

/-!
# Where FOLLOW comes from

A symbol that can vanish passes on what has been found to come after it, in whichever production
that was. So FOLLOW of a symbol can hold more than what comes after the symbol: it can hold what
comes after a symbol that stands right behind it in some sentential form and vanishes there, and
what comes after a symbol that vanishes behind that one. It holds nothing else. If no symbol
that can vanish stands right behind a symbol, its FOLLOW is exact.

## Main definitions

* `Grammar.VanishesAfter`, `Grammar.Borrows`: the symbols from which a symbol gets what follows it
* `Adjacency.Justified`: nothing is related that does not come next to such a symbol
* `FollowTable.Within`: all members of the sets have a property

## Main results

* `Grammar.WellFormed.adjacency_justified`: the relations of a grammar are justified
* `Compiled.Coherent.exists_of_mem_follow`: what is in FOLLOW comes after a symbol of that kind
* `Compiled.follow_sources`: the same by terminals and the mark for the end of the input
-/

namespace PredictiveParsing

namespace Grammar

variable {g : Grammar} {x y z : Symbol}

/-- **A symbol that can vanish stands right behind another** in a sentential form. -/
def VanishesAfter (g : Grammar) (x y : Symbol) : Prop := g.Precedes x y ∧ g.Derives [y] []

/-- **A symbol borrows** what follows it from itself, from the symbols that can vanish behind it,
from those that can vanish behind these, and so on. -/
def Borrows (g : Grammar) : Symbol → Symbol → Prop := Relation.ReflTransGen g.VanishesAfter

theorem Borrows.head (h : g.VanishesAfter x y) (h' : g.Borrows y z) : g.Borrows x z :=
  Relation.ReflTransGen.head h h'

/-- A symbol behind which nothing can vanish borrows from no other. -/
theorem Borrows.eq_of_forall (hx : ∀ w, g.Precedes x w → ¬ g.Derives [w] []) (h : g.Borrows x y) :
    y = x := by
  rcases h.cases_head with rfl | ⟨w, ⟨hprecedes, hnil⟩, -⟩
  · rfl
  · exact absurd hnil (hx w hprecedes)

/-- What a nonterminal borrows can be borrowed by a symbol with which it can end. -/
theorem Borrows.exists_canFollow {β : List Symbol} {slot : Nat} (h : g.Borrows x y)
    (hslot : g.CanFollow y slot) (hx : g.Derives [x] (β ++ [z])) :
    ∃ w, g.Borrows z w ∧ g.CanFollow w slot := by
  rcases h.cases_head with rfl | ⟨w, ⟨hprecedes, hnil⟩, hrest⟩
  · exact ⟨z, .refl, hslot.of_derives hx⟩
  · -- what vanishes right behind `x` vanishes right behind the end of `x`
    exact ⟨y, .head ⟨hprecedes.of_derives hx, hnil⟩ hrest, hslot⟩

end Grammar

/-! ## Neighbours and ends -/

namespace Adjacency

variable {g : Grammar} {a : Adjacency} {x y : Symbol}

/-- **Nothing is related without a reason**: what follows a symbol, and what it ends, it may have
from a symbol that vanishes behind it. -/
structure Justified (g : Grammar) (a : Adjacency) : Prop where
  followers : ∀ id f, f ∈ a.followersOf id →
    ∃ y, g.Borrows (g.symbolOfId id) y ∧ g.Precedes y (g.symbolOfId f)
  ends : ∀ id nt, nt ∈ a.endedBy id →
    ∃ y β, g.Borrows (g.symbolOfId id) y ∧ g.Derives [.nonterminal nt] (β ++ [y])

theorem justified_empty (g : Grammar) (count : Nat) : Justified g (.empty count) := by
  constructor
  · intro x f hf
    simp at hf
  · intro x nt hnt
    simp at hnt

namespace Justified

variable (ha : Justified g a)

include ha

theorem addFollower (hx : g.HasSymbol x) (hy : g.HasSymbol y) (h : g.Precedes x y) :
    Justified g (a.addFollower (g.symbolId x) (g.symbolId y)) := by
  refine ⟨fun id f hf => ?_, ha.ends⟩
  rcases mem_followersOf_addFollower.mp hf with hf | ⟨rfl, -, rfl⟩
  · exact ha.followers id f hf
  · rw [Grammar.symbolOfId_symbolId_of_hasSymbol hx, Grammar.symbolOfId_symbolId_of_hasSymbol hy]
    exact ⟨x, .refl, h⟩

theorem addEnd {nt : Nat} {β : List Symbol} (hx : g.HasSymbol x)
    (h : g.Derives [.nonterminal nt] (β ++ [x])) : Justified g (a.addEnd (g.symbolId x) nt) := by
  refine ⟨ha.followers, fun id m hm => ?_⟩
  rcases mem_endedBy_addEnd.mp hm with hm | ⟨rfl, -, rfl⟩
  · exact ha.ends id m hm
  · rw [Grammar.symbolOfId_symbolId_of_hasSymbol hx]
    exact ⟨x, β, .refl, h⟩

/-- A symbol that vanishes right behind another may pass on its followers. -/
theorem passFollowers (hx : g.HasSymbol x) (hy : g.HasSymbol y) (h : g.VanishesAfter x y) :
    Justified g (a.passFollowers (g.symbolId y) (g.symbolId x)) := by
  refine ⟨fun id f hf => ?_, ha.ends⟩
  rcases mem_followersOf_passFollowers.mp hf with hf | ⟨rfl, -, hf⟩
  · exact ha.followers id f hf
  · obtain ⟨z, hz, hprecedes⟩ := ha.followers _ f hf
    rw [Grammar.symbolOfId_symbolId_of_hasSymbol hy] at hz
    rw [Grammar.symbolOfId_symbolId_of_hasSymbol hx]
    exact ⟨z, hz.head h, hprecedes⟩

/-- It may pass on its ends, too. -/
theorem passEnds (hx : g.HasSymbol x) (hy : g.HasSymbol y) (h : g.VanishesAfter x y) :
    Justified g (a.passEnds (g.symbolId y) (g.symbolId x)) := by
  refine ⟨ha.followers, fun id m hm => ?_⟩
  rcases mem_endedBy_passEnds.mp hm with hm | ⟨rfl, -, hm⟩
  · exact ha.ends id m hm
  · obtain ⟨z, β, hz, hends⟩ := ha.ends _ m hm
    rw [Grammar.symbolOfId_symbolId_of_hasSymbol hy] at hz
    rw [Grammar.symbolOfId_symbolId_of_hasSymbol hx]
    exact ⟨z, β, hz.head h, hends⟩

theorem register {body : List Symbol} (hbody : ∀ x ∈ body, g.HasSymbol x)
    (hchain : body.IsChain g.Precedes) : Justified g (a.register g body) := by
  fun_induction Adjacency.register a g body with
  | case1 a x y rest ih =>
    obtain ⟨hprecedes, hrest⟩ := List.isChain_cons_cons.mp hchain
    have hfirst := ha.addFollower (hbody x (by simp)) (hbody y (by simp)) hprecedes
    exact ih hfirst (fun z hz => hbody z (List.mem_cons_of_mem x hz)) hrest
  | case2 => exact ha

/-- **A walk from the end of a body** passes on only what vanishing symbols have. -/
theorem inherit {nullable : Symbol → Bool}
    (hnullable : ∀ x, g.HasSymbol x → nullable x = true → g.Derives [x] [])
    {unbroken : Bool} {right : Symbol} {lefts : List Symbol}
    (hbody : ∀ x ∈ right :: lefts, g.HasSymbol x)
    (hchain : (right :: lefts).IsChain fun y x => g.Precedes x y) :
    Justified g (inherit g nullable unbroken right lefts a) := by
  fun_induction Adjacency.inherit g nullable unbroken right lefts a with
  | case1 => exact ha
  | case2 unbroken right left rest a hright a₁ a₂ ih =>
    obtain ⟨hprecedes, hrest⟩ := List.isChain_cons_cons.mp hchain
    have hy := hbody right List.mem_cons_self
    have hx := hbody left (by simp)
    have hvanishes : g.VanishesAfter left right := ⟨hprecedes, hnullable right hy hright⟩
    have h₁ : Justified g a₁ := ha.passFollowers hx hy hvanishes
    have h₂ : Justified g a₂ := by
      simp only [a₂]
      split
      · exact h₁.passEnds hx hy hvanishes
      · exact h₁
    exact ih h₂ (fun z hz => hbody z (List.mem_cons_of_mem right hz)) hrest
  | case3 unbroken right left rest a hright ih =>
    exact ih ha (fun z hz => hbody z (List.mem_cons_of_mem right hz))
      (List.isChain_cons_cons.mp hchain).2

theorem updateEnds {nullable : Symbol → Bool}
    (hnullable : ∀ x, g.HasSymbol x → nullable x = true → g.Derives [x] [])
    {head : Nat} {body : List Symbol} (hbody : ∀ x ∈ body, g.HasSymbol x)
    (hchain : body.IsChain g.Precedes) (hhead : g.Derives [.nonterminal head] body) :
    Justified g (a.updateEnds g nullable head body) := by
  unfold Adjacency.updateEnds
  split
  · exact ha
  · rename_i last rest hreverse
    obtain rfl : body = rest.reverse ++ [last] := by
      simpa using congrArg List.reverse hreverse
    refine (ha.addEnd (hbody last (by simp)) hhead).inherit hnullable
      (fun x hx => hbody x (by simpa [or_comm] using hx)) ?_
    rw [← List.isChain_reverse]
    simpa using hchain

end Justified

end Adjacency

/-- **The relations of a grammar are justified** if only symbols that derive the empty text are
taken to vanish. -/
theorem Grammar.WellFormed.adjacency_justified {g : Grammar} (wf : g.WellFormed)
    {nullable : Symbol → Bool}
    (hnullable : ∀ x, g.HasSymbol x → nullable x = true → g.Derives [x] []) :
    Adjacency.Justified g (g.adjacency nullable) := by
  have hproduction {nt p : Nat} (hnt : nt ∈ g.reachable) (hp : p ∈ g.alternatives nt) :
      (∀ x ∈ g.body p, g.HasSymbol x) ∧ (g.body p).IsChain g.Precedes ∧
        g.Derives [.nonterminal nt] (g.body p) := by
    obtain ⟨production, hmem, -, rfl, hbody⟩ := wf.exists_production hp
    rw [hbody]
    exact ⟨wf.body_mem production hmem, (wf.mem_reachable_iff.mp hnt).isChain_body hmem,
      .of_production hmem⟩
  refine List.foldlRecOn _ _ (List.foldlRecOn _ _ (Adjacency.justified_empty g _) ?_) ?_
  · intro a ha p hp
    obtain ⟨nt, hnt, hp⟩ := List.mem_flatMap.mp hp
    obtain ⟨hsymbols, hchain, -⟩ := hproduction hnt hp
    exact ha.register hsymbols hchain
  · intro a ha nt hnt
    refine List.foldlRecOn _ _ ha fun a ha p hp => ?_
    obtain ⟨hsymbols, hchain, hderives⟩ := hproduction hnt hp
    exact ha.updateEnds hnullable hsymbols hchain hderives

/-! ## FOLLOW -/

/-- **All members of the sets have a property.** -/
def FollowTable.Within (size : Nat) (P : Nat → Nat → Prop) (table : FollowTable) : Prop :=
  ∀ x slot, slot ∈ (table.get size x).slots → P x slot

namespace Grammar

open FollowTable

variable {g : Grammar} {P : Nat → Nat → Prop} {pairs : List (Nat × Nat)} {table : FollowTable}

theorem within_sweep (hpairs : ∀ pair ∈ pairs, ∀ slot, P pair.1 slot → P pair.2 slot)
    (h : table.Within g.terminals.size P) : (g.sweep pairs table).1.Within g.terminals.size P := by
  induction pairs generalizing table with
  | nil => exact h
  | cons pair pairs ih =>
    rw [sweep_cons]
    refine ih (fun q hq => hpairs q (List.mem_cons_of_mem pair hq)) fun x slot hslot => ?_
    rw [get_pass] at hslot
    split at hslot
    · rename_i hx
      rcases LookaheadSet.mem_absorb.mp hslot with hslot | hslot
      · exact h x slot (hx.1 ▸ hslot)
      · rw [hx.1]
        exact hpairs pair List.mem_cons_self slot (h pair.1 slot hslot)
    · exact h x slot hslot

/-- **Rounds keep a property** that passes from the source to the target of each pair. -/
theorem within_settle (hpairs : ∀ pair ∈ pairs, ∀ slot, P pair.1 slot → P pair.2 slot)
    (fuel : Nat) (h : table.Within g.terminals.size P) :
    (g.settle pairs fuel table).1.Within g.terminals.size P := by
  induction fuel generalizing table with
  | zero => exact h
  | succ fuel ih =>
    unfold settle
    cases hchanged : (g.sweep pairs table).2 with
    | false => simpa [hchanged] using within_sweep hpairs h
    | true => simpa [hchanged] using ih (within_sweep hpairs h)

end Grammar

namespace Compiled

namespace Coherent

variable {c : Compiled} (hc : c.Coherent)

include hc

theorem adjacency_justified : Adjacency.Justified c.grammar c.analysis.adjacency := by
  rw [hc.adjacency]
  exact hc.wellFormed.adjacency_justified fun x hx hnull =>
    (FirstSets.nullable_iff hc.wellFormed hc.firstSets hx).mp hnull

/-- Every member of FOLLOW comes after a symbol from which it can be borrowed. -/
theorem followTable_within : c.analysis.followTable.Within c.grammar.terminals.size fun id slot =>
    ∃ y, c.grammar.Borrows (c.grammar.symbolOfId id) y ∧ c.grammar.CanFollow y slot := by
  have hjustified := hc.adjacency_justified
  rw [hc.followTable]
  refine Grammar.within_settle ?_ _ ?_
  · rintro ⟨source, target⟩ hpair slot ⟨y, hy, hslot⟩
    obtain ⟨-, -, nt, hnt, rfl⟩ := Grammar.mem_inheritances.mp hpair
    obtain ⟨z, β, hz, hends⟩ := hjustified.ends target nt hnt
    rw [c.grammar.symbolOfId_symbolId (x := .nonterminal nt) (by simp)] at hy
    obtain ⟨w, hw, hslot⟩ := hy.exists_canFollow hslot hends
    exact ⟨w, hz.trans hw, hslot⟩
  · intro id slot hslot
    by_cases hid : id < c.grammar.symbolCount
    · have hsize := FirstSets.size_symbol hc.wellFormed hc.firstSets
      rcases (Grammar.mem_followStart hc.wellFormed hsize hid).mp hslot with
        ⟨hstart, rfl⟩ | ⟨f, hf, hslot, hne⟩
      · exact ⟨_, .refl, .ending ⟨[], hstart ▸ .refl _⟩⟩
      · obtain ⟨y, hy, hprecedes⟩ := hjustified.followers id f hf
        have hsymbol := hc.wellFormed.hasSymbol_of_occurs hprecedes.occurs_right
        exact ⟨y, hy, .of_canBegin hprecedes
          (FirstSets.canBegin_of_mem_symbol hc.wellFormed hc.firstSets hsymbol hslot) hne⟩
    · rw [FollowTable.get, Array.getElem?_eq_none (by simpa [Grammar.followStart] using hid)]
        at hslot
      simp [LookaheadSet.empty] at hslot

/-- **What is in FOLLOW** comes after the symbol, or after a symbol from which it is borrowed. -/
theorem exists_of_mem_follow {x : Symbol} (hx : c.grammar.HasSymbol x) {slot : Nat}
    (hslot : slot ∈ (c.analysis.follow c.grammar x).slots) :
    ∃ y, c.grammar.Borrows x y ∧ c.grammar.CanFollow y slot := by
  simpa [Grammar.symbolOfId_symbolId_of_hasSymbol hx] using hc.followTable_within _ slot hslot

end Coherent

/-- **Where FOLLOW comes from**: a terminal in FOLLOW of a symbol stands right behind the symbol or
behind one from which the symbol borrows, and likewise a form ends with one of them if the end of
the input is in FOLLOW. If nothing that can vanish stands right behind the symbol, its FOLLOW is
what comes right after the symbol itself. -/
theorem follow_sources {engine : PatternEngine} {d : Declarations} {g : Grammar} {c : Compiled}
    (hbuild : d.build engine = .ok g) (hcompile : g.compile = .ok c) {x : Symbol}
    (hx : g.HasSymbol x) :
    (∀ t ∈ (c.analysis.follow g x).terminals, ∃ y, g.Borrows x y ∧ g.Precedes y (.terminal t)) ∧
      ((c.analysis.follow g x).hasEnd = true → ∃ y, g.Borrows x y ∧ g.ComesLast y) ∧
      ((∀ y, g.Precedes x y → ¬ g.Derives [y] []) →
        (∀ t, t ∈ (c.analysis.follow g x).terminals ↔ g.Precedes x (.terminal t)) ∧
          ((c.analysis.follow g x).hasEnd = true ↔ g.ComesLast x)) := by
  obtain ⟨rfl, hc⟩ := coherent hbuild hcompile
  have hterminals : ∀ t ∈ (c.analysis.follow c.grammar x).terminals,
      ∃ y, c.grammar.Borrows x y ∧ c.grammar.Precedes y (.terminal t) := by
    intro t ht
    rw [LookaheadSet.mem_terminals, hc.size_follow] at ht
    obtain ⟨y, hy, hslot⟩ := hc.exists_of_mem_follow hx ht.1
    exact ⟨y, hy, hslot.precedes ht.2⟩
  have hending : (c.analysis.follow c.grammar x).hasEnd = true →
      ∃ y, c.grammar.Borrows x y ∧ c.grammar.ComesLast y := by
    intro hend
    rw [LookaheadSet.hasEnd_iff, hc.size_follow] at hend
    obtain ⟨y, hy, hslot⟩ := hc.exists_of_mem_follow hx hend
    exact ⟨y, hy, hslot.comesLast⟩
  refine ⟨hterminals, hending, fun hsolid => ?_⟩
  constructor
  · intro t
    refine ⟨fun ht => ?_, hc.mem_terminals_follow⟩
    obtain ⟨y, hy, hprecedes⟩ := hterminals t ht
    exact hy.eq_of_forall hsolid ▸ hprecedes
  · refine ⟨fun hend => ?_, hc.hasEnd_follow⟩
    obtain ⟨y, hy, hlast⟩ := hending hend
    exact hy.eq_of_forall hsolid ▸ hlast

/-! ## One symbol in two contexts -/

/-- The sentential forms of the sample. -/
def twoContextsForms : List (List Symbol) :=
  [[.nonterminal 0],
    [.nonterminal 1, .nonterminal 2, .terminal 1], [.terminal 0, .nonterminal 2, .terminal 1],
    [.nonterminal 1, .terminal 1], [.terminal 0, .terminal 1],
    [.nonterminal 2, .terminal 2], [.terminal 2]]

theorem exists_twoContexts : ∃ g c, Samples.twoContexts.build Pattern.engine = .ok g ∧
    g.compile = .ok c ∧ (∀ α, g.Sentential α → α ∈ twoContextsForms) ∧
    g.nonterminals.size = 3 ∧ g.Occurs (.nonterminal 1) ∧
    2 ∈ (c.analysis.follow g (.nonterminal 1)).terminals ∧
    2 ∈ (c.analysis.follow g (.nonterminal 2)).terminals := by
  have hrun : ((Samples.twoContexts.build Pattern.engine).toOption.bind fun g =>
      g.compile.toOption.map fun c => decide (
        (∀ α ∈ twoContextsForms, ∀ β ∈ g.steps α, β ∈ twoContextsForms) ∧
        g.start = 0 ∧ g.nonterminals.size = 3 ∧ 1 ∈ g.reachable ∧
        2 ∈ (c.analysis.follow g (.nonterminal 1)).terminals ∧
        2 ∈ (c.analysis.follow g (.nonterminal 2)).terminals)) = some true := by
    decide +kernel
  simp only [Option.bind_eq_some_iff, Option.map_eq_some_iff, toOption_eq_some,
    decide_eq_true_eq] at hrun
  obtain ⟨g, hbuild, c, hcompile, hclosed, hstart, hsize, hreachable, hitem, hgap⟩ := hrun
  have wf := Declarations.wellFormed_of_build hbuild
  refine ⟨g, c, hbuild, hcompile, fun α hα => ?_, hsize, ?_, hitem, hgap⟩
  · rw [Grammar.Sentential, hstart] at hα
    exact Grammar.mem_of_derives hclosed List.mem_cons_self hα
  · exact wf.mem_reachable_iff.mp hreachable

/-- Nothing that vanishes stands behind the gap, so what is in FOLLOW of it does stand there. What
is in FOLLOW of the item stands behind the gap from which it is borrowed. -/
theorem follow_sources_twoContexts : ∃ g c, Samples.twoContexts.build Pattern.engine = .ok g ∧
    g.compile = .ok c ∧ (g.HasSymbol (.nonterminal 1) ∧ g.HasSymbol (.nonterminal 2)) ∧
    (∀ y, g.Precedes (.nonterminal 2) y → ¬ g.Derives [y] []) ∧
    g.Precedes (.nonterminal 2) (.terminal 2) ∧
    ∃ y, g.Borrows (.nonterminal 1) y ∧ g.Precedes y (.terminal 2) := by
  obtain ⟨g, c, hbuild, hcompile, hforms, hsize, -, hitem, hgap⟩ := exists_twoContexts
  have hsymbols : g.HasSymbol (.nonterminal 1) ∧ g.HasSymbol (.nonterminal 2) := by
    simp [Grammar.HasSymbol, hsize]
  have hsolid : ∀ y, g.Precedes (.nonterminal 2) y → ¬ g.Derives [y] [] := by
    intro y hy hnil
    obtain ⟨α, hα, hpair⟩ := hy.exists_mem_zip
    have hterminal : ∀ α ∈ twoContextsForms, ∀ pair ∈ α.zip α.tail,
        pair.1 = .nonterminal 2 → pair.2 = .terminal 1 ∨ pair.2 = .terminal 2 := by decide
    rcases hterminal α (hforms α hα) _ hpair rfl with rfl | rfl
    · cases hnil.eq_terminal
    · cases hnil.eq_terminal
  obtain ⟨hborrowed, -, -⟩ := follow_sources hbuild hcompile hsymbols.1
  obtain ⟨-, -, hexact⟩ := follow_sources hbuild hcompile hsymbols.2
  exact ⟨g, c, hbuild, hcompile, hsymbols, hsolid, ((hexact hsolid).1 2).mp hgap,
    hborrowed 2 hitem⟩

/-- **FOLLOW can hold what never follows**: `d` is in FOLLOW of the item, though it stands behind
the item in no sentential form. -/
theorem follow_borrowed_twoContexts : ∃ g c, Samples.twoContexts.build Pattern.engine = .ok g ∧
    g.compile = .ok c ∧ g.Occurs (.nonterminal 1) ∧
    2 ∈ (c.analysis.follow g (.nonterminal 1)).terminals ∧
    ¬ g.Precedes (.nonterminal 1) (.terminal 2) := by
  obtain ⟨g, c, hbuild, hcompile, hforms, -, hoccurs, hitem, -⟩ := exists_twoContexts
  refine ⟨g, c, hbuild, hcompile, hoccurs, hitem, ?_⟩
  intro h
  obtain ⟨α, hα, hpair⟩ := h.exists_mem_zip
  have hapart : ∀ α ∈ twoContextsForms,
      (Symbol.nonterminal 1, Symbol.terminal 2) ∉ α.zip α.tail := by decide
  exact hapart α (hforms α hα) hpair

end Compiled

end PredictiveParsing
