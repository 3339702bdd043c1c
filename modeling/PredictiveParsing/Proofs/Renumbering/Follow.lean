import PredictiveParsing.Proofs.Analysis.FollowSources
import PredictiveParsing.Proofs.Renumbering.Alike

/-!
# FOLLOW of grammars that are alike

The neighbours and ends of symbols are collected in shared sets that change along the walk, so
what a set holds at some moment depends on the order of the walk. The walks of two grammars that
are alike go in step, and so do the changes: what is related in one grammar is related in the other
one. It is enough to show this one way round.

Rounds pass sets on in the order of the numbers, which differs. But the sets that come to rest are
the least ones, whatever the order is.

## Main definitions

* `Adjacency.Below`: what is related in one grammar is related in another one

## Main results

* `Grammar.Alike.adjacency_below`: the relations of a grammar have their like
* `Grammar.Alike.follow_eq`: FOLLOW of related symbols is the same
-/

namespace PredictiveParsing

/-! ## Neighbours and ends -/

/-- **What is related in one grammar is related in another one**, up to numbers. -/
structure Adjacency.Below (g g' : Grammar) (R : Nat → Nat → Prop) (a a' : Adjacency) : Prop where
  /-- Followers have their like. -/
  followers : ∀ x x', x.Matches g.terminals.size R x' → ∀ f ∈ a.followersOf (g.symbolId x),
    ∃ y y', y.Matches g.terminals.size R y' ∧ f = g.symbolId y ∧
      g'.symbolId y' ∈ a'.followersOf (g'.symbolId x')
  /-- Ends have their like. -/
  ends : ∀ x x', x.Matches g.terminals.size R x' → ∀ nt ∈ a.endedBy (g.symbolId x),
    ∃ nt', R nt nt' ∧ nt' ∈ a'.endedBy (g'.symbolId x')
  /-- There is a set for each symbol of the other grammar. -/
  sized : Sized g' a'

namespace Adjacency.Below

variable {g g' : Grammar} {R : Nat → Nat → Prop} (h : g.Alike g' R) {a a' : Adjacency}
  {x x' y y' : Symbol} {nt nt' : Nat}

include h

omit h in
theorem empty : Below g g' R (.empty g.symbolCount) (.empty g'.symbolCount) := by
  refine ⟨?_, ?_, .empty g'⟩
  · intro x x' hx f hf
    simp at hf
  · intro x x' hx nt hnt
    simp at hnt

theorem addFollower (ha : Below g g' R a a') (hx : x.Matches g.terminals.size R x')
    (hy : y.Matches g.terminals.size R y') :
    Below g g' R (a.addFollower (g.symbolId x) (g.symbolId y))
      (a'.addFollower (g'.symbolId x') (g'.symbolId y')) := by
  refine ⟨?_, ha.ends, ha.sized.grows (grows_addFollower a' _ _)⟩
  intro z z' hz f hf
  rcases mem_followersOf_addFollower.mp hf with hf | ⟨hid, -, rfl⟩
  · obtain ⟨w, w', hw, rfl, hmem⟩ := ha.followers z z' hz f hf
    exact ⟨w, w', hw, rfl, mem_followersOf_addFollower.mpr (.inl hmem)⟩
  · refine ⟨y, y', hy, rfl, mem_followersOf_addFollower.mpr (.inr ⟨?_, ?_, rfl⟩)⟩
    · exact (h.symbolId_eq_iff hz hx).mp hid
    · rw [ha.sized.followers]
      exact Grammar.symbolId_lt (h.hasSymbol hx).2

theorem addEnd (ha : Below g g' R a a') (hx : x.Matches g.terminals.size R x') (hR : R nt nt') :
    Below g g' R (a.addEnd (g.symbolId x) nt) (a'.addEnd (g'.symbolId x') nt') := by
  refine ⟨ha.followers, ?_, ha.sized.grows (grows_addEnd a' _ _)⟩
  intro z z' hz m hm
  rcases mem_endedBy_addEnd.mp hm with hm | ⟨hid, -, rfl⟩
  · obtain ⟨m', hm', hmem⟩ := ha.ends z z' hz m hm
    exact ⟨m', hm', mem_endedBy_addEnd.mpr (.inl hmem)⟩
  · refine ⟨nt', hR, mem_endedBy_addEnd.mpr (.inr ⟨?_, ?_, rfl⟩)⟩
    · exact (h.symbolId_eq_iff hz hx).mp hid
    · rw [ha.sized.ends]
      exact Grammar.symbolId_lt (h.hasSymbol hx).2

/-- What the right one of two symbols has been given is passed on in both grammars. -/
theorem passFollowers (ha : Below g g' R a a') (hx : x.Matches g.terminals.size R x')
    (hy : y.Matches g.terminals.size R y') :
    Below g g' R (a.passFollowers (g.symbolId y) (g.symbolId x))
      (a'.passFollowers (g'.symbolId y') (g'.symbolId x')) := by
  refine ⟨?_, ha.ends, ha.sized.grows (grows_passFollowers a' _ _)⟩
  intro z z' hz f hf
  rcases mem_followersOf_passFollowers.mp hf with hf | ⟨hid, -, hf⟩
  · obtain ⟨w, w', hw, rfl, hmem⟩ := ha.followers z z' hz f hf
    exact ⟨w, w', hw, rfl, mem_followersOf_passFollowers.mpr (.inl hmem)⟩
  · obtain ⟨w, w', hw, rfl, hmem⟩ := ha.followers y y' hy f hf
    refine ⟨w, w', hw, rfl, mem_followersOf_passFollowers.mpr (.inr ⟨?_, ?_, hmem⟩)⟩
    · exact (h.symbolId_eq_iff hz hx).mp hid
    · rw [ha.sized.followers]
      exact Grammar.symbolId_lt (h.hasSymbol hx).2

theorem passEnds (ha : Below g g' R a a') (hx : x.Matches g.terminals.size R x')
    (hy : y.Matches g.terminals.size R y') :
    Below g g' R (a.passEnds (g.symbolId y) (g.symbolId x))
      (a'.passEnds (g'.symbolId y') (g'.symbolId x')) := by
  refine ⟨ha.followers, ?_, ha.sized.grows (grows_passEnds a' _ _)⟩
  intro z z' hz m hm
  rcases mem_endedBy_passEnds.mp hm with hm | ⟨hid, -, hm⟩
  · obtain ⟨m', hm', hmem⟩ := ha.ends z z' hz m hm
    exact ⟨m', hm', mem_endedBy_passEnds.mpr (.inl hmem)⟩
  · obtain ⟨m', hm', hmem⟩ := ha.ends y y' hy m hm
    refine ⟨m', hm', mem_endedBy_passEnds.mpr (.inr ⟨?_, ?_, hmem⟩)⟩
    · exact (h.symbolId_eq_iff hz hx).mp hid
    · rw [ha.sized.ends]
      exact Grammar.symbolId_lt (h.hasSymbol hx).2

variable {body body' : List Symbol}

theorem register (ha : Below g g' R a a')
    (hbody : List.Forall₂ (Symbol.Matches g.terminals.size R) body body') :
    Below g g' R (a.register g body) (a'.register g' body') := by
  induction hbody generalizing a a' with
  | nil => exact ha
  | cons hx hrest ih =>
    cases hrest with
    | nil => exact ha
    | cons hy hrest => exact ih (ha.addFollower h hx hy)

variable {nullable nullable' : Symbol → Bool}

/-- **The walks from the ends of two bodies go in step**, since the same symbols vanish. -/
theorem inherit (hnullable : ∀ x x', x.Matches g.terminals.size R x' → nullable x = nullable' x')
    (ha : Below g g' R a a') (unbroken : Bool) (hx : x.Matches g.terminals.size R x')
    {lefts lefts' : List Symbol}
    (hlefts : List.Forall₂ (Symbol.Matches g.terminals.size R) lefts lefts') :
    Below g g' R (inherit g nullable unbroken x lefts a)
      (inherit g' nullable' unbroken x' lefts' a') := by
  induction hlefts generalizing a a' unbroken x x' with
  | nil => exact ha
  | cons hleft _ ih =>
    rw [Adjacency.inherit, Adjacency.inherit, hnullable _ _ hx]
    split
    · have hpassed := ha.passFollowers h hleft hx
      refine ih ?_ unbroken hleft
      cases unbroken with
      | false => exact hpassed
      | true => exact hpassed.passEnds h hleft hx
    · exact ih ha false hleft

theorem updateEnds (hnullable : ∀ x x', x.Matches g.terminals.size R x' → nullable x = nullable' x')
    (ha : Below g g' R a a') (hR : R nt nt')
    (hbody : List.Forall₂ (Symbol.Matches g.terminals.size R) body body') :
    Below g g' R (a.updateEnds g nullable nt body) (a'.updateEnds g' nullable' nt' body') := by
  have hreverse := List.rel_reverse hbody
  unfold Adjacency.updateEnds
  generalize body.reverse = symbols at hreverse
  generalize body'.reverse = symbols' at hreverse
  cases hreverse with
  | nil => exact ha
  | cons hlast hrest => exact (ha.addEnd h hlast hR).inherit h hnullable true hlast hrest

end Adjacency.Below

namespace Grammar.Alike

variable {g g' : Grammar} {R : Nat → Nat → Prop} (h : g.Alike g' R)

include h

/-- **The relations of a grammar have their like** in one that is alike. -/
theorem adjacency_below {nullable nullable' : Symbol → Bool}
    (hnullable : ∀ x x', x.Matches g.terminals.size R x' → nullable x = nullable' x') :
    Adjacency.Below g g' R (g.adjacency nullable) (g'.adjacency nullable') := by
  have hproductions : List.Forall₂ (g.MatchesAt g' R) g.reachableProductions
      g'.reachableProductions :=
    List.rel_flatMap h.reachable fun nt nt' hR => h.alternatives nt nt' hR
  have hneighbours : Adjacency.Below g g' R
      (g.reachableProductions.foldl (fun a p => a.register g (g.body p)) (.empty g.symbolCount))
      (g'.reachableProductions.foldl (fun a p => a.register g' (g'.body p))
        (.empty g'.symbolCount)) :=
    List.rel_foldl (fun a a' ha p p' hp => ha.register h (body hp)) .empty hproductions
  refine List.rel_foldl (fun a a' ha nt nt' hR => ?_) hneighbours h.reachable
  exact List.rel_foldl (fun a a' ha p p' hp => ha.updateEnds h hnullable hR (body hp)) ha
    (h.alternatives nt nt' hR)

end Grammar.Alike

/-! ## FOLLOW -/

namespace Compiled.Coherent

variable {c c' : Compiled} {R : Nat → Nat → Prop} {x x' : Symbol} (hc : c.Coherent)
  (hc' : c'.Coherent) (h : c.grammar.Alike c'.grammar R)

include hc hc' h

theorem first_eq (hx : x.Matches c.grammar.terminals.size R x') :
    c.analysis.first.symbol x = c'.analysis.first.symbol x' :=
  h.symbol_eq hc.firstSets hc'.firstSets hx

theorem adjacency_below :
    Adjacency.Below c.grammar c'.grammar R c.analysis.adjacency c'.analysis.adjacency := by
  rw [hc.adjacency, hc'.adjacency]
  refine h.adjacency_below fun x x' hx => ?_
  rw [FirstSets.nullable, FirstSets.nullable, hc.first_eq hc' h hx]

/-- FOLLOW of a symbol is part of FOLLOW of its like: the sets of the other grammar have at least
what each round can pass on. -/
theorem follow_subset (hx : x.Matches c.grammar.terminals.size R x') {slot : Nat}
    (hslot : slot ∈ (c.analysis.follow c.grammar x).slots) :
    slot ∈ (c'.analysis.follow c'.grammar x').slots := by
  have hbelow := hc.adjacency_below hc' h
  have hsize := FirstSets.size_symbol hc.wellFormed hc.firstSets
  have hsize' := FirstSets.size_symbol hc'.wellFormed hc'.firstSets
  obtain ⟨-, hgrows', hsettled'⟩ := hc'.followTable_settled
  have hwithin : c.analysis.followTable.Within c.grammar.terminals.size fun id slot =>
      ∀ x x', x.Matches c.grammar.terminals.size R x' → id = c.grammar.symbolId x →
        slot ∈ (c'.analysis.follow c'.grammar x').slots := by
    rw [hc.followTable]
    refine Grammar.within_settle ?_ _ ?_
    · rintro ⟨source, target⟩ hpair slot hsource x x' hx rfl
      obtain ⟨-, -, nt, hnt, rfl⟩ := Grammar.mem_inheritances.mp hpair
      obtain ⟨nt', hR, hnt'⟩ := hbelow.ends x x' hx nt hnt
      have hmem := hsource _ _ (.nonterminal hR) rfl
      by_cases hself : c'.grammar.symbolId (.nonterminal nt') = c'.grammar.symbolId x'
      · rwa [Analysis.follow, ← hself]
      · exact hsettled' _ _ (Grammar.mem_inheritances.mpr
          ⟨Grammar.symbolId_lt (h.hasSymbol hx).2, hself, nt', hnt', rfl⟩) slot hmem
    · rintro id slot hslot x x' hx rfl
      obtain ⟨hsymbol, hsymbol'⟩ := h.hasSymbol hx
      rw [Grammar.mem_followStart hc.wellFormed hsize (Grammar.symbolId_lt hsymbol),
        Grammar.symbolOfId_symbolId_of_hasSymbol hsymbol] at hslot
      rcases hslot with ⟨rfl, rfl⟩ | ⟨f, hf, hslot, hne⟩
      · rcases hx with - | hR
        rw [← h.biUnique.2 h.start hR, h.terminals]
        exact hc'.end_mem_follow
      · obtain ⟨y, y', hy, rfl, hf'⟩ := hbelow.followers x x' hx f hf
        obtain ⟨hother, hother'⟩ := h.hasSymbol hy
        rw [Grammar.symbolOfId_symbolId_of_hasSymbol hother, hc.first_eq hc' h hy] at hslot
        refine hgrows' _ slot ?_
        rw [Grammar.mem_followStart hc'.wellFormed hsize' (Grammar.symbolId_lt hsymbol')]
        refine .inr ⟨_, hf', ?_, ?_⟩
        · rwa [Grammar.symbolOfId_symbolId_of_hasSymbol hother']
        · rwa [← h.terminals]
  exact hwithin _ slot hslot x x' hx rfl

/-- **FOLLOW of matching symbols is the same.** -/
theorem follow_eq (hx : x.Matches c.grammar.terminals.size R x') :
    c.analysis.follow c.grammar x = c'.analysis.follow c'.grammar x' := by
  refine LookaheadSet.ext_of_mem ?_ fun slot => ⟨?_, ?_⟩
  · rw [hc.size_follow, hc'.size_follow, h.terminals]
  · exact hc.follow_subset hc' h hx
  · exact hc'.follow_subset hc h.symm (h.terminals ▸ hx.symm)

end Compiled.Coherent

end PredictiveParsing
