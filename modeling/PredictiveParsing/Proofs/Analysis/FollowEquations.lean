import PredictiveParsing.Proofs.Analysis.Adjacency
import PredictiveParsing.Proofs.Analysis.Follow
import PredictiveParsing.Proofs.Prediction

/-!
# FOLLOW solves its equations

In the body of a reachable production, what comes after a symbol is what the rest of the body can
begin with, and all that comes after the head if the rest can vanish. FOLLOW holds both: the
neighbours account for the first part and the sets passed on for the second.

## Main results

* `Grammar.mem_followStart`: the sets before anything is passed on
* `Grammar.followSets_settled`: nothing is left to pass on in the end
* `Compiled.Coherent.mem_follow_of_mem_bodyFirst`: what the rest of a body can begin with
* `Compiled.Coherent.mem_follow_of_endedBy`, `mem_follow_of_vanishing`: what comes after the head
* `Compiled.Coherent.end_mem_follow`: the end of the input comes after the start symbol
-/

namespace PredictiveParsing

namespace Grammar

variable {g : Grammar} {adjacency : Adjacency} {first : Symbol → LookaheadSet}

/-! ## The sets that are made -/

/-- The sets of the symbols of a grammar, before anything is passed on. -/
theorem get_followStart (wf : g.WellFormed) {x : Nat} (hx : x < g.symbolCount) :
    (g.followStart adjacency first).get g.terminals.size x =
      (adjacency.followersOf x).toList.foldl
        (fun s f => s.union (first (g.symbolOfId f)).withoutEpsilon)
        (if g.symbolOfId x = .nonterminal g.start then g.emptySet.withEnd else g.emptySet) := by
  simp only [followStart, FollowTable.get, Array.getElem?_map, Array.getElem?_range, hx, if_true,
    Option.map_some, Option.getD_some]
  cases g.symbolOfId x with
  | terminal t => simp
  | nonterminal nt => simp [wf.isStart_iff]

/-- **Before anything is passed on** a set holds what the followers can begin with, and the end of
the input if the symbol is the start symbol. -/
theorem mem_followStart (wf : g.WellFormed) (hsize : ∀ s, (first s).size = g.terminals.size)
    {x slot : Nat} (hx : x < g.symbolCount) :
    slot ∈ ((g.followStart adjacency first).get g.terminals.size x).slots ↔
      (g.symbolOfId x = .nonterminal g.start ∧ slot = g.terminals.size) ∨
      ∃ f ∈ adjacency.followersOf x,
        slot ∈ (first (g.symbolOfId f)).slots ∧ slot ≠ g.terminals.size + 1 := by
  rw [get_followStart wf hx, LookaheadSet.mem_foldl_union]
  simp only [LookaheadSet.mem_slots_withoutEpsilon, hsize]
  refine or_congr ?_ Iff.rfl
  split
  · rename_i h
    simp [h, LookaheadSet.withEnd, emptySet, LookaheadSet.empty]
  · rename_i h
    simp [h, emptySet, LookaheadSet.empty]

/-- The sets fit the grammar from the start, if those do of what the followers can begin with. -/
theorem fits_followStart (wf : g.WellFormed)
    (hfirst : ∀ x, ∀ f ∈ adjacency.followersOf x,
      (first (g.symbolOfId f)).size = g.terminals.size ∧
        ∀ slot ∈ (first (g.symbolOfId f)).slots, slot ≤ g.terminals.size + 1) :
    (g.followStart adjacency first).Fits g.terminals.size g.symbolCount := by
  have hlength : (g.followStart adjacency first).size = g.symbolCount := by simp [followStart]
  refine ⟨hlength, fun x => ?_, fun x slot hslot => ?_⟩
  · by_cases hx : x < g.symbolCount
    · rw [get_followStart wf hx, LookaheadSet.size_foldl_union]
      split <;> rfl
    · rw [FollowTable.get, Array.getElem?_eq_none (by omega)]
      rfl
  · by_cases hx : x < g.symbolCount
    · rw [get_followStart wf hx, LookaheadSet.mem_foldl_union] at hslot
      rcases hslot with hslot | ⟨f, hf, hslot⟩
      · split at hslot <;> simp_all [LookaheadSet.withEnd, emptySet, LookaheadSet.empty]
      · obtain ⟨hsize, hle⟩ := hfirst x f hf
        obtain ⟨hslot, hne⟩ := LookaheadSet.mem_slots_withoutEpsilon.mp hslot
        have := hle slot hslot
        omega
    · rw [FollowTable.get, Array.getElem?_eq_none (by omega)] at hslot
      simp [LookaheadSet.empty] at hslot

/-- A symbol receives the sets of the nonterminals that it ends. -/
theorem mem_inheritances {source target : Nat} : (source, target) ∈ g.inheritances adjacency ↔
    target < g.symbolCount ∧ source ≠ target ∧
      ∃ nt ∈ adjacency.endedBy target, source = g.symbolId (.nonterminal nt) := by
  simp only [inheritances, List.mem_flatMap, List.mem_range, List.mem_filterMap]
  constructor
  · rintro ⟨x, hx, nt, hnt, h⟩
    split at h
    · cases h
    · rename_i hne
      obtain ⟨rfl, rfl⟩ := Prod.mk.inj (Option.some.inj h)
      exact ⟨hx, by simpa using hne, nt, hnt, rfl⟩
  · rintro ⟨hx, hne, nt, hnt, rfl⟩
    exact ⟨target, hx, nt, hnt, by simpa using hne⟩

theorem target_lt_of_mem_inheritances : ∀ pair ∈ g.inheritances adjacency,
    pair.2 < g.symbolCount := fun _ hpair => (mem_inheritances.mp hpair).1

/-- FOLLOW is what rounds lead to that are made until nothing changes. -/
theorem settles_followSets
    (hfits : (g.followStart adjacency first).Fits g.terminals.size g.symbolCount) :
    g.Settles (g.inheritances adjacency) (g.followStart adjacency first)
      (g.followSets adjacency first).1 (g.followSets adjacency first).2 := by
  refine settles_settle hfits target_lt_of_mem_inheritances ?_
  rw [roundBound]
  omega

/-- **FOLLOW is settled**: it has gained members since the start, and nothing is left to pass on. -/
theorem followSets_settled (wf : g.WellFormed) (hsize : ∀ s, (first s).size = g.terminals.size)
    (hfirst : ∀ id slot, slot ∈ (first (g.symbolOfId id)).slots → slot ≤ g.terminals.size + 1) :
    (g.followSets adjacency first).1.Fits g.terminals.size g.symbolCount ∧
      FollowTable.Grows g.terminals.size (g.followStart adjacency first)
        (g.followSets adjacency first).1 ∧
      (g.followSets adjacency first).1.Settled g.terminals.size (g.inheritances adjacency) := by
  have hfits : (g.followStart adjacency first).Fits g.terminals.size g.symbolCount :=
    fits_followStart wf fun _ f _ => ⟨hsize _, hfirst f⟩
  have hsettles := settles_followSets hfits
  exact ⟨hsettles.fits hfits, hsettles.grows, hsettles.settled⟩

end Grammar

/-! ## The equations -/

namespace FirstSets

variable {g : Grammar} {f : FirstSets} (wf : g.WellFormed) (h : g.firstSets = .ok f)

include wf h

/-- No set holds more than the terminals and the mark for the empty text. -/
theorem le_of_mem_symbol (id : Nat) {slot : Nat}
    (hslot : slot ∈ (f.symbol (g.symbolOfId id)).slots) : slot ≤ g.terminals.size + 1 := by
  have hsymbol : g.HasSymbol (g.symbolOfId id) := by
    unfold Grammar.symbolOfId at hslot ⊢
    split at hslot
    · rename_i hlt
      rw [if_pos hlt]
      exact hlt
    · rename_i hlt
      rw [if_neg hlt]
      obtain ⟨p, hp, hhead, -⟩ := (mem_nonterminal wf h).mp hslot
      exact hhead ▸ wf.head_lt p hp
  have := (canBegin_of_mem_symbol wf h hsymbol hslot).lt_or_eq
  omega

end FirstSets

namespace Compiled.Coherent

variable {c : Compiled} (hc : c.Coherent)

include hc

theorem followTable_settled :
    c.analysis.followTable.Fits c.grammar.terminals.size c.grammar.symbolCount ∧
      FollowTable.Grows c.grammar.terminals.size
        (c.grammar.followStart c.analysis.adjacency c.analysis.first.symbol)
        c.analysis.followTable ∧
      c.analysis.followTable.Settled c.grammar.terminals.size
        (c.grammar.inheritances c.analysis.adjacency) := by
  rw [hc.followTable]
  exact Grammar.followSets_settled hc.wellFormed
    (FirstSets.size_symbol hc.wellFormed hc.firstSets)
    fun id _ => FirstSets.le_of_mem_symbol hc.wellFormed hc.firstSets id

theorem size_follow (x : Symbol) :
    (c.analysis.follow c.grammar x).size = c.grammar.terminals.size :=
  hc.followTable_settled.1.size_get _

variable {nt p : Nat} {before after : List Symbol} {x : Symbol} {slot : Nat}

/-- **After a symbol comes what the rest of a body can begin with.** -/
theorem mem_follow_of_mem_bodyFirst (hnt : nt ∈ c.grammar.reachable)
    (hp : p ∈ c.grammar.alternatives nt) (hbody : c.grammar.body p = before ++ x :: after)
    (hslot : slot ∈ (bodyFirst c.grammar.terminals.size c.analysis.first.symbol after).slots)
    (hne : slot ≠ c.grammar.terminals.size + 1) :
    slot ∈ (c.analysis.follow c.grammar x).slots := by
  have hsize := FirstSets.size_symbol hc.wellFormed hc.firstSets
  obtain ⟨between, y, rest, rfl, hbetween, hy⟩ := exists_of_mem_bodyFirst hsize hslot hne
  have hsymbols : ∀ z ∈ c.grammar.body p, c.grammar.HasSymbol z :=
    fun z hz => hc.wellFormed.hasSymbol_of_mem_body hp hz
  have hconnected := hc.wellFormed.adjacency_connected c.analysis.first.nullable hnt hp
  have hfollower := (hconnected before x _ hbody).followers between y rest rfl hbetween
  rw [← hc.adjacency] at hfollower
  -- `y` is registered as a follower of `x`, so its FIRST is there before anything is passed on
  refine hc.followTable_settled.2.1 _ slot ?_
  have hx := Grammar.symbolId_lt (hsymbols x (by simp [hbody]))
  refine (Grammar.mem_followStart hc.wellFormed hsize hx).mpr ?_
  refine .inr ⟨_, hfollower, ?_, hne⟩
  rwa [Grammar.symbolOfId_symbolId_of_hasSymbol (hsymbols y (by simp [hbody]))]

/-- **What comes after a nonterminal** comes after the symbols that end it. -/
theorem mem_follow_of_endedBy (hx : c.grammar.HasSymbol x)
    (hend : nt ∈ c.analysis.adjacency.endedBy (c.grammar.symbolId x))
    (hslot : slot ∈ (c.analysis.follow c.grammar (.nonterminal nt)).slots) :
    slot ∈ (c.analysis.follow c.grammar x).slots := by
  by_cases hself : c.grammar.symbolId (.nonterminal nt) = c.grammar.symbolId x
  · rwa [Analysis.follow, ← hself]
  · exact hc.followTable_settled.2.2 _ _ (Grammar.mem_inheritances.mpr
      ⟨Grammar.symbolId_lt hx, hself, nt, hend, rfl⟩) slot hslot

/-- **If the rest of a body can vanish, after a symbol comes what comes after the head.** -/
theorem mem_follow_of_vanishing (hnt : nt ∈ c.grammar.reachable)
    (hp : p ∈ c.grammar.alternatives nt) (hbody : c.grammar.body p = before ++ x :: after)
    (hafter : ∀ y ∈ after, c.analysis.first.nullable y = true)
    (hslot : slot ∈ (c.analysis.follow c.grammar (.nonterminal nt)).slots) :
    slot ∈ (c.analysis.follow c.grammar x).slots := by
  have hconnected := hc.wellFormed.adjacency_connected c.analysis.first.nullable hnt hp
  have hend := (hconnected before x after hbody).ends hafter
  rw [← hc.adjacency] at hend
  have hx := hc.wellFormed.hasSymbol_of_mem_body hp (x := x) (by simp [hbody])
  exact hc.mem_follow_of_endedBy hx hend hslot

/-- **After the start symbol comes the end of the input.** -/
theorem end_mem_follow : c.grammar.terminals.size ∈
    (c.analysis.follow c.grammar (.nonterminal c.grammar.start)).slots := by
  have hstart : c.grammar.HasSymbol (.nonterminal c.grammar.start) := hc.wellFormed.start_lt
  refine hc.followTable_settled.2.1 _ _ ((Grammar.mem_followStart hc.wellFormed
    (FirstSets.size_symbol hc.wellFormed hc.firstSets) (Grammar.symbolId_lt hstart)).mpr (.inl ?_))
  exact ⟨Grammar.symbolOfId_symbolId_of_hasSymbol hstart, rfl⟩

end Compiled.Coherent

end PredictiveParsing
