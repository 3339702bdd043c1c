import Mathlib.Data.Prod.Lex
import PredictiveParsing.Proofs.Analysis.Reachable
import PredictiveParsing.Proofs.Prediction

/-!
# Conflicts between alternatives

A conflict is listed for every two alternatives of a reachable nonterminal that accept the same: a
terminal that both can begin with, or the empty text. FIRST is exact, so the list is, too. It is
made by three nested loops, over the nonterminals in the order of the walk, over pairs of
alternatives, and over the members of an intersection; so it is in increasing order of the places
of these, and nothing is listed twice.

What is chosen agrees with the list. The first alternative that accepts a terminal is taken, so a
shadowed one never is; and where no conflict is listed, the one that is taken is the only one that
could be.

## Main definitions

* `Clash.AcceptedBy`: an alternative accepts a terminal, or the empty text
* `Conflict.IsReal`: two alternatives of a reachable nonterminal accept the same
* `Conflict.place`: the place of a conflict in the order of the loops

## Main results

* `Prediction.mem_conflictsOf`, `Prediction.pairwise_conflictsOf`: what is listed for one
  nonterminal, and in which order
* `Compiled.Coherent.mem_conflicts`, `pairwise_conflicts`: the same for all of them
* `Compiled.conflicts_exact`: the list, its order, and what is chosen
-/

namespace PredictiveParsing

/-! ## What alternatives accept -/

namespace Clash

/-- **An alternative accepts a terminal** if a sequence that begins with it is derived from the
body, and the empty text if that is derived. -/
def AcceptedBy (g : Grammar) (p : Nat) : Clash → Prop
  | terminal t => ∃ γ, g.Derives (g.body p) (.terminal t :: γ)
  | epsilon => g.Derives (g.body p) []

/-- A set holds a terminal, or the mark for the empty text. -/
def HeldBy (s : LookaheadSet) : Clash → Prop
  | terminal t => t ∈ s.terminals
  | epsilon => s.hasEpsilon = true

/-- The number that stands for a clash in sets for some number of terminals: the mark for the
empty text is behind all terminals. -/
def slot (size : Nat) : Clash → Nat
  | terminal t => t
  | epsilon => size + 1

end Clash

namespace LookaheadSet

variable {s t : LookaheadSet}

/-- The terminals of a set are listed in order. -/
theorem pairwise_terminals (s : LookaheadSet) : s.terminals.Pairwise (· < ·) :=
  s.slots.increasing.sublist (List.takeWhile_sublist _)

/-- The common members of two sets are held by both. -/
theorem heldBy_inter (hsize : s.size = t.size) {clash : Clash} :
    clash.HeldBy (s.inter t) ↔ clash.HeldBy s ∧ clash.HeldBy t := by
  cases clash with
  | terminal u =>
    simp only [Clash.HeldBy, mem_terminals, mem_slots_inter, size_inter, hsize]
    tauto
  | epsilon => simp only [Clash.HeldBy, hasEpsilon_iff, mem_slots_inter, size_inter, hsize]

end LookaheadSet

/-! ## The conflicts of one nonterminal -/

namespace Prediction

variable {first : Nat → LookaheadSet} {nt p q size : Nat} {alternatives : List Nat} {k : Conflict}

theorem mem_clashes (hsize : (first p).size = (first q).size) :
    k ∈ clashes first nt p q ↔ k.nonterminal = nt ∧ k.chosen = p ∧ k.shadowed = q ∧
      k.clash.HeldBy (first p) ∧ k.clash.HeldBy (first q) := by
  rw [← LookaheadSet.heldBy_inter hsize, clashes, List.mem_append, List.mem_map]
  constructor
  · rintro (⟨t, ht, rfl⟩ | hk)
    · exact ⟨rfl, rfl, rfl, ht⟩
    · split at hk
      · rename_i hepsilon
        obtain rfl := List.mem_singleton.mp hk
        exact ⟨rfl, rfl, rfl, hepsilon⟩
      · cases hk
  · obtain ⟨_, clash, _, _⟩ := k
    rintro ⟨rfl, rfl, rfl, hheld⟩
    cases clash with
    | terminal t => exact .inl ⟨t, hheld, rfl⟩
    | epsilon =>
      rw [Clash.HeldBy] at hheld
      simp [hheld]

/-- What two alternatives clash on is listed in order, the empty text last. -/
theorem pairwise_clashes (hsize : (first p).size = size) : (clashes first nt p q).Pairwise
    fun k k' => k.clash.slot size < k'.clash.slot size := by
  refine List.pairwise_append.mpr ⟨?_, ?_, ?_⟩
  · exact List.pairwise_map.mpr (LookaheadSet.pairwise_terminals _)
  · split
    · exact List.pairwise_singleton _ _
    · exact .nil
  · intro k hk k' hk'
    obtain ⟨t, ht, rfl⟩ := List.mem_map.mp hk
    have hlt := (LookaheadSet.mem_terminals.mp ht).2
    rw [LookaheadSet.size_inter, hsize] at hlt
    split at hk'
    · obtain rfl := List.mem_singleton.mp hk'
      exact Nat.lt_succ_of_lt hlt
    · cases hk'

/-- **A conflict of a nonterminal** is listed for an alternative and a later one that accept the
same. -/
theorem mem_conflictsOf (hsize : ∀ p ∈ alternatives, (first p).size = size)
    (hincreasing : alternatives.Pairwise (· < ·)) : k ∈ conflictsOf first nt alternatives ↔
      k.nonterminal = nt ∧ (k.chosen ∈ alternatives ∧ k.shadowed ∈ alternatives ∧
        k.chosen < k.shadowed) ∧
      k.clash.HeldBy (first k.chosen) ∧ k.clash.HeldBy (first k.shadowed) := by
  induction alternatives with
  | nil => simp [conflictsOf]
  | cons p later ih =>
    obtain ⟨hp, hlater⟩ := List.pairwise_cons.mp hincreasing
    obtain ⟨hsizep, hsizes⟩ := List.forall_mem_cons.mp hsize
    rw [conflictsOf, List.mem_append, ih hsizes hlater, List.mem_flatMap]
    constructor
    · rintro (⟨q, hq, hk⟩ | ⟨hnt, ⟨hchosen, hshadowed, hlt⟩, hheld⟩)
      · obtain ⟨hnt, rfl, rfl, hheld⟩ := (mem_clashes (hsizep.trans (hsizes q hq).symm)).mp hk
        exact ⟨hnt, ⟨List.mem_cons_self, List.mem_cons_of_mem _ hq, hp _ hq⟩, hheld⟩
      · exact ⟨hnt, ⟨List.mem_cons_of_mem _ hchosen, List.mem_cons_of_mem _ hshadowed, hlt⟩, hheld⟩
    · rintro ⟨hnt, ⟨hchosen, hshadowed, hlt⟩, hheld⟩
      rcases List.mem_cons.mp hshadowed with hshadowed | hshadowed
      · rcases List.mem_cons.mp hchosen with hchosen | hchosen
        · omega
        · have := hp _ hchosen
          omega
      · rcases List.mem_cons.mp hchosen with hchosen | hchosen
        · left
          refine ⟨k.shadowed, hshadowed, (mem_clashes ?_).mpr ⟨hnt, hchosen, rfl, ?_⟩⟩
          · exact hsizep.trans (hsizes _ hshadowed).symm
          · exact hchosen ▸ hheld
        · exact .inr ⟨hnt, ⟨hchosen, hshadowed, hlt⟩, hheld⟩

/-- **The conflicts of a nonterminal are listed in order** of the alternatives that are taken, then
of those that are shadowed, then of what both accept. -/
theorem pairwise_conflictsOf (hsize : ∀ p ∈ alternatives, (first p).size = size)
    (hincreasing : alternatives.Pairwise (· < ·)) {rank : Nat → Nat}
    (hrank : alternatives.Pairwise fun p q => rank p < rank q) :
    (conflictsOf first nt alternatives).Pairwise fun k k' =>
      toLex (rank k.chosen, toLex (rank k.shadowed, k.clash.slot size)) <
        toLex (rank k'.chosen, toLex (rank k'.shadowed, k'.clash.slot size)) := by
  simp only [Prod.Lex.toLex_lt_toLex]
  induction alternatives with
  | nil => exact .nil
  | cons p later ih =>
    obtain ⟨-, hlater⟩ := List.pairwise_cons.mp hincreasing
    obtain ⟨hp, hranks⟩ := List.pairwise_cons.mp hrank
    obtain ⟨hsizep, hsizes⟩ := List.forall_mem_cons.mp hsize
    have hclashes {q : Nat} (hq : q ∈ later) {k : Conflict} (hk : k ∈ clashes first nt p q) :
        k.chosen = p ∧ k.shadowed = q := by
      have hmem := (mem_clashes (hsizep.trans (hsizes q hq).symm)).mp hk
      exact ⟨hmem.2.1, hmem.2.2.1⟩
    refine List.pairwise_append.mpr
      ⟨List.pairwise_flatMap.mpr ⟨?_, ?_⟩, ih hsizes hlater hranks, ?_⟩
    · intro q hq
      refine (pairwise_clashes hsizep).imp_of_mem fun {k k'} hk hk' hslot => ?_
      rw [(hclashes hq hk).1, (hclashes hq hk').1, (hclashes hq hk).2, (hclashes hq hk').2]
      exact .inr ⟨rfl, .inr ⟨rfl, hslot⟩⟩
    · refine hranks.imp_of_mem fun {q q'} hq hq' hlt k hk k' hk' => ?_
      rw [(hclashes hq hk).1, (hclashes hq' hk').1, (hclashes hq hk).2, (hclashes hq' hk').2]
      exact .inr ⟨rfl, .inl hlt⟩
    · intro k hk k' hk'
      obtain ⟨q, hq, hk⟩ := List.mem_flatMap.mp hk
      left
      rw [(hclashes hq hk).1]
      exact hp _ ((mem_conflictsOf hsizes hlater).mp hk').2.1.1

end Prediction

/-! ## Places in a list -/

/-- In a list without repetitions the places of the members increase. -/
theorem pairwise_idxOf {l : List Nat} (h : l.Nodup) :
    l.Pairwise fun a b => l.idxOf a < l.idxOf b := by
  rw [List.pairwise_iff_getElem]
  intro i j hi hj hij
  rwa [h.idxOf_getElem i hi, h.idxOf_getElem j hj]

/-- In an increasing list a smaller member has the earlier place. -/
theorem idxOf_lt_idxOf_iff {l : List Nat} (h : l.Pairwise (· < ·)) {a b : Nat} (ha : a ∈ l)
    (hb : b ∈ l) : l.idxOf a < l.idxOf b ↔ a < b := by
  rw [List.pairwise_iff_getElem] at h
  have hia := List.idxOf_lt_length_of_mem ha
  have hib := List.idxOf_lt_length_of_mem hb
  have hga : l[l.idxOf a] = a := List.getElem_idxOf hia
  have hgb : l[l.idxOf b] = b := List.getElem_idxOf hib
  constructor
  · intro hlt
    have hab := h _ _ hia hib hlt
    rwa [hga, hgb] at hab
  · intro hlt
    by_contra hle
    rcases Nat.lt_or_eq_of_le (Nat.le_of_not_lt hle) with hlt' | heq
    · have hba := h _ _ hib hia hlt'
      rw [hga, hgb] at hba
      omega
    · have hba : b = a := by rw [← hga, ← hgb]; simp only [heq]
      omega

/-- What is found first in an increasing list is the least member that passes the test. -/
theorem le_of_find?_eq_some {l : List Nat} (h : l.Pairwise (· < ·)) {test : Nat → Bool} {q p : Nat}
    (hfind : l.find? test = some q) (hp : p ∈ l) (htest : test p = true) : q ≤ p := by
  obtain ⟨-, before, after, rfl, hbefore⟩ := List.find?_eq_some_iff_append.mp hfind
  rcases List.mem_append.mp hp with hp | hp
  · have hfails := hbefore p hp
    simp [htest] at hfails
  · rcases List.mem_cons.mp hp with rfl | hp
    · exact Nat.le_refl _
    · have hq := (List.pairwise_append.mp h).2.1
      exact Nat.le_of_lt ((List.pairwise_cons.mp hq).1 p hp)

/-! ## All conflicts -/

namespace Conflict

/-- **A conflict is real** if its nonterminal occurs in a sentential form, and if two of its
alternatives, one before the other, accept the same. -/
structure IsReal (g : Grammar) (k : Conflict) : Prop where
  occurs : g.Occurs (.nonterminal k.nonterminal)
  mem_chosen : k.chosen ∈ g.alternatives k.nonterminal
  mem_shadowed : k.shadowed ∈ g.alternatives k.nonterminal
  before : (g.alternatives k.nonterminal).idxOf k.chosen <
    (g.alternatives k.nonterminal).idxOf k.shadowed
  chosen : k.clash.AcceptedBy g k.chosen
  shadowed : k.clash.AcceptedBy g k.shadowed

/-- **The place of a conflict**: the place of the nonterminal in the walk, those of the two
alternatives among all alternatives, and the number of what both accept. -/
def place (c : Compiled) (k : Conflict) : Nat ×ₗ Nat ×ₗ Nat ×ₗ Nat :=
  toLex (c.analysis.reachable.idxOf k.nonterminal,
    toLex ((c.grammar.alternatives k.nonterminal).idxOf k.chosen,
      toLex ((c.grammar.alternatives k.nonterminal).idxOf k.shadowed,
        k.clash.slot c.grammar.terminals.size)))

end Conflict

namespace Compiled.Coherent

variable {c : Compiled} (hc : c.Coherent) {nt p : Nat} {k : Conflict}

include hc

/-- The set of an alternative holds what its body can begin with. -/
theorem mem_production_iff (hp : p ∈ c.grammar.alternatives nt) {x : Nat} :
    x ∈ (c.analysis.first.production p).slots ↔ c.grammar.CanBegin (c.grammar.body p) x := by
  rw [hc.production_eq hp]
  exact FirstSets.mem_bodyFirst_iff hc.wellFormed hc.firstSets
    fun _ hx => hc.wellFormed.hasSymbol_of_mem_body hp hx

/-- **What the set of an alternative holds is what the alternative accepts.** -/
theorem heldBy_production (hp : p ∈ c.grammar.alternatives nt) {clash : Clash} :
    clash.HeldBy (c.analysis.first.production p) ↔ clash.AcceptedBy c.grammar p := by
  have hsize := hc.size_production hp
  cases clash with
  | terminal t =>
    rw [Clash.HeldBy, Clash.AcceptedBy, LookaheadSet.mem_terminals, hc.mem_production_iff hp, hsize]
    constructor
    · rintro ⟨hbegins, hlt⟩
      exact (Grammar.CanBegin.terminal_iff hlt).mp hbegins
    · rintro ⟨γ, hderives⟩
      have hlt : c.grammar.HasSymbol (.terminal t) :=
        (hderives.hasSymbol hc.wellFormed List.mem_cons_self).elim id
          (hc.wellFormed.hasSymbol_of_mem_body hp)
      exact ⟨.terminal hlt hderives, hlt⟩
  | epsilon =>
    rw [Clash.HeldBy, Clash.AcceptedBy, LookaheadSet.hasEpsilon_iff, hc.mem_production_iff hp,
      hsize]
    exact Grammar.CanBegin.epsilon_iff

/-- The test of a choice for an alternative is whether it accepts the terminal. -/
theorem hasTerminal_withoutEpsilon (hp : p ∈ c.grammar.alternatives nt) {t : Nat} :
    (c.analysis.first.production p).withoutEpsilon.hasTerminal t = true ↔
      (Clash.terminal t).AcceptedBy c.grammar p := by
  have hsize := hc.size_production hp
  rw [← hc.heldBy_production hp, Clash.HeldBy, LookaheadSet.mem_terminals,
    LookaheadSet.hasTerminal_iff, LookaheadSet.mem_slots_withoutEpsilon, hsize]
  constructor
  · rintro ⟨hmem, hne⟩
    exact ⟨hmem, ((hc.mem_production_iff hp).mp hmem).lt_or_eq.resolve_right hne⟩
  · rintro ⟨hmem, hlt⟩
    exact ⟨hmem, by omega⟩

/-- **The list of conflicts is exact.** -/
theorem mem_conflicts : k ∈ c.prediction.conflicts ↔ k.IsReal c.grammar := by
  have hincreasing := hc.wellFormed.alternatives_increasing k.nonterminal
  rw [hc.prediction, Prediction.ofAnalysis, List.mem_flatMap, hc.reachable]
  constructor
  · rintro ⟨nt, hnt, hk⟩
    obtain ⟨rfl, ⟨hp, hq, hlt⟩, hchosen, hshadowed⟩ := (Prediction.mem_conflictsOf
      (fun _ => hc.size_production) (hc.wellFormed.alternatives_increasing nt)).mp hk
    exact ⟨hc.wellFormed.mem_reachable_iff.mp hnt, hp, hq,
      (idxOf_lt_idxOf_iff hincreasing hp hq).mpr hlt, (hc.heldBy_production hp).mp hchosen,
      (hc.heldBy_production hq).mp hshadowed⟩
  · intro hk
    have hlt := (idxOf_lt_idxOf_iff hincreasing hk.mem_chosen hk.mem_shadowed).mp hk.before
    refine ⟨k.nonterminal, hc.wellFormed.mem_reachable_iff.mpr hk.occurs, ?_⟩
    apply (Prediction.mem_conflictsOf (fun _ => hc.size_production) hincreasing).mpr
    exact ⟨rfl, ⟨hk.mem_chosen, hk.mem_shadowed, hlt⟩,
      (hc.heldBy_production hk.mem_chosen).mpr hk.chosen,
      (hc.heldBy_production hk.mem_shadowed).mpr hk.shadowed⟩

/-- **Conflicts are listed in the order of their places.** -/
theorem pairwise_conflicts :
    c.prediction.conflicts.Pairwise fun k k' => k.place c < k'.place c := by
  have hnodup : c.analysis.reachable.Nodup := by
    rw [hc.reachable]
    exact hc.wellFormed.nodup_reachable
  have hnonterminal {nt : Nat} {k : Conflict} (hk : k ∈ Prediction.conflictsOf
      c.analysis.first.production nt (c.grammar.alternatives nt)) : k.nonterminal = nt :=
    ((Prediction.mem_conflictsOf (fun _ => hc.size_production)
      (hc.wellFormed.alternatives_increasing nt)).mp hk).1
  rw [hc.prediction, Prediction.ofAnalysis]
  refine List.pairwise_flatMap.mpr ⟨?_, ?_⟩
  · intro nt _
    have hincreasing := hc.wellFormed.alternatives_increasing nt
    have hplaces := pairwise_idxOf (hincreasing.imp Nat.ne_of_lt)
    apply (Prediction.pairwise_conflictsOf (fun _ => hc.size_production) hincreasing
      hplaces).imp_of_mem
    intro k k' hk hk' hlt
    rw [Conflict.place, Conflict.place, Prod.Lex.toLex_lt_toLex, hnonterminal hk, hnonterminal hk']
    exact .inr ⟨rfl, hlt⟩
  · refine (pairwise_idxOf hnodup).imp fun {nt nt'} hlt k hk k' hk' => ?_
    rw [Conflict.place, Conflict.place, Prod.Lex.toLex_lt_toLex, hnonterminal hk, hnonterminal hk']
    exact .inl hlt

/-! ## Conflicts and choices -/

/-- An alternative that is taken before a terminal is the first that accepts it. -/
theorem select_eq_alternative {t : Nat} :
    (c.prediction.choice nt).select (some t) = .alternative p ↔
      p ∈ c.grammar.alternatives nt ∧ (Clash.terminal t).AcceptedBy c.grammar p ∧
        ∀ q ∈ c.grammar.alternatives nt, (Clash.terminal t).AcceptedBy c.grammar q → p ≤ q := by
  rw [hc.choice_eq, Choice.select_eq_alternative]
  simp only [Option.some.injEq, exists_eq_left']
  have hincreasing := hc.wellFormed.alternatives_increasing nt
  constructor
  · intro hfind
    have hp := List.mem_of_find?_eq_some hfind
    have htest := List.find?_some hfind
    refine ⟨hp, (hc.hasTerminal_withoutEpsilon hp).mp htest, fun q hq haccepted => ?_⟩
    have htest' := (hc.hasTerminal_withoutEpsilon hq).mpr haccepted
    exact le_of_find?_eq_some hincreasing hfind hq htest'
  · rintro ⟨hp, haccepted, hleast⟩
    have htest := (hc.hasTerminal_withoutEpsilon hp).mpr haccepted
    have hsome : ((c.grammar.alternatives nt).find? fun q =>
        (c.analysis.first.production q).withoutEpsilon.hasTerminal t).isSome :=
      List.find?_isSome.mpr ⟨p, hp, htest⟩
    obtain ⟨q, hfind⟩ := Option.isSome_iff_exists.mp hsome
    have hle := le_of_find?_eq_some hincreasing hfind hp htest
    have hq := List.mem_of_find?_eq_some hfind
    have hfound := List.find?_some hfind
    have hge := hleast q hq ((hc.hasTerminal_withoutEpsilon hq).mp hfound)
    rwa [Nat.le_antisymm hge hle]

/-- Two alternatives that accept the same are in conflict, one way or the other. -/
theorem exists_conflict (hnt : c.grammar.Occurs (.nonterminal nt)) {q : Nat}
    (hp : p ∈ c.grammar.alternatives nt) (hq : q ∈ c.grammar.alternatives nt) (hne : p ≠ q)
    {clash : Clash} (hclash : clash.AcceptedBy c.grammar p)
    (hclash' : clash.AcceptedBy c.grammar q) :
    ⟨nt, clash, p, q⟩ ∈ c.prediction.conflicts ∨ ⟨nt, clash, q, p⟩ ∈ c.prediction.conflicts := by
  have hincreasing := hc.wellFormed.alternatives_increasing nt
  rcases Nat.lt_or_gt_of_ne hne with hlt | hlt
  · left
    apply hc.mem_conflicts.mpr
    exact ⟨hnt, hp, hq, (idxOf_lt_idxOf_iff hincreasing hp hq).mpr hlt, hclash, hclash'⟩
  · right
    apply hc.mem_conflicts.mpr
    exact ⟨hnt, hq, hp, (idxOf_lt_idxOf_iff hincreasing hq hp).mpr hlt, hclash', hclash⟩

/-- A shadowed alternative comes later than one that accepts the same. -/
theorem chosen_lt_shadowed (hk : k ∈ c.prediction.conflicts) : k.chosen < k.shadowed := by
  have hreal := hc.mem_conflicts.mp hk
  exact (idxOf_lt_idxOf_iff (hc.wellFormed.alternatives_increasing k.nonterminal) hreal.mem_chosen
    hreal.mem_shadowed).mp hreal.before

/-- **A shadowed alternative is never taken** before the terminal. -/
theorem select_ne_of_conflict {q t : Nat}
    (hk : ⟨nt, .terminal t, p, q⟩ ∈ c.prediction.conflicts) :
    (c.prediction.choice nt).select (some t) ≠ .alternative q := by
  intro hselect
  have hreal := hc.mem_conflicts.mp hk
  have hle := (hc.select_eq_alternative.mp hselect).2.2 p hreal.mem_chosen hreal.chosen
  exact Nat.not_lt_of_le hle (hc.chosen_lt_shadowed hk)

/-- **Nor is one that is shadowed on the empty text** taken to vanish. -/
theorem epsilon_ne_of_conflict {q : Nat} (hk : ⟨nt, .epsilon, p, q⟩ ∈ c.prediction.conflicts) :
    (c.prediction.choice nt).epsilon ≠ some q := by
  intro hepsilon
  have hreal := hc.mem_conflicts.mp hk
  rw [hc.choice_eq] at hepsilon
  have htest : (c.analysis.first.production p).hasEpsilon = true :=
    (hc.heldBy_production hreal.mem_chosen).mpr hreal.chosen
  have hle := le_of_find?_eq_some (hc.wellFormed.alternatives_increasing nt) hepsilon
    hreal.mem_chosen htest
  exact Nat.not_lt_of_le hle (hc.chosen_lt_shadowed hk)

/-- **Without a conflict the only alternative is taken**, and an alternative is taken only if it is
the only one. -/
theorem select_eq_alternative_iff_unique (hnt : c.grammar.Occurs (.nonterminal nt)) {t : Nat}
    (hnone : ∀ p q, ⟨nt, .terminal t, p, q⟩ ∉ c.prediction.conflicts) :
    (c.prediction.choice nt).select (some t) = .alternative p ↔
      p ∈ c.grammar.alternatives nt ∧ (Clash.terminal t).AcceptedBy c.grammar p ∧
        ∀ q ∈ c.grammar.alternatives nt, (Clash.terminal t).AcceptedBy c.grammar q → q = p := by
  rw [hc.select_eq_alternative]
  refine and_congr_right fun hp => and_congr_right fun haccepted => ?_
  constructor
  · intro _ q hq haccepted'
    by_contra hne
    rcases hc.exists_conflict hnt hp hq (Ne.symm hne) haccepted haccepted' with hk | hk
    · exact hnone p q hk
    · exact hnone q p hk
  · intro hunique q hq haccepted'
    exact Nat.le_of_eq (hunique q hq haccepted').symm

end Compiled.Coherent

namespace Compiled

/-- **Conflicts are exact.** The list holds the conflicts that are real, each once, in the order of
their places. A shadowed alternative is not taken before the terminal, and not taken to vanish; and
where no conflict is listed for a terminal, an alternative is taken before it if and only if it is
the only one that accepts it. -/
theorem conflicts_exact {engine : PatternEngine} {d : Declarations} {g : Grammar} {c : Compiled}
    (hbuild : d.build engine = .ok g) (hcompile : g.compile = .ok c) :
    (∀ k, k ∈ c.prediction.conflicts ↔ k.IsReal g) ∧
    c.prediction.conflicts.Nodup ∧
    (c.prediction.conflicts.Pairwise fun k k' => k.place c < k'.place c) ∧
    (∀ nt t p q, ⟨nt, .terminal t, p, q⟩ ∈ c.prediction.conflicts →
      (c.prediction.choice nt).select (some t) ≠ .alternative q) ∧
    (∀ nt p q, ⟨nt, .epsilon, p, q⟩ ∈ c.prediction.conflicts →
      (c.prediction.choice nt).epsilon ≠ some q) ∧
    ∀ nt, g.Occurs (.nonterminal nt) → ∀ t,
      (∀ p q, ⟨nt, .terminal t, p, q⟩ ∉ c.prediction.conflicts) → ∀ p,
      ((c.prediction.choice nt).select (some t) = .alternative p ↔
        p ∈ g.alternatives nt ∧ (Clash.terminal t).AcceptedBy g p ∧
          ∀ q ∈ g.alternatives nt, (Clash.terminal t).AcceptedBy g q → q = p) := by
  obtain ⟨rfl, hc⟩ := coherent hbuild hcompile
  refine ⟨fun k => hc.mem_conflicts, ?_, hc.pairwise_conflicts, ?_, ?_, ?_⟩
  · refine hc.pairwise_conflicts.imp fun {k k'} hlt heq => ?_
    rw [heq] at hlt
    exact lt_irrefl _ hlt
  · intro nt t p q hk
    exact hc.select_ne_of_conflict hk
  · intro nt p q hk
    exact hc.epsilon_ne_of_conflict hk
  · intro nt hnt t hnone p
    exact hc.select_eq_alternative_iff_unique hnt hnone

/-- Two alternatives begin with `a`, and two can vanish; only one begins with `b`. -/
theorem conflicts_exact_overlaps : ∃ g c, Samples.overlaps.build Pattern.engine = .ok g ∧
    g.compile = .ok c ∧
    c.prediction.conflicts = [⟨0, .terminal 0, 0, 2⟩, ⟨0, .epsilon, 1, 3⟩] ∧
    Conflict.IsReal g ⟨0, .terminal 0, 0, 2⟩ ∧ Conflict.IsReal g ⟨0, .epsilon, 1, 3⟩ ∧
    (c.prediction.choice 0).select (some 0) ≠ .alternative 2 ∧
    (c.prediction.choice 0).epsilon ≠ some 3 ∧
    (c.prediction.choice 0).select (some 1) = .alternative 1 ∧
    ∀ q ∈ g.alternatives 0, (Clash.terminal 1).AcceptedBy g q → q = 1 := by
  have hrun : ((Samples.overlaps.build Pattern.engine).toOption.bind fun g =>
      g.compile.toOption.map fun c => (c.prediction.conflicts, decide (0 ∈ g.reachable),
        (c.prediction.choice 0).select (some 1))) =
      some ([⟨0, .terminal 0, 0, 2⟩, ⟨0, .epsilon, 1, 3⟩], true, .alternative 1) := by
    decide +kernel
  simp only [Option.bind_eq_some_iff, Option.map_eq_some_iff, toOption_eq_some, Prod.mk.injEq,
    decide_eq_true_eq] at hrun
  obtain ⟨g, hbuild, c, hcompile, hconflicts, hreachable, hselect⟩ := hrun
  have hoccurs := (Declarations.wellFormed_of_build hbuild).mem_reachable_iff.mp hreachable
  obtain ⟨hreal, -, -, hselects, hepsilons, hunique⟩ := conflicts_exact hbuild hcompile
  refine ⟨g, c, hbuild, hcompile, hconflicts, (hreal _).mp ?_, (hreal _).mp ?_, hselects 0 0 0 2 ?_,
    hepsilons 0 1 3 ?_, hselect, ((hunique 0 hoccurs 1 ?_ 1).mp hselect).2.2⟩
  all_goals simp [hconflicts]

end Compiled

end PredictiveParsing
