import PredictiveParsing.Pattern.Engine
import PredictiveParsing.Proofs.Lookup.Follow
import PredictiveParsing.Samples

/-!
# The number of rounds

FOLLOW is found in rounds until one of them changes nothing. No bound is set to the rounds: they
come to an end because each of them but the last adds a member to some set, and there is room for
no more than the terminals and the end of the input in the set of each symbol. So the bound with
which the rounds are computed is never reached, even if symbols end each other in a circle and
whatever the symbols can begin with.

## Main definitions

* `Adjacency.circle`: two nonterminals that end each other

## Main results

* `Grammar.sweep_unchanged_iff`: a round reports no change just if it alters no set
* `Grammar.Settles.rounds_add_weight_le`: the members that are missing bound the rounds
* `Grammar.followSets_settles`: FOLLOW is found in a known number of rounds
-/

namespace PredictiveParsing

namespace Grammar

open FollowTable

variable {g : Grammar} {count : Nat} {pairs : List (Nat × Nat)} {table final final' : FollowTable}
  {rounds rounds' : Nat}

/-- **A round reports no change just if it alters no set.** -/
theorem sweep_unchanged_iff (hlength : table.size = count)
    (hpairs : ∀ pair ∈ pairs, pair.2 < count) :
    (g.sweep pairs table).2 = false ↔ (g.sweep pairs table).1 = table := by
  refine ⟨fun h => (sweep_unchanged h).1, fun h => Bool.eq_false_iff.mpr fun hchanged => ?_⟩
  have hlt := sweep_changed hlength hpairs hchanged
  rw [h] at hlt
  exact Nat.lt_irrefl _ hlt

namespace Settles

/-- There is one way only to make the rounds. -/
theorem unique (h : g.Settles pairs table final rounds)
    (h' : g.Settles pairs table final' rounds') :
    final = final' ∧ rounds = rounds' := by
  induction h generalizing rounds' with
  | last h =>
    cases h' with
    | last => exact ⟨rfl, rfl⟩
    | next h'' => rw [h] at h''; cases h''
  | next h hrest ih =>
    cases h' with
    | last h'' => rw [h] at h''; cases h''
    | next _ hrest' =>
      obtain ⟨rfl, rfl⟩ := ih hrest'
      exact ⟨rfl, rfl⟩

/-- **The members that are missing bound the rounds**, since each round but the last adds one. -/
theorem rounds_add_weight_le (h : g.Settles pairs table final rounds)
    (hfits : table.Fits g.terminals.size count) (hpairs : ∀ pair ∈ pairs, pair.2 < count) :
    rounds + table.weight g.terminals.size count ≤ count * (g.terminals.size + 1) + 1 := by
  induction h with
  | last =>
    have hle := hfits.weight_le
    omega
  | next h hrest ih =>
    have hlt := sweep_changed hfits.length hpairs h
    have hrounds := ih (fits_sweep hfits)
    omega

end Settles

/-- **FOLLOW is found in a known number of rounds**, for any neighbours and ends among the symbols
and whatever the symbols can begin with. It is what rounds lead to that are made until one of them
changes nothing. That comes at the latest when there have been as many rounds as there are pairs of
a symbol and a terminal or the end of the input, and one more. A round reports no change just if it
alters no set. -/
theorem followSets_settles {engine : PatternEngine} {d : Declarations}
    (hbuild : d.build engine = .ok g) {adjacency : Adjacency} (hbounded : adjacency.Bounded g)
    {first : Symbol → LookaheadSet}
    (hfirst : ∀ x, g.HasSymbol x → (first x).size = g.terminals.size ∧
      ∀ slot ∈ (first x).slots, slot ≤ g.terminals.size + 1) :
    g.Settles (g.inheritances adjacency) (g.followStart adjacency first)
      (g.followSets adjacency first).1 (g.followSets adjacency first).2 ∧
    (∀ final rounds, g.Settles (g.inheritances adjacency) (g.followStart adjacency first)
      final rounds → g.followSets adjacency first = (final, rounds) ∧
        rounds ≤ g.symbolCount * (g.terminals.size + 1) + 1) ∧
    ∀ table : FollowTable, table.size = g.symbolCount →
      ((g.sweep (g.inheritances adjacency) table).2 = false ↔
        (g.sweep (g.inheritances adjacency) table).1 = table) := by
  have wf := Declarations.wellFormed_of_build hbuild
  have hfits : (g.followStart adjacency first).Fits g.terminals.size g.symbolCount :=
    fits_followStart wf fun x f hf => hfirst _ (hasSymbol_symbolOfId (hbounded.followers x f hf))
  have hpairs : ∀ pair ∈ g.inheritances adjacency, pair.2 < g.symbolCount :=
    target_lt_of_mem_inheritances
  have hsettles := settles_followSets hfits
  refine ⟨hsettles, fun final rounds h => ⟨?_, ?_⟩,
    fun table hlength => sweep_unchanged_iff hlength hpairs⟩
  · obtain ⟨hfinal, hrounds⟩ := hsettles.unique h
    exact Prod.ext hfinal hrounds
  · have hrounds := h.rounds_add_weight_le hfits hpairs
    omega

end Grammar

/-- The nonterminals `0` and `1` end each other, and a terminal follows the first of them. -/
def Adjacency.circle (g : Grammar) : Adjacency :=
  (((Adjacency.empty g.symbolCount).addFollower (g.symbolId (.nonterminal 0))
    (g.symbolId (.terminal 0))).addEnd (g.symbolId (.nonterminal 1)) 0).addEnd
    (g.symbolId (.nonterminal 0)) 1

/-- Even with the end of the input in FIRST the two sets are equal after one round, and the second
one changes nothing. -/
theorem Grammar.followSets_settles_circle : ∃ g, Samples.nested.build Pattern.engine = .ok g ∧
    (Adjacency.circle g).Bounded g ∧ g.emptySet.withEnd.size = g.terminals.size ∧
    (∀ slot ∈ g.emptySet.withEnd.slots, slot ≤ g.terminals.size + 1) ∧
    ∃ final, g.Settles (g.inheritances (Adjacency.circle g))
      (g.followStart (Adjacency.circle g) fun _ => g.emptySet.withEnd) final 2 := by
  have hrun : (Samples.nested.build Pattern.engine).toOption.map (fun g =>
      decide (2 = g.nonterminals.size ∧ 0 < g.terminals.size ∧
        (g.followSets (Adjacency.circle g) fun _ => g.emptySet.withEnd).2 = 2)) = some true := by
    decide +kernel
  simp only [Option.map_eq_some_iff, toOption_eq_some, decide_eq_true_eq] at hrun
  obtain ⟨g, hbuild, hnonterminals, hterminals, hrounds⟩ := hrun
  have hzero : g.HasSymbol (.nonterminal 0) := by simp [Grammar.HasSymbol, ← hnonterminals]
  have hone : g.HasSymbol (.nonterminal 1) := by simp [Grammar.HasSymbol, ← hnonterminals]
  have hterminal : g.HasSymbol (.terminal 0) := hterminals
  have hfollower := ((Adjacency.Bounded.empty g).addFollower hzero hterminal).2
  have hbounded : (Adjacency.circle g).Bounded g :=
    ((hfollower.addEnd hone hzero).2.addEnd hzero hone).2
  have hsize : g.emptySet.withEnd.size = g.terminals.size := rfl
  have hle : ∀ slot ∈ g.emptySet.withEnd.slots, slot ≤ g.terminals.size + 1 := by
    simp [Grammar.emptySet, LookaheadSet.empty, LookaheadSet.withEnd]
  obtain ⟨hsettles, -, -⟩ := followSets_settles hbuild hbounded fun _ _ => ⟨hsize, hle⟩
  exact ⟨g, hbuild, hbounded, hsize, hle, _, hrounds ▸ hsettles⟩

end PredictiveParsing
