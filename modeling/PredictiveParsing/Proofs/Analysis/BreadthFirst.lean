import Mathlib.Data.List.Induction
import Mathlib.Order.Lattice.Nat
import PredictiveParsing.Analysis.Basic
import PredictiveParsing.Pattern.Engine
import PredictiveParsing.Proofs.Analysis.Reachable
import PredictiveParsing.Proofs.Grammar.Build
import PredictiveParsing.Samples

/-!
# The walk is one in breadth

A nonterminal is met from the first one of the walk whose alternatives mention it, and the
nonterminals that are met from the same one are met in the order in which its alternatives first
mention them. So the walk lists the start symbol, and then for each of its members in turn those
that are met from it.

The queue holds at most two levels: when a nonterminal is taken out, everything at its distance
from the start symbol has been met, and what is in the queue is at its distance or one further. So
the walk lists nonterminals in the order of their distances.

## Main definitions

* `Grammar.Chain`, `Grammar.distance`: chains of productions from the start symbol, and the length
  of a shortest one
* `Grammar.discoverer?`: the nonterminal from which another one is met first
* `Grammar.Walking.Levels`: what a step of the walk preserves of the distances

## Main results

* `Grammar.Walking.run`: what each step preserves holds of the whole walk
* `Grammar.Walking.Levels.step`: one step of the walk
* `Grammar.WellFormed.reachable_eq`: the walk is determined by what is met from each of its members
* `Declarations.reachable_in_breadth`: what is reached, and in which order
-/

namespace PredictiveParsing

/-! ## Lists without their repetitions -/

/-- One more member changes a list without its repetitions only if it is new. -/
theorem eraseDups_append_singleton (l : List Nat) (a : Nat) :
    (l ++ [a]).eraseDups = l.eraseDups ++ if a ∈ l then [] else [a] := by
  rw [List.eraseDups_append]
  by_cases ha : a ∈ l <;> simp [List.removeAll, ha, List.eraseDups_cons]

/-- To remove repetitions and to select members can be done in either order. -/
theorem eraseDups_filter (p : Nat → Bool) (l : List Nat) :
    (l.filter p).eraseDups = l.eraseDups.filter p := by
  induction l using List.reverseRecOn with
  | nil => rfl
  | append_singleton l a ih =>
    rw [List.filter_append, eraseDups_append_singleton, List.filter_append, ← ih]
    by_cases hp : p a = true
    · rw [List.filter_singleton, hp, cond_true, eraseDups_append_singleton]
      by_cases ha : a ∈ l <;> simp [ha, hp]
    · by_cases ha : a ∈ l <;> simp [ha, hp]

/-- **Without repetitions a list has its members in the order of their first occurrences.** -/
theorem pairwise_eraseDups (l : List Nat) :
    l.eraseDups.Pairwise fun a b => l.idxOf a < l.idxOf b := by
  induction l using List.reverseRecOn with
  | nil => exact .nil
  | append_singleton l a ih =>
    have hfirst : l.eraseDups.Pairwise fun b c => (l ++ [a]).idxOf b < (l ++ [a]).idxOf c := by
      refine ih.imp_of_mem fun {b c} hb hc hlt => ?_
      rwa [List.idxOf_append_of_mem (List.mem_eraseDups.mp hb),
        List.idxOf_append_of_mem (List.mem_eraseDups.mp hc)]
    rw [eraseDups_append_singleton]
    split
    · rwa [List.append_nil]
    · rename_i ha
      refine List.pairwise_append.mpr ⟨hfirst, List.pairwise_singleton _ _, ?_⟩
      intro b hb c hc
      have hb := List.mem_eraseDups.mp hb
      obtain rfl := List.mem_singleton.mp hc
      rw [List.idxOf_append_of_mem hb, List.idxOf_append_of_notMem ha]
      exact Nat.lt_of_lt_of_le (List.idxOf_lt_length_of_mem hb) (Nat.le_add_right _ _)

namespace Grammar

variable {g : Grammar}

/-! ## The run of a walk -/

/-- The nonterminals that are met in a step: the successors that have not been met. -/
def newlyMet (g : Grammar) (met : List Nat) (nt : Nat) : List Nat :=
  ((g.successors nt).filter fun m => !met.contains m).eraseDups

theorem mem_newlyMet {met : List Nat} {nt m : Nat} :
    m ∈ g.newlyMet met nt ↔ m ∈ g.successors nt ∧ m ∉ met := by
  simp [newlyMet]

/-- **What each step of a walk preserves holds of the whole walk**, at the end of which the queue is
empty. -/
theorem Walking.run (wf : g.WellFormed) {P : List Nat → List Nat → Prop}
    (hstep : ∀ visited nt queue, g.Walking visited (nt :: queue) → P visited (nt :: queue) →
      P (visited ++ [nt]) (queue ++ g.newlyMet (visited ++ nt :: queue) nt))
    (hstart : P [] [g.start]) : P g.reachable [] := by
  have hrun (fuel : Nat) {visited queue : List Nat} (h : g.Walking visited queue)
      (hfuel : fuel + visited.length = g.nonterminals.size) (hP : P visited queue) :
      P (g.walk fuel visited queue) [] := by
    induction fuel generalizing visited queue with
    | zero =>
      -- all nonterminals have been visited, so none is left in the queue
      have hlength := h.length_le
      obtain rfl : queue = [] := List.length_eq_zero_iff.mp (by omega)
      exact hP
    | succ fuel ih =>
      cases queue with
      | nil => exact hP
      | cons nt queue => exact ih (h.step wf) (by simp; omega) (hstep visited nt queue h hP)
  exact hrun g.nonterminals.size wf.walking_start (by simp) hstart

/-! ## Distances -/

/-- **A chain of productions** from the start symbol to a nonterminal: the body of each production
mentions the nonterminal that comes next. -/
inductive Chain (g : Grammar) : (length nt : Nat) → Prop
  | start : Chain g 0 g.start
  | step {n nt p m : Nat} (h : Chain g n nt) (hp : p ∈ g.alternatives nt)
      (hm : .nonterminal m ∈ g.body p) : Chain g (n + 1) m

/-- **The length of a shortest chain** of productions from the start symbol to a nonterminal. -/
noncomputable def distance (g : Grammar) (nt : Nat) : Nat := sInf {n | g.Chain n nt}

theorem Chain.distance_le {n nt : Nat} (h : g.Chain n nt) : g.distance nt ≤ n := Nat.sInf_le h

theorem Chain.chain_distance {n nt : Nat} (h : g.Chain n nt) : g.Chain (g.distance nt) nt :=
  Nat.sInf_mem (s := {n | g.Chain n nt}) ⟨n, h⟩

theorem Chain.successor {n nt m : Nat} (h : g.Chain n nt) (hm : m ∈ g.successors nt) :
    g.Chain (n + 1) m := by
  obtain ⟨p, hp, hbody⟩ := mem_successors.mp hm
  exact h.step hp hbody

/-- The last production of a chain belongs to a nonterminal that a shorter chain leads to. -/
theorem Chain.exists_parent {n m : Nat} (h : g.Chain (n + 1) m) :
    ∃ nt, g.Chain n nt ∧ m ∈ g.successors nt := by
  cases h with
  | step h hp hm => exact ⟨_, h, mem_successors.mpr ⟨_, hp, hm⟩⟩

namespace Walking

/-- **What a step of the walk preserves of the distances.** The first nonterminal of the queue
divides the levels: everything that is not further away has been met, and nothing in the queue is
more than one further. -/
structure Levels (g : Grammar) (visited queue : List Nat) : Prop where
  /-- Chains lead to all that has been met. -/
  chain : ∀ nt ∈ visited ++ queue, g.Chain (g.distance nt) nt
  /-- What has been met first is not further away. -/
  sorted : (visited ++ queue).Pairwise fun nt m => g.distance nt ≤ g.distance m
  /-- The queue holds at most two levels. -/
  two_levels : ∀ nt, queue.head? = some nt → ∀ m ∈ queue, g.distance m ≤ g.distance nt + 1
  /-- All that is not further away than the first one in the queue has been met. -/
  met : ∀ nt, queue.head? = some nt → ∀ n m, g.Chain n m → n ≤ g.distance nt → m ∈ visited ++ queue

namespace Levels

theorem start (g : Grammar) : Levels g [] [g.start] := by
  have hzero : g.distance g.start = 0 := Nat.le_zero.mp Chain.start.distance_le
  refine ⟨?_, by simp, ?_, ?_⟩
  · intro nt hnt
    obtain rfl : nt = g.start := by simpa using hnt
    exact Chain.start.chain_distance
  · intro nt _ m hm
    obtain rfl : m = g.start := by simpa using hm
    omega
  · intro nt hnt n m hchain hle
    obtain rfl : g.start = nt := by simpa using hnt
    -- the only chain without a production leads to the start symbol
    obtain rfl : n = 0 := by omega
    cases hchain with
    | start => simp

variable {visited queue : List Nat} {nt : Nat}

/-- What is newly met is one further than the nonterminal from which it is met. -/
theorem distance_newlyMet (h : Levels g visited (nt :: queue)) {m : Nat}
    (hm : m ∈ g.newlyMet (visited ++ nt :: queue) nt) :
    g.Chain (g.distance m) m ∧ g.distance m = g.distance nt + 1 := by
  obtain ⟨hsuccessor, hnot⟩ := mem_newlyMet.mp hm
  have hlonger := (h.chain nt (by simp)).successor hsuccessor
  refine ⟨hlonger.chain_distance, Nat.le_antisymm hlonger.distance_le ?_⟩
  -- by a shorter chain it would have been met before
  by_contra hlt
  exact hnot (h.met nt rfl _ m hlonger.chain_distance (by omega))

/-- If what follows in the queue is further away, the level of the first one has been visited. -/
theorem visited_of_chain (h : Levels g visited (nt :: queue))
    (hfurther : ∀ first, queue.head? = some first → g.distance nt < g.distance first) {m : Nat}
    (hchain : g.Chain (g.distance nt) m) : m ∈ visited ++ [nt] := by
  have hmet := h.met nt rfl _ m hchain (Nat.le_refl _)
  have hnotqueue : m ∉ queue := by
    intro hin
    have hdistance := hchain.distance_le
    obtain ⟨-, hsorted, -⟩ := List.pairwise_append.mp h.sorted
    cases queue with
    | nil => cases hin
    | cons first rest =>
      have hlt := hfurther first rfl
      have hfirst : g.distance first ≤ g.distance m := by
        rcases List.mem_cons.mp hin with rfl | hin
        · exact Nat.le_refl _
        · exact List.rel_of_pairwise_cons (List.pairwise_cons.mp hsorted).2 hin
      omega
  simp only [List.mem_append, List.mem_cons, List.not_mem_nil, or_false] at hmet ⊢
  tauto

/-- **One step of the walk** keeps the levels apart. -/
theorem step (wf : g.WellFormed) (hwalking : g.Walking visited (nt :: queue))
    (h : Levels g visited (nt :: queue)) :
    Levels g (visited ++ [nt]) (queue ++ g.newlyMet (visited ++ nt :: queue) nt) := by
  set fresh := g.newlyMet (visited ++ nt :: queue) nt with hfresh
  have happend : visited ++ [nt] ++ (queue ++ fresh) = (visited ++ nt :: queue) ++ fresh := by simp
  have hnew {m : Nat} (hm : m ∈ fresh) :
      g.Chain (g.distance m) m ∧ g.distance m = g.distance nt + 1 := h.distance_newlyMet hm
  obtain ⟨-, hsorted, hbefore⟩ := List.pairwise_append.mp h.sorted
  have hqueue : ∀ m ∈ queue, g.distance nt ≤ g.distance m := (List.pairwise_cons.mp hsorted).1
  have hlevel : ∀ m ∈ queue ++ fresh,
      g.distance nt ≤ g.distance m ∧ g.distance m ≤ g.distance nt + 1 := by
    intro m hm
    rcases List.mem_append.mp hm with hm | hm
    · exact ⟨hqueue m hm, h.two_levels nt rfl m (List.mem_cons_of_mem nt hm)⟩
    · have := (hnew hm).2
      omega
  have hlast : ∀ m ∈ visited ++ nt :: queue, g.distance m ≤ g.distance nt + 1 := by
    intro m hm
    rcases List.mem_append.mp hm with hm | hm
    · exact Nat.le_succ_of_le (hbefore m hm nt List.mem_cons_self)
    · exact h.two_levels nt rfl m hm
  constructor
  case chain =>
    rw [happend]
    intro m hm
    rcases List.mem_append.mp hm with hm | hm
    · exact h.chain m hm
    · exact (hnew hm).1
  case sorted =>
    rw [happend]
    refine List.pairwise_append.mpr ⟨h.sorted, ?_, fun m hm m' hm' => ?_⟩
    · refine List.pairwise_of_forall_mem_list fun m hm m' hm' => ?_
      rw [(hnew hm).2, (hnew hm').2]
    · rw [(hnew hm').2]
      exact hlast m hm
  case two_levels =>
    intro q hq m hm
    have hfirst := hlevel q (List.mem_of_mem_head? hq)
    have hother := hlevel m hm
    omega
  case met =>
    intro q hq n m hpath hle
    have hq' := hlevel q (List.mem_of_mem_head? hq)
    by_cases hnear : n ≤ g.distance nt
    · rw [happend]
      exact List.mem_append_left _ (h.met nt rfl n m hpath hnear)
    · -- the level behind that of `nt` has begun, so nothing of the level of `nt` is in the queue
      obtain rfl : n = g.distance nt + 1 := by omega
      obtain ⟨parent, hparent, hm⟩ := hpath.exists_parent
      have hvisited : parent ∈ visited ++ [nt] := by
        refine h.visited_of_chain (fun first hfirst => ?_) hparent
        obtain rfl : first = q := by simpa [List.head?_append, hfirst] using hq
        omega
      exact (hwalking.step wf).closed parent hvisited m hm

end Levels

end Walking

/-! ## Discoveries -/

/-- **The nonterminal from which another one is met first**: the first one of the walk whose
alternatives mention it. The start symbol is met from none. -/
def discoverer? (g : Grammar) (m : Nat) : Option Nat :=
  if m = g.start then none else g.reachable.find? fun nt => (g.successors nt).contains m

/-- What is met from a nonterminal if others have been visited before it. -/
def discoveries (g : Grammar) (before : List Nat) (nt : Nat) : List Nat :=
  (g.successors nt).eraseDups.filter fun m =>
    m != g.start && before.all fun n => !(g.successors n).contains m

/-- What is met from nonterminals one after the other. -/
def unfolded (g : Grammar) (before : List Nat) : List Nat → List Nat
  | [] => []
  | nt :: rest => g.discoveries before nt ++ unfolded g (before ++ [nt]) rest

theorem mem_discoveries {before : List Nat} {nt m : Nat} : m ∈ g.discoveries before nt ↔
    m ∈ g.successors nt ∧ m ≠ g.start ∧ ∀ n ∈ before, m ∉ g.successors n := by
  simp [discoveries]

theorem unfolded_append (before l : List Nat) (nt : Nat) : g.unfolded before (l ++ [nt]) =
    g.unfolded before l ++ g.discoveries (before ++ l) nt := by
  induction l generalizing before with
  | nil => simp [unfolded]
  | cons n l ih => simp [unfolded, ih]

theorem mem_unfolded {before l : List Nat} {m : Nat} : m ∈ g.unfolded before l ↔
    m ≠ g.start ∧ (∀ n ∈ before, m ∉ g.successors n) ∧ ∃ n ∈ l, m ∈ g.successors n := by
  induction l generalizing before with
  | nil => simp [unfolded]
  | cons nt l ih =>
    simp only [unfolded, List.mem_append, mem_discoveries, ih, List.mem_cons, List.not_mem_nil,
      or_false, exists_eq_or_imp, or_imp, forall_and, forall_eq]
    by_cases hm : m ∈ g.successors nt
    · simp [hm]
    · simp [hm]

namespace WellFormed

variable (wf : g.WellFormed)

include wf

/-- The walk lists the start symbol, and then what is met from its members one after the other. -/
theorem reachable_eq_unfolded : g.reachable = g.start :: g.unfolded [] g.reachable := by
  have hrun : g.reachable ++ [] = g.start :: g.unfolded [] g.reachable := by
    refine Walking.run wf (P := fun visited queue =>
      visited ++ queue = g.start :: g.unfolded [] visited) ?_ rfl
    intro visited nt queue _ hmet
    have hfresh : g.newlyMet (visited ++ nt :: queue) nt = g.discoveries visited nt := by
      rw [newlyMet, eraseDups_filter, discoveries]
      refine List.filter_congr fun m _ => ?_
      rw [hmet, Bool.eq_iff_iff]
      simp only [Bool.not_eq_true', List.contains_eq_mem, decide_eq_false_iff_not, List.mem_cons,
        mem_unfolded, Bool.and_eq_true, bne_iff_ne, List.all_eq_true]
      by_cases hstart : m = g.start
      · simp [hstart]
      · simp [hstart]
    rw [hfresh, unfolded_append, List.nil_append, ← List.cons_append, ← hmet]
    simp
  simpa using hrun

/-- What is met from a member of the walk is what it is the discoverer of. -/
theorem discoverer?_eq_some {before after : List Nat} {nt m : Nat}
    (hsplit : g.reachable = before ++ nt :: after) :
    g.discoverer? m = some nt ↔
      m ∈ g.successors nt ∧ m ≠ g.start ∧ ∀ n ∈ before, m ∉ g.successors n := by
  have hnodup := wf.nodup_reachable
  rw [hsplit, List.nodup_append] at hnodup
  unfold discoverer?
  by_cases hstart : m = g.start
  · simp [hstart]
  rw [if_neg hstart, List.find?_eq_some_iff_append]
  simp only [List.contains_eq_mem, decide_eq_true_eq, Bool.not_eq_true', decide_eq_false_iff_not]
  constructor
  · rintro ⟨hm, before', after', hsplit', hbefore⟩
    rw [hsplit] at hsplit'
    rcases append_eq_append_cons.mp hsplit' with ⟨rest, rfl, -⟩ | ⟨rest, rfl, hrest⟩
    · exact absurd rfl (hnodup.2.2 nt (by simp) nt List.mem_cons_self)
    · cases rest with
      | nil => exact ⟨hm, hstart, by simpa using hbefore⟩
      | cons n rest =>
        obtain ⟨rfl, rfl⟩ := List.cons.inj hrest
        exact absurd (by simp) (List.nodup_cons.mp hnodup.2.1).1
  · rintro ⟨hm, -, hbefore⟩
    exact ⟨hm, before, after, hsplit, hbefore⟩

/-- **The walk in breadth**: the start symbol, and then for each member of the walk in turn the
nonterminals that are met from it, in the order in which its alternatives first mention them. -/
theorem reachable_eq : g.reachable = g.start :: g.reachable.flatMap fun nt =>
    (g.successors nt).eraseDups.filter fun m => g.discoverer? m == some nt := by
  have hunfolded {before l : List Nat} (hsplit : g.reachable = before ++ l) :
      g.unfolded before l = l.flatMap fun nt =>
        (g.successors nt).eraseDups.filter fun m => g.discoverer? m == some nt := by
    induction l generalizing before with
    | nil => rfl
    | cons nt l ih =>
      have hsplit' : g.reachable = (before ++ [nt]) ++ l := by simpa using hsplit
      rw [unfolded, List.flatMap_cons, ih hsplit']
      congr 1
      refine List.filter_congr fun m _ => ?_
      rw [Bool.eq_iff_iff, beq_iff_eq, wf.discoverer?_eq_some hsplit]
      simp_all
  conv_lhs => rw [wf.reachable_eq_unfolded, hunfolded (List.nil_append _).symm]

/-- What is met from one member of the walk stands in the order of its first occurrences there. -/
theorem pairwise_discovered : g.reachable.Pairwise fun m m' => ∀ nt,
    g.discoverer? m = some nt → g.discoverer? m' = some nt →
      (g.successors nt).idxOf m < (g.successors nt).idxOf m' := by
  have hsome {nt m : Nat} (hm : m ∈ (g.successors nt).eraseDups.filter fun m =>
      g.discoverer? m == some nt) : g.discoverer? m = some nt :=
    eq_of_beq (List.mem_filter.mp hm).2
  rw [wf.reachable_eq, List.pairwise_cons, List.pairwise_flatMap]
  refine ⟨fun m _ nt hstart => ?_, fun nt _ => ?_, ?_⟩
  · simp [discoverer?] at hstart
  · refine ((pairwise_eraseDups _).filter _).imp_of_mem fun hm _ hlt nt' hnt' _ => ?_
    obtain rfl : nt = nt' := Option.some.inj ((hsome hm).symm.trans hnt')
    exact hlt
  · refine wf.nodup_reachable.imp fun hne m hm m' hm' nt hnt hnt' => absurd ?_ hne
    have hfirst := Option.some.inj ((hsome hm).symm.trans hnt)
    have hsecond := Option.some.inj ((hsome hm').symm.trans hnt')
    exact hfirst.trans hsecond.symm

/-- Every member of the walk but the start symbol is met from one. -/
theorem exists_discoverer {m : Nat} (hm : m ∈ g.reachable) (hstart : m ≠ g.start) :
    ∃ before nt after, g.reachable = before ++ nt :: after ∧ g.discoverer? m = some nt ∧
      m ∈ g.successors nt ∧ ∀ n ∈ before, m ∉ g.successors n := by
  rw [wf.reachable_eq] at hm
  obtain ⟨nt, hnt, hmet⟩ := List.mem_flatMap.mp ((List.mem_cons.mp hm).resolve_left hstart)
  obtain ⟨-, hsome⟩ := List.mem_filter.mp hmet
  have hsome := eq_of_beq hsome
  obtain ⟨before, after, hsplit⟩ := List.append_of_mem hnt
  obtain ⟨hsuccessor, -, hbefore⟩ := (wf.discoverer?_eq_some hsplit).mp hsome
  exact ⟨before, nt, after, hsplit, hsome, hsuccessor, hbefore⟩

end WellFormed

end Grammar

/-- **What is reached, and in which order.** The walk lists just the nonterminals that stand in a
sentential form, each of them once, the start symbol first. None is further from the start symbol
than a later one, by the lengths of shortest chains of productions. Each but the start symbol is met
from the first of the walk whose alternatives mention it; those that are met from the same one stand
in the order of their first occurrences in its alternatives, and they stand before those that are
met from a later one. -/
theorem Declarations.reachable_in_breadth {engine : PatternEngine} {d : Declarations} {g : Grammar}
    (hbuild : d.build engine = .ok g) :
    (∀ nt, nt ∈ g.reachable ↔ g.Occurs (.nonterminal nt)) ∧
    g.reachable.Nodup ∧ g.reachable.head? = some g.start ∧
    (∀ nt ∈ g.reachable, g.Chain (g.distance nt) nt ∧ ∀ n, g.Chain n nt → g.distance nt ≤ n) ∧
    g.reachable.Pairwise (fun nt m => g.distance nt ≤ g.distance m) ∧
    (∀ m ∈ g.reachable, m ≠ g.start → ∃ before nt after, g.reachable = before ++ nt :: after ∧
      g.discoverer? m = some nt ∧ m ∈ g.successors nt ∧ ∀ n ∈ before, m ∉ g.successors n) ∧
    g.reachable.Pairwise (fun m m' => ∀ nt,
      g.discoverer? m = some nt → g.discoverer? m' = some nt →
        (g.successors nt).idxOf m < (g.successors nt).idxOf m') ∧
    g.reachable = g.start :: (g.reachable.flatMap fun nt =>
      (g.successors nt).eraseDups.filter fun m => g.discoverer? m == some nt) ∧
    ∀ a, g.analyze = .ok a → a.reachable = g.reachable := by
  have wf := wellFormed_of_build hbuild
  have hlevels : Grammar.Walking.Levels g g.reachable [] :=
    Grammar.Walking.run wf (fun _ _ _ hwalking h => h.step wf hwalking) (.start g)
  refine ⟨fun nt => wf.mem_reachable_iff, wf.nodup_reachable, wf.head?_reachable, ?_, ?_,
    fun m hm hstart => wf.exists_discoverer hm hstart, wf.pairwise_discovered, wf.reachable_eq, ?_⟩
  · exact fun nt hnt => ⟨hlevels.chain nt (by simpa using hnt), fun n h => h.distance_le⟩
  · simpa using hlevels.sorted
  · intro a ha
    simp only [Grammar.analyze, bind_eq_ok, pure_eq_ok] at ha
    obtain ⟨first, -, rfl⟩ := ha
    rfl

/-- `Deep` is met from `Right`, behind `Near`, and it is no nearer to the start symbol than `Left`,
which mentions it, too. -/
theorem Declarations.reachable_in_breadth_levels :
    ∃ g, Samples.levels.build Pattern.engine = .ok g ∧ g.reachable = [0, 3, 1, 4, 2] ∧
      (1 ∈ g.reachable ∧ g.successors 1 = [2]) ∧ g.discoverer? 4 = some 3 ∧
      g.discoverer? 2 = some 3 ∧ g.Occurs (.nonterminal 2) ∧ g.distance 1 ≤ g.distance 2 ∧
      (g.successors 3).idxOf 4 < (g.successors 3).idxOf 2 := by
  have hrun : ((Samples.levels.build Pattern.engine).toOption.map fun g => decide (
      g.reachable = [0, 3, 1, 4, 2] ∧ g.successors 1 = [2] ∧ g.discoverer? 4 = some 3 ∧
        g.discoverer? 2 = some 3)) = some true := by
    decide +kernel
  simp only [Option.map_eq_some_iff, toOption_eq_some, decide_eq_true_eq] at hrun
  obtain ⟨g, hbuild, hreachable, hleft, hnear, hdeep⟩ := hrun
  obtain ⟨hoccurs, -, -, -, hsorted, -, hsiblings, -, -⟩ := reachable_in_breadth hbuild
  have hmem : 2 ∈ g.reachable := by simp [hreachable]
  have hsorted : [0, 3, 1, 4, 2].Pairwise fun nt m => g.distance nt ≤ g.distance m :=
    hreachable ▸ hsorted
  have hsiblings : [0, 3, 1, 4, 2].Pairwise fun m m' => ∀ nt,
      g.discoverer? m = some nt → g.discoverer? m' = some nt →
        (g.successors nt).idxOf m < (g.successors nt).idxOf m' := hreachable ▸ hsiblings
  refine ⟨g, hbuild, hreachable, ⟨by simp [hreachable], hleft⟩, hnear, hdeep,
    (hoccurs 2).mp hmem, ?_, ?_⟩
  · simp only [List.pairwise_cons, List.mem_cons, List.not_mem_nil, or_false] at hsorted
    exact hsorted.2.2.1 2 (.inr rfl)
  · simp only [List.pairwise_cons, List.mem_cons, List.not_mem_nil, or_false] at hsiblings
    exact hsiblings.2.2.2.1 2 rfl 3 hnear hdeep

end PredictiveParsing
