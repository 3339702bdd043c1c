import Mathlib.Data.List.Perm.Subperm
import PredictiveParsing.Analysis.Reachable
import PredictiveParsing.Proofs.Grammar.Sentential
import PredictiveParsing.Proofs.Grammar.WellFormed

/-!
# The walk reaches all it can

Each step of the walk moves the first nonterminal of the queue to the visited ones and puts its
new successors at the end. All nonterminals met are different, so there are no more steps than
nonterminals, and when the queue is empty the visited ones are closed under successors. So the
nonterminals that are reached are those of the sentential forms.

## Main definitions

* `Grammar.Walking`: what a step of the walk preserves

## Main results

* `Grammar.Walking.step`, `Grammar.Walking.walk`: one step, and the whole walk
* `Grammar.WellFormed.start_mem_reachable`, `mem_reachable_of_mem_body`: the start symbol is
  reachable, and so are the nonterminals in the bodies of reachable ones
* `Grammar.WellFormed.head?_reachable`: the start symbol is reached first
* `Grammar.WellFormed.mem_reachable_iff`: what is reachable stands in a sentential form
-/

namespace PredictiveParsing

namespace Grammar

variable {g : Grammar}

theorem mem_successors {nt m : Nat} :
    m ∈ g.successors nt ↔ ∃ p ∈ g.alternatives nt, .nonterminal m ∈ g.body p := by
  simp only [successors, List.mem_flatMap, List.mem_filterMap]
  constructor
  · rintro ⟨p, hp, (_ | n), hx, h⟩
    · cases h
    · cases h
      exact ⟨p, hp, hx⟩
  · rintro ⟨p, hp, hx⟩
    exact ⟨p, hp, _, hx, rfl⟩

/-- **What a step of the walk preserves**: no nonterminal is met twice, and the successors of the
visited ones have been met. -/
structure Walking (g : Grammar) (visited queue : List Nat) : Prop where
  /-- No nonterminal is met twice. -/
  nodup : (visited ++ queue).Nodup
  /-- Only nonterminals of the grammar are met. -/
  lt : ∀ nt ∈ visited ++ queue, nt < g.nonterminals.size
  /-- The successors of the visited ones have been met. -/
  closed : ∀ nt ∈ visited, ∀ m ∈ g.successors nt, m ∈ visited ++ queue

namespace Walking

variable {visited queue : List Nat}

theorem length_le (h : g.Walking visited queue) :
    visited.length + queue.length ≤ g.nonterminals.size := by
  have hsub : visited ++ queue ⊆ List.range g.nonterminals.size :=
    fun nt hnt => List.mem_range.mpr (h.lt nt hnt)
  simpa using (h.nodup.subperm hsub).length_le

/-- **One step of the walk.** -/
theorem step (wf : g.WellFormed) {nt : Nat} (h : g.Walking visited (nt :: queue)) :
    g.Walking (visited ++ [nt]) (queue ++
      ((g.successors nt).filter fun m => !(visited ++ nt :: queue).contains m).eraseDups) := by
  set fresh := ((g.successors nt).filter fun m => !(visited ++ nt :: queue).contains m).eraseDups
    with hfresh
  have hmem (m : Nat) : m ∈ fresh ↔ m ∈ g.successors nt ∧ m ∉ visited ++ nt :: queue := by
    simp [hfresh]
  have happend : visited ++ [nt] ++ (queue ++ fresh) = (visited ++ nt :: queue) ++ fresh := by simp
  refine ⟨?_, ?_, ?_⟩
  · rw [happend]
    refine List.nodup_append.mpr ⟨h.nodup, nodup_eraseDups _, ?_⟩
    rintro a ha b hb rfl
    exact ((hmem a).mp hb).2 ha
  · rw [happend]
    intro m hm
    rcases List.mem_append.mp hm with hm | hm
    · exact h.lt m hm
    · obtain ⟨p, hp, hx⟩ := mem_successors.mp ((hmem m).mp hm).1
      exact wf.hasSymbol_of_mem_body hp hx
  · rw [happend]
    intro a ha m hm
    rw [List.mem_append, hmem]
    by_cases hmet : m ∈ visited ++ nt :: queue
    · exact .inl hmet
    · rcases List.mem_append.mp ha with ha | ha
      · exact absurd (h.closed a ha m hm) hmet
      · rw [List.mem_singleton.mp ha] at hm
        exact .inr ⟨hm, hmet⟩

/-- **The whole walk** ends with an empty queue and has visited all that was in it. -/
theorem walk (wf : g.WellFormed) (fuel : Nat) (h : g.Walking visited queue)
    (hfuel : fuel + visited.length = g.nonterminals.size) :
    g.Walking (g.walk fuel visited queue) [] ∧
      ∀ nt ∈ visited ++ queue, nt ∈ g.walk fuel visited queue := by
  induction fuel generalizing visited queue with
  | zero =>
    -- all nonterminals have been visited, so none is left in the queue
    have hlength := h.length_le
    obtain rfl : queue = [] := List.length_eq_zero_iff.mp (by omega)
    exact ⟨h, fun nt hnt => by simpa [Grammar.walk] using hnt⟩
  | succ fuel ih =>
    cases queue with
    | nil => exact ⟨h, fun nt hnt => by simpa [Grammar.walk] using hnt⟩
    | cons nt queue =>
      obtain ⟨hwalk, hmem⟩ := ih (h.step wf) (by simp; omega)
      refine ⟨hwalk, fun m hm => hmem m ?_⟩
      simp only [List.mem_append, List.mem_cons] at hm ⊢
      tauto

end Walking

namespace WellFormed

variable (wf : g.WellFormed)

include wf

/-- The walk starts with nothing but the start symbol in the queue. -/
theorem walking_start : g.Walking [] [g.start] :=
  ⟨by simp, by simpa using wf.start_lt, by simp⟩

theorem walking_reachable : g.Walking g.reachable [] ∧ g.start ∈ g.reachable := by
  obtain ⟨hwalk, hmem⟩ := wf.walking_start.walk wf g.nonterminals.size (by simp)
  exact ⟨hwalk, hmem g.start (by simp)⟩

/-- **The start symbol is reachable.** -/
theorem start_mem_reachable : g.start ∈ g.reachable := wf.walking_reachable.2

/-- No nonterminal is reached twice. -/
theorem nodup_reachable : g.reachable.Nodup := by simpa using wf.walking_reachable.1.nodup

theorem lt_of_mem_reachable {nt : Nat} (h : nt ∈ g.reachable) : nt < g.nonterminals.size :=
  wf.walking_reachable.1.lt nt (by simpa using h)

theorem length_reachable_le : g.reachable.length ≤ g.nonterminals.size :=
  wf.walking_reachable.1.length_le

/-- **The nonterminals in the bodies of a reachable one are reachable.** -/
theorem mem_reachable_of_mem_body {nt p m : Nat} (h : nt ∈ g.reachable)
    (hp : p ∈ g.alternatives nt) (hm : .nonterminal m ∈ g.body p) : m ∈ g.reachable := by
  simpa using wf.walking_reachable.1.closed nt h m (mem_successors.mpr ⟨p, hp, hm⟩)

end WellFormed

/-- The walk adds to what has been visited at its end only. -/
theorem prefix_walk (fuel : Nat) (visited queue : List Nat) :
    visited <+: g.walk fuel visited queue := by
  induction fuel generalizing visited queue with
  | zero => exact List.prefix_rfl
  | succ fuel ih =>
    cases queue with
    | nil => exact List.prefix_rfl
    | cons nt queue => exact (List.prefix_append visited [nt]).trans (ih _ _)

/-- **The start symbol is reached first.** -/
theorem WellFormed.head?_reachable (wf : g.WellFormed) : g.reachable.head? = some g.start := by
  rw [reachable]
  cases hsize : g.nonterminals.size with
  | zero => exact absurd wf.start_lt (by omega)
  | succ fuel =>
    obtain ⟨later, hlater⟩ : [g.start] <+: g.walk (fuel + 1) [] [g.start] := g.prefix_walk fuel _ _
    rw [← hlater]
    rfl

/-- The walk stays among nonterminals that are closed under successors. -/
theorem forall_mem_walk {P : Nat → Prop} (hclosed : ∀ nt, P nt → ∀ m ∈ g.successors nt, P m)
    (fuel : Nat) {visited queue : List Nat} (h : ∀ nt ∈ visited ++ queue, P nt) :
    ∀ nt ∈ g.walk fuel visited queue, P nt := by
  induction fuel generalizing visited queue with
  | zero => exact fun nt hnt => h nt (List.mem_append_left queue hnt)
  | succ fuel ih =>
    cases queue with
    | nil => exact fun nt hnt => h nt (List.mem_append_left [] hnt)
    | cons nt queue =>
      refine ih fun m hm => ?_
      have hnt : P nt := h nt (by simp)
      simp only [List.mem_append, List.mem_cons, List.not_mem_nil, or_false, List.mem_eraseDups,
        List.mem_filter] at hm
      rcases hm with (hm | rfl) | hm | ⟨hm, -⟩
      · exact h m (by simp [hm])
      · exact hnt
      · exact h m (by simp [hm])
      · exact hclosed nt hnt m hm

namespace WellFormed

variable (wf : g.WellFormed)

include wf

/-- **What is reachable stands in a sentential form**, and the other way round. -/
theorem mem_reachable_iff {nt : Nat} : nt ∈ g.reachable ↔ g.Occurs (.nonterminal nt) := by
  constructor
  · refine forall_mem_walk (P := fun m => g.Occurs (.nonterminal m)) ?_ _ ?_ nt
    · rintro n ⟨before, after, hform⟩ m hm
      obtain ⟨p, hp, hmem⟩ := mem_successors.mp hm
      obtain ⟨production, hproduction, -, rfl, hbody⟩ := wf.exists_production hp
      obtain ⟨left, right, hsplit⟩ := List.append_of_mem (hbody ▸ hmem)
      have hnext := Sentential.replace (α := [.nonterminal production.head]) (by simpa using hform)
        (Derives.of_production hproduction)
      exact ⟨before ++ left, right ++ after, by simpa [hsplit] using hnext⟩
    · intro m hm
      obtain rfl : m = g.start := by simpa using hm
      exact ⟨[], [], .refl _⟩
  · rintro ⟨before, after, hform⟩
    have hall {α : List Symbol} (hα : g.Sentential α) :
        ∀ m, .nonterminal m ∈ α → m ∈ g.reachable := by
      induction hα with
      | refl =>
        intro m hm
        obtain rfl : m = g.start := by simpa using hm
        exact wf.start_mem_reachable
      | tail _ hstep ih =>
        obtain @⟨p, hp, left, right⟩ := hstep
        intro m hm
        rcases List.mem_append.mp hm with hm | hm
        · rcases List.mem_append.mp hm with hm | hm
          · exact ih m (by simp [hm])
          · obtain ⟨i, hi, -, hbody⟩ := wf.exists_alternative hp
            exact wf.mem_reachable_of_mem_body (ih p.head (by simp)) hi (hbody ▸ hm)
        · exact ih m (by simp [hm])
    exact hall hform nt (by simp)

end WellFormed

end Grammar

end PredictiveParsing
