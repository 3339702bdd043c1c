import PredictiveParsing.Proofs.Analysis.First
import PredictiveParsing.Proofs.Analysis.Reachable

/-!
# Grammars that are alike

Two grammars may give different numbers to the same nonterminals, and may differ in nonterminals
that play no part. They are alike along a relation of nonterminals if the start symbols are
related, and related nonterminals have the same names and the same alternatives in the same order,
with related nonterminals in them. Terminals have the same numbers in both.

What is derived from related symbols is related, so FIRST of related symbols is the same. The walks
of both grammars go in step, though each of them is bounded by another number of nonterminals.

## Main definitions

* `Symbol.Matches`, `Production.Matches`: symbols and productions that are the same up to numbers
* `Grammar.Alike`: two grammars that are alike along a relation of nonterminals

## Main results

* `Grammar.Alike.symm`: the other way round they are alike, too
* `Grammar.Alike.exists_derives`: derivations have their like
* `Grammar.Alike.symbol_eq`: FIRST of related symbols is the same
* `Grammar.Alike.reachable`: related nonterminals are reached in the same order
-/

namespace PredictiveParsing

open Relator

/-! ## Symbols and productions -/

/-- **Symbols that are the same up to numbers**: the same terminal, or related nonterminals. -/
inductive Symbol.Matches (size : Nat) (R : Nat → Nat → Prop) : Symbol → Symbol → Prop
  | terminal {t : Nat} (h : t < size) : Matches size R (.terminal t) (.terminal t)
  | nonterminal {nt nt' : Nat} (h : R nt nt') : Matches size R (.nonterminal nt) (.nonterminal nt')

/-- **Productions that are the same up to numbers.** -/
structure Production.Matches (size : Nat) (R : Nat → Nat → Prop) (p p' : Production) : Prop where
  head : R p.head p'.head
  body : List.Forall₂ (Symbol.Matches size R) p.body p'.body
  binding : p.binding = p'.binding

namespace Symbol.Matches

variable {size : Nat} {R : Nat → Nat → Prop} {x x' : Symbol} {α α' : List Symbol}

theorem symm (h : Matches size R x x') : Matches size (flip R) x' x := by
  cases h with
  | terminal ht => exact .terminal ht
  | nonterminal hR => exact .nonterminal hR

theorem symm_all (h : List.Forall₂ (Matches size R) α α') :
    List.Forall₂ (Matches size (flip R)) α' α :=
  h.flip.imp fun _ _ hx => symm hx

theorem biUnique (hR : BiUnique R) : BiUnique (Matches size R) := by
  constructor
  · rintro _ _ _ (⟨ht⟩ | hx) (⟨ht'⟩ | hy)
    · rfl
    · exact congrArg Symbol.nonterminal (hR.1 hx hy)
  · rintro _ _ _ (⟨ht⟩ | hx) (⟨ht'⟩ | hy)
    · rfl
    · exact congrArg Symbol.nonterminal (hR.2 hx hy)

end Symbol.Matches

theorem Production.Matches.symm {size : Nat} {R : Nat → Nat → Prop} {p p' : Production}
    (h : p.Matches size R p') : p'.Matches size (flip R) p :=
  ⟨h.head, Symbol.Matches.symm_all h.body, h.binding.symm⟩

/-- What is related to a list of two parts has two parts. -/
theorem exists_append_of_forall₂ {α β : Type} {R : α → β → Prop} {l m : List α} {l' : List β}
    (h : List.Forall₂ R (l ++ m) l') :
    ∃ l₁ l₂, l' = l₁ ++ l₂ ∧ List.Forall₂ R l l₁ ∧ List.Forall₂ R m l₂ := by
  induction l generalizing l' with
  | nil => exact ⟨[], l', rfl, .nil, h⟩
  | cons a l ih =>
    obtain ⟨b, rest, hab, hrest, rfl⟩ := List.forall₂_cons_left_iff.mp h
    obtain ⟨l₁, l₂, rfl, hl, hm⟩ := ih hrest
    exact ⟨b :: l₁, l₂, rfl, .cons hab hl, hm⟩

/-- Sets for the same number of terminals with the same members are equal. -/
theorem LookaheadSet.ext_of_mem {s t : LookaheadSet} (hsize : s.size = t.size)
    (h : ∀ slot, slot ∈ s.slots ↔ slot ∈ t.slots) : s = t := by
  obtain ⟨size, slots⟩ := s
  obtain ⟨size', slots'⟩ := t
  obtain rfl : size = size' := hsize
  exact congrArg (LookaheadSet.mk size) (IndexSet.ext h)

/-! ## Grammars -/

namespace Grammar

/-- Two numbers of productions that are the same up to numbers. -/
def MatchesAt (g g' : Grammar) (R : Nat → Nat → Prop) (i i' : Nat) : Prop :=
  ∃ p p', g.productions[i]? = some p ∧ g'.productions[i']? = some p' ∧
    p.Matches g.terminals.size R p'

/-- **Two grammars are alike** along a relation of nonterminals. -/
structure Alike (g g' : Grammar) (R : Nat → Nat → Prop) : Prop where
  /-- The first grammar is well formed. -/
  wf : g.WellFormed
  /-- So is the second one. -/
  wf' : g'.WellFormed
  /-- They have the same terminals. -/
  terminals : g.terminals = g'.terminals
  /-- They read tokens in the same way. -/
  lexicon : g.lexicon = g'.lexicon
  /-- The start symbols are related. -/
  start : R g.start g'.start
  /-- No nonterminal is related to two. -/
  biUnique : BiUnique R
  /-- Only nonterminals of the grammars are related. -/
  lt : ∀ nt nt', R nt nt' → nt < g.nonterminals.size ∧ nt' < g'.nonterminals.size
  /-- Related nonterminals have the same name. -/
  name : ∀ nt nt', R nt nt' → g.nonterminalName nt = g'.nonterminalName nt'
  /-- They have the same alternatives in the same order. -/
  alternatives : ∀ nt nt', R nt nt' →
    List.Forall₂ (g.MatchesAt g' R) (g.alternatives nt) (g'.alternatives nt')

namespace Alike

variable {g g' : Grammar} {R : Nat → Nat → Prop} (h : g.Alike g' R)

include h

/-- **The other way round the grammars are alike, too.** -/
theorem symm : g'.Alike g (flip R) where
  wf := h.wf'
  wf' := h.wf
  terminals := h.terminals.symm
  lexicon := h.lexicon.symm
  start := h.start
  biUnique := ⟨fun _ _ _ hR hR' => h.biUnique.2 hR hR', fun _ _ _ hR hR' => h.biUnique.1 hR hR'⟩
  lt nt' nt hR := (h.lt nt nt' hR).symm
  name nt' nt hR := (h.name nt nt' hR).symm
  alternatives nt' nt hR := by
    refine (h.alternatives nt nt' hR).flip.imp ?_
    rintro i' i ⟨p, p', hp, hp', hmatches⟩
    exact ⟨p', p, hp', hp, h.terminals ▸ hmatches.symm⟩

variable {x x' y y' : Symbol} {α α' β : List Symbol} {nt nt' i i' : Nat}

theorem hasSymbol (hx : x.Matches g.terminals.size R x') : g.HasSymbol x ∧ g'.HasSymbol x' := by
  cases hx with
  | terminal ht =>
    rw [HasSymbol, HasSymbol, ← h.terminals]
    exact ⟨ht, ht⟩
  | nonterminal hR => exact h.lt _ _ hR

theorem symbolName_eq (hx : x.Matches g.terminals.size R x') :
    g.symbolName x = g'.symbolName x' := by
  cases hx with
  | terminal ht => rw [symbolName, symbolName, terminalName, terminalName, h.terminals]
  | nonterminal hR => exact h.name _ _ hR

/-- Matching symbols are numbered in the same way as far as equality goes. -/
theorem symbolId_eq_iff (hx : x.Matches g.terminals.size R x')
    (hy : y.Matches g.terminals.size R y') :
    g.symbolId x = g.symbolId y ↔ g'.symbolId x' = g'.symbolId y' := by
  have hinj {g : Grammar} {x y : Symbol} (hx : g.HasSymbol x) (hy : g.HasSymbol y) :
      g.symbolId x = g.symbolId y ↔ x = y := by
    constructor
    · intro hid
      rw [← symbolOfId_symbolId_of_hasSymbol hx, hid, symbolOfId_symbolId_of_hasSymbol hy]
    · rintro rfl
      rfl
  rw [hinj (h.hasSymbol hx).1 (h.hasSymbol hy).1, hinj (h.hasSymbol hx).2 (h.hasSymbol hy).2]
  exact rel_eq (Symbol.Matches.biUnique h.biUnique) hx hy

omit h in
theorem body (hi : g.MatchesAt g' R i i') :
    List.Forall₂ (Symbol.Matches g.terminals.size R) (g.body i) (g'.body i') := by
  obtain ⟨p, p', hp, hp', hmatches⟩ := hi
  rw [body_of_getElem? hp, body_of_getElem? hp']
  exact hmatches.body

/-! ## Derivations -/

/-- **One step has its like**: the production that is used has its like among the alternatives of
the related nonterminal. -/
theorem exists_rewrites (hα : List.Forall₂ (Symbol.Matches g.terminals.size R) α α')
    (hstep : g.Rewrites α β) :
    ∃ β', g'.Rewrites α' β' ∧ List.Forall₂ (Symbol.Matches g.terminals.size R) β β' := by
  obtain @⟨p, hp, before, after⟩ := hstep
  obtain ⟨before', rest', rfl, hbefore, hrest⟩ := exists_append_of_forall₂ hα
  obtain ⟨x', after', hx, hafter, rfl⟩ := List.forall₂_cons_left_iff.mp hrest
  rcases hx with - | hR
  obtain ⟨i, hi, hget, -⟩ := h.wf.exists_alternative hp
  obtain ⟨i', hi', q, q', hq, hq', hmatches⟩ := exists_of_mem_left (h.alternatives _ _ hR) hi
  obtain rfl : p = q := Option.some.inj (hget.symm.trans hq)
  obtain ⟨p', hmem, hp', rfl, -⟩ := h.wf'.exists_production hi'
  obtain rfl : q' = p' := Option.some.inj (hq'.symm.trans hp')
  exact ⟨_, .replace hmem before' after',
    List.rel_append (List.rel_append hbefore hmatches.body) hafter⟩

/-- **Derivations have their like.** -/
theorem exists_derives (hα : List.Forall₂ (Symbol.Matches g.terminals.size R) α α')
    (hd : g.Derives α β) :
    ∃ β', g'.Derives α' β' ∧ List.Forall₂ (Symbol.Matches g.terminals.size R) β β' := by
  induction hd with
  | refl => exact ⟨α', .refl α', hα⟩
  | tail _ hstep ih =>
    obtain ⟨γ', hγ', hγ⟩ := ih
    obtain ⟨β', hβ', hβ⟩ := h.exists_rewrites hγ hstep
    exact ⟨β', hγ'.trans (.of_rewrites hβ'), hβ⟩

theorem canBegin (hα : List.Forall₂ (Symbol.Matches g.terminals.size R) α α') {slot : Nat}
    (hslot : g.CanBegin α slot) : g'.CanBegin α' slot := by
  cases hslot with
  | terminal ht hd =>
    obtain ⟨β', hβ', hβ⟩ := h.exists_derives hα hd
    obtain ⟨x', γ', hx, -, rfl⟩ := List.forall₂_cons_left_iff.mp hβ
    cases hx
    exact .terminal (h.terminals ▸ ht) hβ'
  | epsilon hd =>
    obtain ⟨β', hβ', hβ⟩ := h.exists_derives hα hd
    obtain rfl := List.forall₂_nil_left_iff.mp hβ
    rw [h.terminals]
    exact .epsilon hβ'

/-! ## FIRST -/

variable {f f' : FirstSets}

/-- **FIRST of matching symbols is the same.** -/
theorem symbol_eq (hf : g.firstSets = .ok f) (hf' : g'.firstSets = .ok f')
    (hx : x.Matches g.terminals.size R x') : f.symbol x = f'.symbol x' := by
  obtain ⟨hsymbol, hsymbol'⟩ := h.hasSymbol hx
  refine LookaheadSet.ext_of_mem ?_ fun slot => ?_
  · rw [FirstSets.size_symbol h.wf hf, FirstSets.size_symbol h.wf' hf', h.terminals]
  · rw [FirstSets.mem_symbol_iff h.wf hf hsymbol, FirstSets.mem_symbol_iff h.wf' hf' hsymbol']
    constructor
    · exact h.canBegin (.cons hx .nil)
    · exact h.symm.canBegin (.cons (h.terminals ▸ hx.symm) .nil)

omit h in
theorem bodyFirst_eq {size : Nat} {first first' : Symbol → LookaheadSet}
    (hfirst : ∀ x x', x.Matches g.terminals.size R x' → first x = first' x')
    (hα : List.Forall₂ (Symbol.Matches g.terminals.size R) α α') :
    bodyFirst size first α = bodyFirst size first' α' := by
  induction hα with
  | nil => rfl
  | cons hx _ ih => rw [bodyFirst, bodyFirst, hfirst _ _ hx, ih]

/-! ## The walk -/

/-- A nonterminal has been met if its like has. -/
theorem mem_iff {l l' : List Nat} (hl : List.Forall₂ R l l') (hR : R nt nt') :
    nt ∈ l ↔ nt' ∈ l' :=
  List.rel_mem h.biUnique hR hl

theorem eraseDups {l l' : List Nat} (hl : List.Forall₂ R l l') :
    List.Forall₂ R l.eraseDups l'.eraseDups := by
  match hl with
  | .nil => exact .nil
  | @List.Forall₂.cons _ _ _ a b l l' hR hl =>
    rw [List.eraseDups_cons, List.eraseDups_cons]
    refine .cons hR (eraseDups ?_)
    refine List.rel_filter (fun m m' hm => ?_) hl
    simp [rel_eq h.biUnique hm hR]
termination_by l.length
decreasing_by exact Nat.lt_succ_of_le (List.length_filter_le _ _)

theorem successors (hR : R nt nt') :
    List.Forall₂ R (g.successors nt) (g'.successors nt') := by
  refine List.rel_flatMap (h.alternatives _ _ hR) fun i i' hi => ?_
  refine List.rel_filterMap (fun x x' hx => ?_) (body hi)
  cases hx with
  | terminal => exact .none
  | nonterminal hm => exact .some hm

/-- **The walks go in step** as long as both are given enough steps. -/
theorem walk {fuel fuel' : Nat} {visited visited' queue queue' : List Nat}
    (hvisited : List.Forall₂ R visited visited') (hqueue : List.Forall₂ R queue queue')
    (hwalk : g.Walking visited queue) (hwalk' : g'.Walking visited' queue')
    (hfuel : fuel + visited.length = g.nonterminals.size)
    (hfuel' : fuel' + visited'.length = g'.nonterminals.size) :
    List.Forall₂ R (g.walk fuel visited queue) (g'.walk fuel' visited' queue') := by
  induction fuel generalizing fuel' visited visited' queue queue' with
  | zero =>
    -- all nonterminals have been visited, so the queues are empty
    have hlength := hwalk.length_le
    obtain rfl : queue = [] := List.length_eq_zero_iff.mp (by omega)
    obtain rfl := List.forall₂_nil_left_iff.mp hqueue
    cases fuel' <;> exact hvisited
  | succ fuel ih =>
    cases hqueue with
    | nil => cases fuel' <;> exact hvisited
    | @cons nt nt' queue queue' hR hqueue =>
      have hlength' := hwalk'.length_le
      rw [List.length_cons] at hlength'
      obtain ⟨fuel', rfl⟩ : ∃ n, fuel' = n + 1 := ⟨fuel' - 1, by omega⟩
      have hmet : List.Forall₂ R (visited ++ nt :: queue) (visited' ++ nt' :: queue') :=
        List.rel_append hvisited (.cons hR hqueue)
      have hvisited' : List.Forall₂ R (visited ++ [nt]) (visited' ++ [nt']) :=
        List.rel_append hvisited (.cons hR .nil)
      rw [Grammar.walk, Grammar.walk]
      refine ih hvisited' (List.rel_append hqueue ?_) (hwalk.step h.wf) (hwalk'.step h.wf')
        (by simp; omega) (by simp; omega)
      refine h.eraseDups (List.rel_filter (fun m m' hm => ?_) (h.successors hR))
      simpa using not_congr (h.mem_iff hmet hm)

/-- **Related nonterminals are reached in the same order.** -/
theorem reachable : List.Forall₂ R g.reachable g'.reachable :=
  h.walk .nil (.cons h.start .nil) h.wf.walking_start h.wf'.walking_start (by simp) (by simp)

end Alike

end Grammar

end PredictiveParsing
