import PredictiveParsing.Proofs.Analysis.FirstSearch

/-!
# FIRST without a lookup that misses

The tables of a grammar are read with a default for numbers that have no entry. The functions here
take the same steps but read the tables as they are: a lookup that misses stops them, and so does
one in the record of a search. On a well-formed grammar they never stop, and come to the same.

What makes the lookups hit is the order of the search. A body is explored before its set is made,
up to the first symbol that cannot vanish, and no further symbol of it is looked up.

## Main definitions

* `proceed`: a step after another, where lookups may miss and steps may fail
* `Grammar.alternatives?`, `Grammar.body?`: the tables of a grammar as they are
* `Grammar.visit?`, `Grammar.firstSets?`: the search, stopped by a lookup that misses

## Main results

* `Grammar.WellFormed.visit?_eq`: exploring a nonterminal misses nothing
* `Grammar.WellFormed.firstSets?_eq`: neither does the whole search
-/

namespace PredictiveParsing

/-! ## Steps that look something up -/

section Steps

variable {ε α β : Type}

/-- **A step after another.** Either may be stopped by a lookup that misses, and the second one is
not made if the first one fails. -/
def proceed (x : Option (Except ε α)) (next : α → Option (Except ε β)) : Option (Except ε β) :=
  x.bind fun
    | .error e => some (.error e)
    | .ok a => next a

/-- Two steps miss nothing if neither of them does. -/
theorem proceed_some {x : Except ε α} {next? : α → Option (Except ε β)} {next : α → Except ε β}
    (h : ∀ a, x = .ok a → next? a = some (next a)) :
    proceed (some x) next? = some (x >>= next) := by
  cases x with
  | error e => rfl
  | ok a => exact h a rfl

/-- A list of lookups that all hit. -/
theorem mapM_eq_some_map {f? : α → Option β} {f : α → β} {l : List α}
    (h : ∀ a ∈ l, f? a = some (f a)) : l.mapM f? = some (l.map f) := by
  induction l with
  | nil => rfl
  | cons a l ih =>
    have hl := ih fun b hb => h b (List.mem_cons_of_mem a hb)
    rw [List.mapM_cons, h a List.mem_cons_self, hl]
    rfl

/-- A table of lookups that all hit. -/
theorem array_mapM_eq_some_map {f? : α → Option β} {f : α → β} {a : Array α}
    (h : ∀ x ∈ a, f? x = some (f x)) : a.mapM f? = some (a.map f) := by
  have hlist := mapM_eq_some_map (l := a.toList) fun x hx => h x (Array.mem_toList_iff.mp hx)
  rw [Array.mapM_eq_mapM_toList, hlist, ← Array.toList_map]
  rfl

/-- **A run of steps misses nothing** if no step does that starts where the run can get. -/
theorem foldlM_eq_some_foldl {f? : β → α → Option β} {f : β → α → β} {l : List α}
    (P : β → Prop) (h : ∀ b, P b → ∀ a ∈ l, f? b a = some (f b a) ∧ P (f b a)) {b : β} (hb : P b) :
    l.foldlM f? b = some (l.foldl f b) ∧ P (l.foldl f b) := by
  induction l generalizing b with
  | nil => exact ⟨rfl, hb⟩
  | cons a l ih =>
    obtain ⟨hstep, hP⟩ := h b hb a List.mem_cons_self
    rw [List.foldlM_cons, hstep]
    exact ih (fun b hb a ha => h b hb a (List.mem_cons_of_mem _ ha)) hP

end Steps

/-! ## The tables of a grammar -/

namespace Grammar

variable (g : Grammar)

/-- The productions of a nonterminal. -/
def alternatives? (nt : Nat) : Option (List Nat) := do return (← g.nonterminals[nt]?).alternatives

/-- The symbols of a production. -/
def body? (p : Nat) : Option (List Symbol) := do return (← g.productions[p]?).body

/-- The bodies of the alternatives of a nonterminal. -/
def bodies? (nt : Nat) : Option (List (List Symbol)) := do (← g.alternatives? nt).mapM g.body?

variable {g}

theorem alternatives?_eq {nt : Nat} (h : nt < g.nonterminals.size) :
    g.alternatives? nt = some (g.alternatives nt) := by
  simp [alternatives?, alternatives, h]

theorem body?_eq {p : Nat} (h : p < g.productions.size) : g.body? p = some (g.body p) := by
  simp [body?, body, h]

namespace WellFormed

variable (wf : g.WellFormed)

include wf

/-- The number of an alternative is that of a production. -/
theorem alternative_lt {nt p : Nat} (h : p ∈ g.alternatives nt) :
    p < g.productions.size := by
  obtain ⟨production, -, hget, -⟩ := wf.exists_production h
  exact (Array.getElem?_eq_some_iff.mp hget).1

theorem bodies?_eq {nt : Nat} (h : nt < g.nonterminals.size) :
    g.bodies? nt = some (g.bodies nt) := by
  rw [bodies?, alternatives?_eq h]
  exact mapM_eq_some_map fun p hp => body?_eq (wf.alternative_lt hp)

end WellFormed

end Grammar

/-! ## The search -/

/-- What a symbol can begin with: a terminal has to be one of the grammar, and the set of a
nonterminal has to be known. -/
def KnownFirst.symbol? (k : KnownFirst) (size : Nat) : Symbol → Option LookaheadSet
  | .terminal t => if t < size then some (.singleton size t) else none
  | .nonterminal nt => k.find? nt

/-- What a sequence of symbols can begin with; the symbols behind the first one that cannot vanish
are not looked up. -/
def bodyFirst? (size : Nat) (first : Symbol → Option LookaheadSet) :
    List Symbol → Option LookaheadSet
  | [] => some (LookaheadSet.empty size).withEpsilon
  | x :: rest => do
    let s ← first x
    if s.hasEpsilon then return s.withoutEpsilon.union (← bodyFirst? size first rest) else return s

/-- Explores the symbols of a body up to the first one that cannot vanish. -/
def exploreBody? (size : Nat)
    (visit : Nat → KnownFirst → Option (Except LeftRecursion KnownFirst)) :
    List Symbol → KnownFirst → Option (Except LeftRecursion KnownFirst)
  | [], k => some (.ok k)
  | .terminal _ :: _, k => some (.ok k)
  | .nonterminal nt :: rest, k =>
    proceed (visit nt k) fun k => do
      let s ← k.symbol? size (.nonterminal nt)
      if s.hasEpsilon then exploreBody? size visit rest k else return .ok k

/-- Explores bodies one after the other. -/
def exploreBodies? (size : Nat)
    (visit : Nat → KnownFirst → Option (Except LeftRecursion KnownFirst)) :
    List (List Symbol) → KnownFirst → Option (Except LeftRecursion KnownFirst)
  | [], k => some (.ok k)
  | body :: bodies, k =>
    proceed (exploreBody? size visit body k) fun k => exploreBodies? size visit bodies k

namespace Grammar

variable (g : Grammar)

/-- What the alternatives of a nonterminal can begin with. -/
def unionFirst? (first : Symbol → Option LookaheadSet) (nt : Nat) : Option LookaheadSet := do
  let sets ← (← g.bodies? nt).mapM (bodyFirst? g.terminals.size first)
  return sets.foldl .union g.emptySet

/-- **Explores a nonterminal**, whose alternatives are looked up even if its set is known. -/
def visit? : (fuel : Nat) → (path : List Nat) → (nt : Nat) → KnownFirst →
    Option (Except LeftRecursion KnownFirst)
  | 0, path, nt, k => some (.error ⟨nt, cycleOf path nt, k⟩)
  | fuel + 1, path, nt, k => do
    let bodies ← g.bodies? nt
    if (k.find? nt).isSome then return .ok k
    else if nt ∈ path then return .error ⟨nt, cycleOf path nt, k⟩
    else
      proceed (exploreBodies? g.terminals.size (visit? fuel (nt :: path)) bodies k) fun k => do
        return .ok (k.record nt (← g.unionFirst? (k.symbol? g.terminals.size) nt))

/-- Explores nonterminals one after the other. -/
def visitAll? : List Nat → KnownFirst → Option (Except LeftRecursion KnownFirst)
  | [], k => some (.ok k)
  | nt :: rest, k =>
    proceed (g.visit? (g.nonterminals.size + 1) [] nt k) fun k => visitAll? rest k

/-- **What can come first** in a grammar, unless a lookup misses. -/
def firstSets? : Option (Except LeftRecursion FirstSets) :=
  proceed (g.visitAll? (List.range g.nonterminals.size) {}) fun k => do
    let first := k.symbol? g.terminals.size
    let nonterminals ← (Array.range g.nonterminals.size).mapM fun nt => first (.nonterminal nt)
    let productions ← g.productions.mapM fun p => bodyFirst? g.terminals.size first p.body
    return .ok {
      size := g.terminals.size
      nonterminals, productions
      order := (k.finished.map (·.1)).reverse }

end Grammar

/-! ## Nothing is missed -/

section Explore

variable {g : Grammar} {k : KnownFirst} {size : Nat}

/-- The bodies of a recorded nonterminal are covered. -/
theorem Grammar.Recorded.covers (h : g.Recorded k) {nt : Nat} (hnt : (k.find? nt).isSome)
    {body : List Symbol} (hbody : body ∈ g.bodies nt) : k.Covers g.terminals.size body := by
  obtain ⟨s, hs⟩ := Option.isSome_iff_exists.mp hnt
  obtain ⟨older, -, hwithin, hcovers, -⟩ := h.exists_older hs
  exact (hcovers body hbody).mono hwithin

theorem KnownFirst.symbol?_nonterminal {nt : Nat} (h : (k.find? nt).isSome) :
    k.symbol? size (.nonterminal nt) = some (k.symbol size (.nonterminal nt)) := by
  obtain ⟨s, hs⟩ := Option.isSome_iff_exists.mp h
  rw [symbol?, symbol, hs]
  rfl

/-- **The set of a covered body is found**: of such a body just the symbols are known that are
looked up. -/
theorem KnownFirst.Covers.bodyFirst?_eq {body : List Symbol} (h : k.Covers size body) :
    bodyFirst? size (k.symbol? size) body = some (bodyFirst size (k.symbol size) body) := by
  induction body with
  | nil => rfl
  | cons x rest ih =>
    rw [bodyFirst?, bodyFirst]
    cases x with
    | terminal t =>
      -- a terminal cannot vanish, so nothing behind it is looked up
      have ht : k.symbol? size (.terminal t) = some (k.symbol size (.terminal t)) := if_pos h
      have heps : (k.symbol size (.terminal t)).hasEpsilon = false :=
        LookaheadSet.hasEpsilon_singleton h
      simp only [ht, heps, Option.bind_eq_bind, Option.bind_some, Bool.false_eq_true, if_false]
      rfl
    | nonterminal nt =>
      rw [symbol?_nonterminal h.1]
      by_cases heps : (k.symbol size (.nonterminal nt)).hasEpsilon = true
      · simp only [Option.bind_eq_bind, Option.bind_some, if_pos heps, ih (h.2 heps)]
        rfl
      · simp only [Option.bind_eq_bind, Option.bind_some, if_neg heps]
        rfl

variable {visit? : Nat → KnownFirst → Option (Except LeftRecursion KnownFirst)}
  {visit : Nat → KnownFirst → Except LeftRecursion KnownFirst}

/-- **Exploring a body misses nothing** if exploring a nonterminal does not, and records it. -/
theorem exploreBody?_eq
    (hvisit : ∀ nt < g.nonterminals.size, ∀ k, visit? nt k = some (visit nt k))
    (hrecord : ∀ nt k k', visit nt k = .ok k' → (k'.find? nt).isSome)
    {body : List Symbol} (hbody : ∀ x ∈ body, g.HasSymbol x) :
    exploreBody? size visit? body k = some (exploreBody size visit body k) := by
  induction body generalizing k with
  | nil => rfl
  | cons x rest ih =>
    have hx := hbody x List.mem_cons_self
    cases x with
    | terminal t => rfl
    | nonterminal nt =>
      rw [exploreBody?, exploreBody, hvisit nt hx]
      refine proceed_some fun k' hk' => ?_
      rw [KnownFirst.symbol?_nonterminal (hrecord nt k k' hk')]
      by_cases heps : (k'.symbol size (.nonterminal nt)).hasEpsilon = true
      · simp only [Option.bind_eq_bind, Option.bind_some, if_pos heps]
        exact ih fun y hy => hbody y (List.mem_cons_of_mem _ hy)
      · simp only [Option.bind_eq_bind, Option.bind_some, if_neg heps]
        rfl

theorem exploreBodies?_eq
    (hvisit : ∀ nt < g.nonterminals.size, ∀ k, visit? nt k = some (visit nt k))
    (hrecord : ∀ nt k k', visit nt k = .ok k' → (k'.find? nt).isSome)
    {bodies : List (List Symbol)} (hbodies : ∀ body ∈ bodies, ∀ x ∈ body, g.HasSymbol x) :
    exploreBodies? size visit? bodies k = some (exploreBodies size visit bodies k) := by
  induction bodies generalizing k with
  | nil => rfl
  | cons body bodies ih =>
    rw [exploreBodies?, exploreBodies,
      exploreBody?_eq hvisit hrecord (hbodies body List.mem_cons_self)]
    exact proceed_some fun k' _ => ih fun b hb => hbodies b (List.mem_cons_of_mem _ hb)

end Explore

namespace Grammar.WellFormed

variable {g : Grammar} (wf : g.WellFormed)

include wf

theorem unionFirst?_eq {k : KnownFirst} {nt : Nat} (hnt : nt < g.nonterminals.size)
    (hcovers : ∀ body ∈ g.bodies nt, k.Covers g.terminals.size body) :
    g.unionFirst? (k.symbol? g.terminals.size) nt =
      some (g.unionFirst (k.symbol g.terminals.size) nt) := by
  have hsets := mapM_eq_some_map fun body hbody => (hcovers body hbody).bodyFirst?_eq
  simp [unionFirst?, wf.bodies?_eq hnt, hsets, unionFirst, List.foldl_map]

/-- **Exploring a nonterminal misses nothing.** -/
theorem visit?_eq (fuel : Nat) (path : List Nat) {nt : Nat} (hnt : nt < g.nonterminals.size)
    (k : KnownFirst) : g.visit? fuel path nt k = some (g.visit fuel path nt k) := by
  induction fuel generalizing path nt k with
  | zero => rfl
  | succ fuel ih =>
    rw [visit?, visit, wf.bodies?_eq hnt]
    show (if (k.find? nt).isSome then some (Except.ok k) else _) = _
    by_cases hknown : (k.find? nt).isSome
    · rw [if_pos hknown, if_pos hknown]
    · rw [if_neg hknown, if_neg hknown]
      by_cases hpath : nt ∈ path
      · rw [if_pos hpath, if_pos hpath]
        rfl
      · rw [if_neg hpath, if_neg hpath,
          exploreBodies?_eq (fun m hm k => ih (nt :: path) hm k)
            (fun m k k' hm => (visit_progress wf hm).2) fun _ => wf.hasSymbol_of_mem_bodies]
        refine proceed_some fun k' hk' => ?_
        have hvisit (m : Nat) (k k' : KnownFirst) (hm : g.visit fuel (nt :: path) m k = .ok k') :
            g.Progress (nt :: path) k k' ∧ (k'.find? m).isSome := visit_progress wf hm
        have hcovers :=
          (exploreBodies_progress hvisit (fun _ => wf.hasSymbol_of_mem_bodies) hk').2
        rw [wf.unionFirst?_eq hnt hcovers]
        rfl

theorem visitAll?_eq {nts : List Nat} (hnts : ∀ nt ∈ nts, nt < g.nonterminals.size)
    (k : KnownFirst) : g.visitAll? nts k = some (g.visitAll nts k) := by
  induction nts generalizing k with
  | nil => rfl
  | cons nt nts ih =>
    rw [visitAll?, visitAll, wf.visit?_eq _ _ (hnts nt List.mem_cons_self)]
    exact proceed_some fun k' _ => ih (fun m hm => hnts m (List.mem_cons_of_mem _ hm)) k'

/-- **The search for what can come first misses nothing.** -/
theorem firstSets?_eq : g.firstSets? = some g.firstSets := by
  rw [firstSets?, firstSets, wf.visitAll?_eq fun nt hnt => List.mem_range.mp hnt]
  refine proceed_some fun k hk => ?_
  obtain ⟨hprogress, hall⟩ := visitAll_progress wf hk
  have hnonterminals : (Array.range g.nonterminals.size).mapM
      (fun nt => k.symbol? g.terminals.size (.nonterminal nt)) =
      some ((Array.range g.nonterminals.size).map fun nt =>
        k.symbol g.terminals.size (.nonterminal nt)) := by
    refine array_mapM_eq_some_map fun nt hnt => KnownFirst.symbol?_nonterminal (hall nt ?_)
    simpa using hnt
  have hproductions : g.productions.mapM (fun p =>
      bodyFirst? g.terminals.size (k.symbol? g.terminals.size) p.body) =
      some (g.productions.map fun p =>
        bodyFirst g.terminals.size (k.symbol g.terminals.size) p.body) := by
    refine array_mapM_eq_some_map fun p hp => KnownFirst.Covers.bodyFirst?_eq ?_
    refine (hprogress.recorded .empty).covers (hall p.head ?_) (wf.mem_bodies.mpr ⟨p, hp, rfl, rfl⟩)
    exact List.mem_range.mpr (wf.head_lt p hp)
  simp only [hnonterminals, hproductions]
  rfl

end Grammar.WellFormed

/-! ## The sets that are found -/

/-- A set that is made for the terminals of a grammar can be shown. -/
theorem LookaheadSet.shown?_eq {s : LookaheadSet} {terminalNames : Array String}
    (h : s.size = terminalNames.size) :
    s.shown? terminalNames = some (s.names terminalNames, s.describe terminalNames) := by
  have hnamed : s.isNamed terminalNames = true := by
    rw [isNamed, List.all_eq_true]
    intro t ht
    exact decide_eq_true (h ▸ (mem_terminals.mp ht).2)
  exact if_pos hnamed

namespace FirstSets

/-- What a symbol can begin with: both kinds of symbols have to be symbols of the grammar. -/
def symbol? (f : FirstSets) : Symbol → Option LookaheadSet
  | .terminal t => if t < f.size then some (.singleton f.size t) else none
  | .nonterminal nt => f.nonterminals[nt]?

/-- Whether a symbol can vanish. -/
def nullable? (f : FirstSets) (x : Symbol) : Option Bool := do return (← f.symbol? x).hasEpsilon

variable {g : Grammar} {f : FirstSets} (h : g.firstSets = .ok f)

include h

/-- There is a set for each symbol of the grammar. -/
theorem symbol?_eq {x : Symbol} (hx : g.HasSymbol x) : f.symbol? x = some (f.symbol x) := by
  simp only [Grammar.firstSets, bind_eq_ok, pure_eq_ok] at h
  obtain ⟨k, -, rfl⟩ := h
  cases x with
  | terminal t => exact if_pos hx
  | nonterminal nt =>
    have hnt : nt < g.nonterminals.size := hx
    simp [symbol?, symbol, nonterminal, hnt]

theorem nullable?_eq {x : Symbol} (hx : g.HasSymbol x) : f.nullable? x = some (f.nullable x) := by
  rw [nullable?, symbol?_eq h hx]
  rfl

/-- There is a set for each production of the grammar. -/
theorem production?_eq {p : Nat} (hp : p < g.productions.size) :
    f.productions[p]? = some (f.production p) := by
  simp only [Grammar.firstSets, bind_eq_ok, pure_eq_ok] at h
  obtain ⟨k, -, rfl⟩ := h
  simp [production, hp]

end FirstSets

end PredictiveParsing
