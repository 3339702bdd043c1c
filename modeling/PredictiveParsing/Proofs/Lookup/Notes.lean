import PredictiveParsing.Proofs.Lookup.Compiled
import PredictiveParsing.Session

/-!
# Reporting without a lookup that misses

When a grammar is compiled its sets, the nonterminals that are not reachable and the clashes are
noted, and a nonterminal that can begin with itself is reported. For that the names of symbols and
the written forms of productions are looked up.

## Main definitions

* `KnownFirst.Bounded`: a record knows nonterminals of the grammar only
* `Compiled.notes?`, `LeftRecursion.notes?`: the notes, stopped by a lookup that misses
* `Grammar.report?`: the compilation with its notes

## Main results

* `Grammar.WellFormed.visit_leaves`: the search records nonterminals of the grammar only
* `Grammar.WellFormed.report?_eq`: compiling and noting misses nothing
-/

namespace PredictiveParsing

/-! ## What a search leaves behind -/

/-- **A record knows nonterminals of the grammar only**, and its sets are made for the terminals
of the grammar. -/
def KnownFirst.Bounded (g : Grammar) (k : KnownFirst) : Prop :=
  ∀ entry ∈ k.finished, entry.1 < g.nonterminals.size ∧ entry.2.size = g.terminals.size

/-- A report is about nonterminals of the grammar. -/
structure LeftRecursion.Bounded (g : Grammar) (e : LeftRecursion) : Prop where
  /-- The one that can begin with itself. -/
  nonterminal : e.nonterminal < g.nonterminals.size
  /-- Those on the way. -/
  cycle : ∀ nt ∈ e.cycle, nt < g.nonterminals.size
  /-- Those that were recorded before. -/
  known : e.known.Bounded g

/-- **What a search leaves behind**, whether it succeeds or fails. -/
def Grammar.Leaves (g : Grammar) : Except LeftRecursion KnownFirst → Prop
  | .ok k => k.Bounded g
  | .error e => e.Bounded g

namespace Grammar

variable {g : Grammar} {k : KnownFirst}

/-- What is reported of a nonterminal that is met again is on the path to it. -/
theorem bounded_cycleOf {path : List Nat} {nt : Nat}
    (hpath : ∀ m ∈ nt :: path, m < g.nonterminals.size) (hk : k.Bounded g) :
    LeftRecursion.Bounded g ⟨nt, cycleOf path nt, k⟩ := by
  refine ⟨hpath nt List.mem_cons_self, fun m hm => hpath m ?_, hk⟩
  have hsub : (path.takeWhile (· != nt)).Sublist path := List.takeWhile_sublist _
  simp only [cycleOf, List.cons_append, List.mem_cons, List.mem_append, List.mem_reverse,
    List.not_mem_nil, or_false] at hm
  rcases hm with rfl | hm | rfl
  · exact List.mem_cons_self
  · exact List.mem_cons_of_mem nt (hsub.subset hm)
  · exact List.mem_cons_self

theorem Leaves.bind {x : Except LeftRecursion KnownFirst}
    {next : KnownFirst → Except LeftRecursion KnownFirst} (hx : g.Leaves x)
    (hnext : ∀ k, k.Bounded g → g.Leaves (next k)) : g.Leaves (x >>= next) := by
  cases x with
  | error e => exact hx
  | ok k => exact hnext k hx

section Explore

variable {visit : Nat → KnownFirst → Except LeftRecursion KnownFirst} {size : Nat}

theorem exploreBody_leaves
    (hvisit : ∀ nt < g.nonterminals.size, ∀ k, k.Bounded g → g.Leaves (visit nt k))
    {body : List Symbol} (hbody : ∀ x ∈ body, g.HasSymbol x) (hk : k.Bounded g) :
    g.Leaves (exploreBody size visit body k) := by
  induction body generalizing k with
  | nil => exact hk
  | cons x rest ih =>
    have hx := hbody x List.mem_cons_self
    cases x with
    | terminal t => exact hk
    | nonterminal nt =>
      refine (hvisit nt hx k hk).bind fun k' hk' => ?_
      split
      · exact ih (fun y hy => hbody y (List.mem_cons_of_mem _ hy)) hk'
      · exact hk'

theorem exploreBodies_leaves
    (hvisit : ∀ nt < g.nonterminals.size, ∀ k, k.Bounded g → g.Leaves (visit nt k))
    {bodies : List (List Symbol)} (hbodies : ∀ body ∈ bodies, ∀ x ∈ body, g.HasSymbol x)
    (hk : k.Bounded g) : g.Leaves (exploreBodies size visit bodies k) := by
  induction bodies generalizing k with
  | nil => exact hk
  | cons body bodies ih =>
    have hfirst : g.Leaves (exploreBody size visit body k) :=
      exploreBody_leaves hvisit (hbodies body List.mem_cons_self) hk
    exact hfirst.bind fun k' hk' => ih (fun b hb => hbodies b (List.mem_cons_of_mem _ hb)) hk'

end Explore

namespace WellFormed

variable (wf : g.WellFormed)

include wf

/-- **The search records nonterminals of the grammar only.** -/
theorem visit_leaves (fuel : Nat) {path : List Nat} {nt : Nat}
    (hpath : ∀ m ∈ nt :: path, m < g.nonterminals.size) (hk : k.Bounded g) :
    g.Leaves (g.visit fuel path nt k) := by
  induction fuel generalizing path nt k with
  | zero => exact bounded_cycleOf hpath hk
  | succ fuel ih =>
    rw [visit]
    split
    · exact hk
    · split
      · exact bounded_cycleOf hpath hk
      · have hvisit (m : Nat) (hm : m < g.nonterminals.size) (k : KnownFirst) (hk : k.Bounded g) :
            g.Leaves (g.visit fuel (nt :: path) m k) :=
          ih (List.forall_mem_cons.mpr ⟨hm, hpath⟩) hk
        refine (exploreBodies_leaves hvisit (fun _ => wf.hasSymbol_of_mem_bodies) hk).bind
          fun k' hk' entry hentry => ?_
        rcases List.mem_cons.mp hentry with rfl | hentry
        · exact ⟨hpath nt List.mem_cons_self, size_unionFirst⟩
        · exact hk' entry hentry

theorem visitAll_leaves {nts : List Nat} (hnts : ∀ nt ∈ nts, nt < g.nonterminals.size)
    (hk : k.Bounded g) : g.Leaves (g.visitAll nts k) := by
  induction nts generalizing k with
  | nil => exact hk
  | cons nt nts ih =>
    have hpath : ∀ m ∈ [nt], m < g.nonterminals.size := by simpa using hnts nt List.mem_cons_self
    have hnt := wf.visit_leaves (g.nonterminals.size + 1) hpath hk
    exact hnt.bind fun k' hk' => ih (fun m hm => hnts m (List.mem_cons_of_mem _ hm)) hk'

/-- The whole search starts with nothing recorded. -/
theorem search_leaves : g.Leaves (g.visitAll (List.range g.nonterminals.size) {}) :=
  wf.visitAll_leaves (fun _ hnt => List.mem_range.mp hnt) fun _ hentry =>
    absurd hentry List.not_mem_nil

/-- A search that fails reports nonterminals of the grammar. -/
theorem bounded_of_compile_error {e : LeftRecursion} (h : g.compile = .error e) : e.Bounded g := by
  simp only [compile, analyze, firstSets, bind_eq_error, pure_ne_error, and_false, exists_false,
    or_false] at h
  have hleaves := wf.search_leaves
  rw [h] at hleaves
  exact hleaves

/-- The order of a search that succeeds has nonterminals of the grammar. -/
theorem lt_of_mem_order {f : FirstSets} (h : g.firstSets = .ok f) {nt : Nat} (hnt : nt ∈ f.order) :
    nt < g.nonterminals.size := by
  simp only [firstSets, bind_eq_ok, pure_eq_ok] at h
  obtain ⟨k, hk, rfl⟩ := h
  have hleaves := wf.search_leaves
  rw [hk] at hleaves
  obtain ⟨entry, hentry, rfl⟩ := List.mem_map.mp (List.mem_reverse.mp hnt)
  exact (hleaves entry hentry).1

end WellFormed

end Grammar

/-! ## Names and written forms -/

namespace Grammar

variable (g : Grammar)

/-- The name of a terminal. -/
def terminalName? (t : Nat) : Option String := do return (← g.terminals[t]?).name

/-- The name of a nonterminal. -/
def nonterminalName? (nt : Nat) : Option String := do return (← g.nonterminals[nt]?).name

/-- The name of a symbol. -/
def symbolName? : Symbol → Option String
  | .terminal t => g.terminalName? t
  | .nonterminal nt => g.nonterminalName? nt

/-- The written form of a lookahead set, whose terminals have to have names. -/
def describeSet? (s : LookaheadSet) : Option String := do return (← s.shown? g.terminalNames).2

/-- The written form of the production with a number. -/
def describeNumbered? (p : Nat) : Option String := do
  let production ← g.productions[p]?
  let names ← production.body.mapM g.symbolName?
  let symbols := if production.body.isEmpty then " $" else String.join (names.map (" " ++ ·))
  return (← g.nonterminalName? production.head) ++ " :=" ++ symbols ++
    (production.binding.map (·.describe)).getD ""

variable {g}

theorem terminalName?_eq {t : Nat} (h : t < g.terminals.size) :
    g.terminalName? t = some (g.terminalName t) := by
  simp [terminalName?, terminalName, h]

theorem nonterminalName?_eq {nt : Nat} (h : nt < g.nonterminals.size) :
    g.nonterminalName? nt = some (g.nonterminalName nt) := by
  simp [nonterminalName?, nonterminalName, h]

theorem symbolName?_eq {x : Symbol} (h : g.HasSymbol x) :
    g.symbolName? x = some (g.symbolName x) := by
  cases x with
  | terminal t => exact terminalName?_eq h
  | nonterminal nt => exact nonterminalName?_eq h

theorem describeSet?_eq {s : LookaheadSet} (h : s.size = g.terminals.size) :
    g.describeSet? s = some (g.describeSet s) := by
  rw [describeSet?, LookaheadSet.shown?_eq]
  · rfl
  · rw [h, terminalNames, Array.size_map]

theorem WellFormed.describeNumbered?_eq (wf : g.WellFormed) {p : Nat}
    (hp : p < g.productions.size) : g.describeNumbered? p = some (g.describeNumbered p) := by
  have hmem : g.productions[p] ∈ g.productions := Array.getElem_mem hp
  have hnames := mapM_eq_some_map fun x hx => symbolName?_eq (wf.body_mem _ hmem x hx)
  simp only [describeNumbered?, describeNumbered, Array.getElem?_eq_getElem hp, hnames,
    nonterminalName?_eq (wf.head_lt _ hmem), Option.bind_eq_bind, Option.bind_some,
    Option.map_some, Option.getD_some, List.map_map]
  rfl

end Grammar

/-! ## Clashes -/

namespace Conflict

/-- The written form of a conflict. -/
def describe? (c : Conflict) (g : Grammar) : Option String := do
  let clash ← match c.clash with
    | .terminal t => g.terminalName? t
    | .epsilon => some "$"
  return "`" ++ (← g.nonterminalName? c.nonterminal) ++ "` on " ++ clash ++ ": `" ++
    (← g.describeNumbered? c.chosen) ++ "` shadows `" ++ (← g.describeNumbered? c.shadowed) ++ "`"

/-- **A conflict is one between productions of a grammar**, on one of its terminals. -/
structure Bounded (g : Grammar) (c : Conflict) : Prop where
  /-- The nonterminal. -/
  nonterminal : c.nonterminal < g.nonterminals.size
  /-- The terminal, if the clash is on one. -/
  clash : ∀ t, c.clash = .terminal t → t < g.terminals.size
  /-- The production that is taken. -/
  chosen : c.chosen < g.productions.size
  /-- The other one. -/
  shadowed : c.shadowed < g.productions.size

theorem Bounded.describe?_eq {g : Grammar} (wf : g.WellFormed) {c : Conflict} (h : c.Bounded g) :
    c.describe? g = some (c.describe g) := by
  rw [describe?, describe, Grammar.nonterminalName?_eq h.nonterminal,
    wf.describeNumbered?_eq h.chosen, wf.describeNumbered?_eq h.shadowed]
  cases hclash : c.clash with
  | terminal t =>
    simp only [Grammar.terminalName?_eq (h.clash t hclash)]
    rfl
  | epsilon => rfl

end Conflict

/-- A clash between two alternatives is one of the nonterminal, on something that both accept. -/
theorem Prediction.eq_of_mem_clashes {first : Nat → LookaheadSet} {nt chosen shadowed : Nat}
    {c : Conflict} (h : c ∈ clashes first nt chosen shadowed) :
    c.nonterminal = nt ∧ c.chosen = chosen ∧ c.shadowed = shadowed ∧
      ∀ t, c.clash = .terminal t → t < (first chosen).size := by
  rcases List.mem_append.mp h with h | h
  · obtain ⟨t, ht, rfl⟩ := List.mem_map.mp h
    refine ⟨rfl, rfl, rfl, fun t' ht' => ?_⟩
    cases ht'
    exact (LookaheadSet.mem_terminals.mp ht).2
  · split at h
    · obtain rfl := List.mem_singleton.mp h
      exact ⟨rfl, rfl, rfl, fun t' ht' => nomatch ht'⟩
    · exact absurd h List.not_mem_nil

/-- The clashes of a nonterminal are among its alternatives. -/
theorem Prediction.mem_of_mem_conflictsOf {first : Nat → LookaheadSet} {nt : Nat}
    {alternatives : List Nat} {c : Conflict} (h : c ∈ conflictsOf first nt alternatives) :
    c.nonterminal = nt ∧ c.chosen ∈ alternatives ∧ c.shadowed ∈ alternatives ∧
      ∀ t, c.clash = .terminal t → t < (first c.chosen).size := by
  induction alternatives with
  | nil => exact absurd h List.not_mem_nil
  | cons chosen later ih =>
    rcases List.mem_append.mp h with h | h
    · obtain ⟨shadowed, hshadowed, h⟩ := List.mem_flatMap.mp h
      obtain ⟨hnt, rfl, rfl, hclash⟩ := eq_of_mem_clashes h
      exact ⟨hnt, List.mem_cons_self, List.mem_cons_of_mem _ hshadowed, hclash⟩
    · obtain ⟨hnt, hchosen, hshadowed, hclash⟩ := ih h
      exact ⟨hnt, List.mem_cons_of_mem _ hchosen, List.mem_cons_of_mem _ hshadowed, hclash⟩

theorem Compiled.Coherent.bounded_conflict {c : Compiled} (hc : c.Coherent) {conflict : Conflict}
    (h : conflict ∈ c.prediction.conflicts) : conflict.Bounded c.grammar := by
  rw [hc.prediction] at h
  obtain ⟨nt, hnt, h⟩ := List.mem_flatMap.mp h
  obtain ⟨rfl, hchosen, hshadowed, hclash⟩ := Prediction.mem_of_mem_conflictsOf h
  refine ⟨?_, ?_, hc.wellFormed.alternative_lt hchosen, hc.wellFormed.alternative_lt hshadowed⟩
  · rw [hc.reachable] at hnt
    exact hc.wellFormed.lt_of_mem_reachable hnt
  · rw [hc.size_production hchosen] at hclash
    exact hclash

/-! ## Notes -/

namespace Grammar

variable (g : Grammar)

/-- The note on what a nonterminal can begin with. -/
def firstNote? (nt : Nat) (s : LookaheadSet) : Option Note := do
  return ⟨.trace, "llgen::grammar::first",
    "FIRST(" ++ (← g.nonterminalName? nt) ++ ") = " ++ (← g.describeSet? s)⟩

/-- The nonterminals that are not reachable. -/
def unreachable? : Option (List Nat) := do
  let met ← g.reachable?
  return (List.range g.nonterminals.size).filter fun nt => !met.contains nt

/-- The note on a nonterminal that is not reachable. -/
def unreachableNote? (nt : Nat) : Option Note := do
  return ⟨.warn, "llgen::grammar::analysis",
    "nonterminal `" ++ (← g.nonterminalName? nt) ++ "` is not reachable from `" ++
      (← g.nonterminalName? g.start) ++ "`"⟩

variable {g}

theorem firstNote?_eq {nt : Nat} {s : LookaheadSet} (hnt : nt < g.nonterminals.size)
    (hs : s.size = g.terminals.size) : g.firstNote? nt s = some (g.firstNote nt s) := by
  rw [firstNote?, nonterminalName?_eq hnt, describeSet?_eq hs]
  rfl

theorem WellFormed.unreachable?_eq (wf : g.WellFormed) : g.unreachable? = some g.unreachable := by
  rw [unreachable?, wf.reachable?_eq]
  rfl

theorem WellFormed.unreachableNote?_eq (wf : g.WellFormed) {nt : Nat}
    (hnt : nt < g.nonterminals.size) : g.unreachableNote? nt = some (g.unreachableNote nt) := by
  rw [unreachableNote?, nonterminalName?_eq hnt, nonterminalName?_eq wf.start_lt]
  rfl

end Grammar

/-- The note on a conflict. -/
def Conflict.note? (g : Grammar) (c : Conflict) : Option Note := do
  return ⟨.warn, "llgen::parser::ll1", "LL(1) conflict: " ++ (← c.describe? g)⟩

/-- What is noted before a nonterminal turns out to begin with itself. -/
def LeftRecursion.notes? (e : LeftRecursion) (g : Grammar) : Option (List Note) :=
  e.known.finished.reverse.mapM fun (nt, s) => g.firstNote? nt s

/-- The fault of a grammar in which a nonterminal can begin with itself. -/
def LeftRecursion.toError? (e : LeftRecursion) (g : Grammar) : Option GrammarError := do
  return .leftRecursion (← g.nonterminalName? e.nonterminal) (← e.cycle.mapM g.nonterminalName?)

/-- **What is noted when a grammar is compiled**, unless a lookup misses. -/
def Compiled.notes? (c : Compiled) : Option (List Note) := do
  let g := c.grammar
  let first ← c.analysis.first.order.mapM fun nt => do
    g.firstNote? nt (← c.analysis.first.nonterminals[nt]?)
  let unreachable ← (← g.unreachable?).mapM g.unreachableNote?
  let conflicts ← c.prediction.conflicts.mapM (Conflict.note? g)
  let start ← g.nonterminalName? g.start
  return first ++ unreachable ++
    [⟨.trace, "llgen::grammar::follow",
      s!"FOLLOW sets settled after {c.analysis.rounds} rounds"⟩] ++ conflicts ++
    [⟨.debug, "llgen::compiled",
      "compiled grammar for `" ++ start ++
        s!"`: {c.analysis.reachable.length} reachable nonterminals, " ++
        s!"{c.prediction.conflicts.length} conflicts"⟩]

/-- **Compiles a grammar and notes what was done**, unless a lookup misses. -/
def Grammar.report? (g : Grammar) : Option (Except GrammarError Compiled × List Note) := do
  match ← g.compile? with
  | .ok c => return (.ok c, ← c.notes?)
  | .error e => return (.error (← e.toError? g), ← e.notes? g)

namespace LeftRecursion.Bounded

variable {g : Grammar} {e : LeftRecursion} (h : e.Bounded g)

include h

theorem notes?_eq : e.notes? g = some (e.notes g) := by
  refine mapM_eq_some_map fun entry hentry => ?_
  obtain ⟨hnt, hsize⟩ := h.known entry (List.mem_reverse.mp hentry)
  exact Grammar.firstNote?_eq hnt hsize

theorem toError?_eq : e.toError? g = some (e.toError g) := by
  have hcycle : e.cycle.mapM g.nonterminalName? = some (e.cycle.map g.nonterminalName) :=
    mapM_eq_some_map fun nt hnt => Grammar.nonterminalName?_eq (h.cycle nt hnt)
  rw [toError?, Grammar.nonterminalName?_eq h.nonterminal, hcycle]
  rfl

end LeftRecursion.Bounded

/-- **Noting what was done misses nothing.** -/
theorem Compiled.Coherent.notes?_eq {c : Compiled} (hc : c.Coherent) :
    c.notes? = some c.notes := by
  have wf := hc.wellFormed
  have hfirst : c.analysis.first.order.mapM (fun nt => do
      c.grammar.firstNote? nt (← c.analysis.first.nonterminals[nt]?)) =
      some (c.analysis.first.order.map fun nt =>
        c.grammar.firstNote nt (c.analysis.first.nonterminal nt)) := by
    refine mapM_eq_some_map fun nt hnt => ?_
    have hlt := wf.lt_of_mem_order hc.firstSets hnt
    have hset : c.analysis.first.nonterminals[nt]? = some (c.analysis.first.nonterminal nt) :=
      FirstSets.symbol?_eq hc.firstSets (x := .nonterminal nt) hlt
    rw [hset]
    exact Grammar.firstNote?_eq hlt (FirstSets.size_symbol wf hc.firstSets (.nonterminal nt))
  have hunreachable : c.grammar.unreachable.mapM c.grammar.unreachableNote? =
      some (c.grammar.unreachable.map c.grammar.unreachableNote) := by
    refine mapM_eq_some_map fun nt hnt => wf.unreachableNote?_eq ?_
    exact List.mem_range.mp (List.mem_filter.mp hnt).1
  have hconflicts : c.prediction.conflicts.mapM (Conflict.note? c.grammar) =
      some (c.prediction.conflicts.map (Conflict.note c.grammar)) := by
    refine mapM_eq_some_map fun conflict hconflict => ?_
    rw [Conflict.note?, (hc.bounded_conflict hconflict).describe?_eq wf]
    rfl
  rw [notes?, hfirst]
  simp only [wf.unreachable?_eq, hunreachable, hconflicts, Grammar.nonterminalName?_eq wf.start_lt,
    Option.bind_eq_bind, Option.bind_some]
  rfl

/-- **Compiling and noting misses nothing.** -/
theorem Grammar.WellFormed.report?_eq {g : Grammar} (wf : g.WellFormed)
    (hcoherent : ∀ c, g.compile = .ok c → c.Coherent) :
    g.report? = some (Session.compile g).finish := by
  rw [report?, wf.compile?_eq]
  cases h : g.compile with
  | ok c =>
    show (do return (Except.ok c, ← c.notes?)) = _
    rw [(hcoherent c h).notes?_eq]
    simp only [Session.compile, h]
    show some (Except.ok c, c.notes) = some (Except.ok c, (c.notes.reverse ++ []).reverse)
    rw [List.append_nil, List.reverse_reverse]
  | error e =>
    have hbounded := wf.bounded_of_compile_error h
    show (do return (Except.error (← e.toError? g), ← e.notes? g)) = _
    rw [hbounded.toError?_eq, hbounded.notes?_eq]
    simp only [Session.compile, h]
    show some (Except.error (e.toError g), e.notes g) =
      some (Except.error (e.toError g), ((e.notes g).reverse ++ []).reverse)
    rw [List.append_nil, List.reverse_reverse]

end PredictiveParsing
