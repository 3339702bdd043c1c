import Mathlib.Order.Bounds.Defs
import PredictiveParsing.Proofs.Analysis.SymbolGraph

/-!
# The end of a body that can vanish

A body is walked from its end, and the walk marks the place up to which everything behind it can
vanish. Every symbol from that place on ends the head, whatever other bodies have put into the sets
that its symbols share with them, so what comes after the head comes after each of these symbols.
In front of the place the walk goes on: a symbol is still followed by each symbol that only
vanishing ones part from it.

## Main definitions

* `Adjacency.markOf`: the place that the walk from the end of a body marks

## Main results

* `Adjacency.markOf_eq_lastPropagating`: it is the one that is kept for the body
* `lastPropagating_le_iff`: the marked place is the first one with nothing but vanishing symbols
  behind it
* `Adjacency.Connected.followers_of_lt`, `Adjacency.Connected.ends_of_forall`: a connected body, by
  places
* `Compiled.vanishing_suffix_closed`: what holds from the marked place on
-/

namespace PredictiveParsing

/-! ## Places in a list -/

section Places

variable {α : Type} {l : List α} {i j : Nat} {x y : α}

/-- An item of a list parts it into the items before it and those after it. -/
theorem exists_append_of_getElem? (h : l[i]? = some x) :
    ∃ before after, l = before ++ x :: after ∧ before.length = i := by
  obtain ⟨hi, rfl⟩ := List.getElem?_eq_some_iff.mp h
  refine ⟨l.take i, l.drop (i + 1), ?_, List.length_take_of_le (Nat.le_of_lt hi)⟩
  rw [← List.drop_eq_getElem_cons hi, List.take_append_drop]

/-- What stands behind a place stands at a later one. -/
theorem forall_mem_drop_iff {p : α → Prop} :
    (∀ y ∈ l.drop (i + 1), p y) ↔ ∀ j y, i < j → l[j]? = some y → p y := by
  constructor
  · intro h j y hij hy
    refine h y (List.mem_iff_getElem?.mpr ⟨j - (i + 1), ?_⟩)
    rwa [List.getElem?_drop, Nat.add_sub_cancel' hij]
  · intro h y hy
    obtain ⟨m, hm⟩ := List.mem_iff_getElem?.mp hy
    rw [List.getElem?_drop] at hm
    exact h (i + 1 + m) y (by omega) hm

/-- A run of items that satisfy a condition is as long as a part of the list just if all of that
part satisfies it. -/
theorem length_le_length_takeWhile_append {p : α → Bool} {l m : List α} :
    l.length ≤ ((l ++ m).takeWhile p).length ↔ ∀ a ∈ l, p a = true := by
  induction l with
  | nil => simp
  | cons a l ih => by_cases ha : p a = true <;> simp [ha, ih]

end Places

/-! ## The marked place -/

namespace Adjacency

/-- The walk from the end of a body, in the same steps as `inherit`, with the place that is marked
so far. The mark moves along for as long as nothing has been passed that cannot vanish; then it
stays, although the walk goes on. -/
def markFrom (nullable : Symbol → Bool) (unbroken : Bool) (mark : Nat) (right : Symbol) :
    List Symbol → Nat
  | [] => mark
  | left :: rest =>
    if nullable right then
      -- the list holds the symbols before `left`, so its length is the place of `left`
      markFrom nullable unbroken (if unbroken then rest.length else mark) left rest
    else markFrom nullable false mark left rest

/-- **The place that the walk from the end of a body marks**; none if the body is empty. -/
def markOf (nullable : Symbol → Bool) (body : List Symbol) : Option Nat :=
  match body.reverse with
  | [] => none
  | last :: rest => some (markFrom nullable true rest.length last rest)

variable {nullable : Symbol → Bool}

theorem markFrom_broken (mark : Nat) (right : Symbol) (lefts : List Symbol) :
    markFrom nullable false mark right lefts = mark := by
  induction lefts generalizing right with
  | nil => rfl
  | cons left rest ih => simp [markFrom, ih]

theorem markFrom_unbroken (right : Symbol) (lefts : List Symbol) :
    markFrom nullable true lefts.length right lefts =
      lefts.length - ((right :: lefts).takeWhile nullable).length := by
  induction lefts generalizing right with
  | nil => exact (Nat.zero_sub _).symm
  | cons left rest ih =>
    rw [markFrom, List.takeWhile_cons]
    by_cases hright : nullable right = true
    · simp only [hright, if_true, ih, List.length_cons]
      omega
    · simp [hright, markFrom_broken]

/-- The walk marks the place that is counted from the run of vanishing symbols at the end. -/
theorem markOf_eq_lastPropagating (nullable : Symbol → Bool) (body : List Symbol) :
    markOf nullable body = lastPropagating nullable body := by
  unfold markOf lastPropagating
  cases hreverse : body.reverse with
  | nil => simp [List.reverse_eq_nil_iff.mp hreverse]
  | cons last rest =>
    have hlength : body.length = rest.length + 1 := by
      rw [← List.length_reverse, hreverse, List.length_cons]
    have hne : body ≠ [] := List.length_pos_iff.mp (by omega)
    simp [markFrom_unbroken, hlength, hne]

end Adjacency

/-- **The marked place is the first behind which every symbol can vanish.** -/
theorem lastPropagating_le_iff {nullable : Symbol → Bool} {body : List Symbol} {k i : Nat}
    (h : lastPropagating nullable body = some k) :
    k ≤ i ↔ ∀ j y, i < j → body[j]? = some y → nullable y = true := by
  unfold lastPropagating at h
  split at h
  · cases h
  · obtain rfl := Option.some.inj h
    have hsplit : body.reverse = (body.drop (i + 1)).reverse ++ (body.take (i + 1)).reverse := by
      rw [← List.reverse_append, List.take_append_drop]
    have hrun : body.length - (i + 1) ≤ (body.reverse.takeWhile nullable).length ↔
        ∀ y ∈ body.drop (i + 1), nullable y = true := by
      rw [hsplit, ← List.length_drop, ← List.length_reverse, length_le_length_takeWhile_append]
      simp only [List.mem_reverse]
    rw [← forall_mem_drop_iff, ← hrun]
    omega

/-- A body that is not empty has a marked place, and a symbol stands there. -/
theorem exists_lastPropagating (nullable : Symbol → Bool) {body : List Symbol} (h : body ≠ []) :
    ∃ k last, lastPropagating nullable body = some k ∧ body[k]? = some last := by
  have hlength := List.length_pos_iff.mpr h
  have hk : body.length - 1 - (body.reverse.takeWhile nullable).length < body.length := by omega
  exact ⟨_, _, by simp [lastPropagating, h], List.getElem?_eq_getElem hk⟩

namespace Adjacency.Connected

variable {g : Grammar} {nullable : Symbol → Bool} {head : Nat} {a : Adjacency}
  {body : List Symbol} {i j : Nat} {x y : Symbol}

/-- In a connected body a symbol is followed by those that only vanishing ones part from it. -/
theorem followers_of_lt (h : Connected g nullable head a body) (hij : i < j)
    (hx : body[i]? = some x) (hy : body[j]? = some y)
    (hbetween : ∀ m z, i < m → m < j → body[m]? = some z → nullable z = true) :
    g.symbolId y ∈ a.followersOf (g.symbolId x) := by
  obtain ⟨before, rest, rfl, rfl⟩ := exists_append_of_getElem? hx
  have hrest (m : Nat) : rest[m]? = (before ++ x :: rest)[before.length + 1 + m]? := by
    rw [List.getElem?_append_right (by omega), ← List.getElem?_cons_succ]
    congr 1
    omega
  obtain ⟨between, after, rfl, hlength⟩ :=
    exists_append_of_getElem? (l := rest) (i := j - (before.length + 1)) (x := y)
      (by rwa [hrest, Nat.add_sub_cancel' hij])
  refine (h before x _ rfl).followers between y after rfl fun z hz => ?_
  obtain ⟨m, hm, rfl⟩ := List.getElem_of_mem hz
  refine hbetween (before.length + 1 + m) _ (by omega) (by omega) ?_
  rw [← hrest, List.getElem?_append_left hm, List.getElem?_eq_getElem hm]

/-- In a connected body a symbol ends the head if everything behind it can vanish. -/
theorem ends_of_forall (h : Connected g nullable head a body) (hx : body[i]? = some x)
    (hafter : ∀ j y, i < j → body[j]? = some y → nullable y = true) :
    head ∈ a.endedBy (g.symbolId x) := by
  obtain ⟨before, rest, rfl, rfl⟩ := exists_append_of_getElem? hx
  refine (h before x rest rfl).ends fun z hz => ?_
  refine forall_mem_drop_iff.mpr hafter z ?_
  simpa using hz

end Adjacency.Connected

/-! ## Reachable productions -/

/-- What stands in the body of a production is a symbol of the grammar. -/
theorem Grammar.WellFormed.hasSymbol_of_getElem? {g : Grammar} (wf : g.WellFormed) {p i : Nat}
    {production : Production} {x : Symbol} (hp : g.productions[p]? = some production)
    (hx : production.body[i]? = some x) : g.HasSymbol x :=
  wf.body_mem production (Array.mem_of_getElem? hp) x (List.mem_of_getElem? hx)

namespace Compiled

namespace Coherent

variable {c : Compiled} (hc : c.Coherent) {p : Nat} {production : Production} {i j : Nat}
  {x y : Symbol}

include hc

/-- A symbol of a body can vanish just if it derives the empty text. -/
theorem nullable_iff_of_getElem? (hp : c.grammar.productions[p]? = some production)
    (hy : production.body[j]? = some y) :
    c.analysis.first.nullable y = true ↔ c.grammar.Derives [y] [] :=
  FirstSets.nullable_iff hc.wellFormed hc.firstSets (hc.wellFormed.hasSymbol_of_getElem? hp hy)

/-- What comes after the head comes after the symbols that end it. -/
theorem mem_follow_of_mem_endsOf (hp : c.grammar.productions[p]? = some production)
    (hx : production.body[i]? = some x) {slot : Nat}
    (hend : production.head ∈ c.analysis.endsOf c.grammar x)
    (hslot : slot ∈ (c.analysis.follow c.grammar (.nonterminal production.head)).slots) :
    slot ∈ (c.analysis.follow c.grammar x).slots := by
  have hsymbol := hc.wellFormed.hasSymbol_of_getElem? hp hx
  exact hc.mem_follow_of_endedBy hsymbol (IndexSet.mem_def.mpr hend) hslot

variable (hp : c.grammar.productions[p]? = some production)
  (hreach : c.grammar.Occurs (.nonterminal production.head))

include hp hreach

/-- The body of a reachable production is connected by the relations that are found. -/
theorem connected_of_occurs : Adjacency.Connected c.grammar c.analysis.first.nullable
    production.head c.analysis.adjacency production.body := by
  have hmem := (hc.wellFormed.mem_alternatives production.head p).mpr ⟨production, hp, rfl⟩
  have hconnected := hc.wellFormed.adjacency_connected c.analysis.first.nullable
    (hc.wellFormed.mem_reachable_iff.mpr hreach) hmem
  rwa [← hc.adjacency, Grammar.body_of_getElem? hp] at hconnected

/-- The marked place of a reachable production is that of its body. -/
theorem lastPropagating_eq : c.analysis.lastPropagating c.grammar p =
    PredictiveParsing.lastPropagating c.analysis.first.nullable production.body := by
  have hmem : production.head ∈ c.analysis.reachable :=
    hc.reachable ▸ hc.wellFormed.mem_reachable_iff.mpr hreach
  simp [Analysis.lastPropagating, hp, Analysis.isReachable, hmem]

/-- A symbol ends the head if all symbols behind it derive the empty text. -/
theorem mem_endsOf_of_vanishing (hx : production.body[i]? = some x)
    (hafter : ∀ j y, i < j → production.body[j]? = some y → c.grammar.Derives [y] []) :
    production.head ∈ c.analysis.endsOf c.grammar x := by
  refine IndexSet.mem_def.mp ((hc.connected_of_occurs hp hreach).ends_of_forall hx ?_)
  exact fun j y hij hy => (hc.nullable_iff_of_getElem? hp hy).mpr (hafter j y hij hy)

/-- A symbol is followed by those that only symbols part from it which derive the empty text. -/
theorem mem_followers_of_vanishing (hij : i < j) (hx : production.body[i]? = some x)
    (hy : production.body[j]? = some y)
    (hbetween : ∀ m z, i < m → m < j → production.body[m]? = some z → c.grammar.Derives [z] []) :
    y ∈ c.analysis.followers c.grammar x := by
  have hsymbol := hc.wellFormed.hasSymbol_of_getElem? hp hy
  have hfollower := (hc.connected_of_occurs hp hreach).followers_of_lt hij hx hy
    fun m z him hmj hz => (hc.nullable_iff_of_getElem? hp hz).mpr (hbetween m z him hmj hz)
  exact List.mem_map.mpr ⟨_, IndexSet.mem_def.mp hfollower,
    Grammar.symbolOfId_symbolId_of_hasSymbol hsymbol⟩

end Coherent

/-- **The end of a body that can vanish is closed.** The place that the walk marks in a reachable
production whose body is not empty is the least one behind which every symbol derives the empty
text. From there on each symbol ends the head and is followed by all that comes after the head, in
particular the symbol whose FOLLOW counts as that of the production. Anywhere in the body a symbol
is followed by each later one, if all symbols between the two derive the empty text. -/
theorem vanishing_suffix_closed {engine : PatternEngine} {d : Declarations} {g : Grammar}
    {c : Compiled} (hbuild : d.build engine = .ok g) (hcompile : g.compile = .ok c) {p : Nat}
    {production : Production} (hp : g.productions[p]? = some production)
    (hreach : g.Occurs (.nonterminal production.head)) (hbody : production.body ≠ []) :
    ∃ k last, c.analysis.lastPropagating g p = some k ∧
      Adjacency.markOf c.analysis.first.nullable production.body = some k ∧
      production.body[k]? = some last ∧
      IsLeast {i : Nat | ∀ j y, i < j → production.body[j]? = some y → g.Derives [y] []} k ∧
      (∀ j y, k ≤ j → production.body[j]? = some y →
        production.head ∈ c.analysis.endsOf g y ∧
        ∀ slot ∈ (c.analysis.follow g (.nonterminal production.head)).slots,
          slot ∈ (c.analysis.follow g y).slots) ∧
      (∀ (i j : Nat) x y, i < j → production.body[i]? = some x → production.body[j]? = some y →
        (∀ m z, i < m → m < j → production.body[m]? = some z → g.Derives [z] []) →
        y ∈ c.analysis.followers g x) ∧
      c.analysis.productionFollow g p = some (c.analysis.follow g last) ∧
      ∀ slot ∈ (c.analysis.follow g (.nonterminal production.head)).slots,
        slot ∈ (c.analysis.follow g last).slots := by
  obtain ⟨rfl, hc⟩ := coherent hbuild hcompile
  obtain ⟨k, last, hmark, hlast⟩ := exists_lastPropagating c.analysis.first.nullable hbody
  have hk : c.analysis.lastPropagating c.grammar p = some k :=
    (hc.lastPropagating_eq hp hreach).trans hmark
  have hle (i : Nat) : k ≤ i ↔
      ∀ j y, i < j → production.body[j]? = some y → c.grammar.Derives [y] [] := by
    rw [lastPropagating_le_iff hmark]
    exact forall₃_congr fun j y _ => forall_congr' fun hy => hc.nullable_iff_of_getElem? hp hy
  have hclosed (j : Nat) (y : Symbol) (hkj : k ≤ j) (hy : production.body[j]? = some y) :
      production.head ∈ c.analysis.endsOf c.grammar y ∧
      ∀ slot ∈ (c.analysis.follow c.grammar (.nonterminal production.head)).slots,
        slot ∈ (c.analysis.follow c.grammar y).slots := by
    have hend := hc.mem_endsOf_of_vanishing hp hreach hy ((hle j).mp hkj)
    exact ⟨hend, fun slot => hc.mem_follow_of_mem_endsOf hp hy hend⟩
  have hwalk : Adjacency.markOf c.analysis.first.nullable production.body = some k :=
    (Adjacency.markOf_eq_lastPropagating _ _).trans hmark
  have hfollow : c.analysis.productionFollow c.grammar p =
      some (c.analysis.follow c.grammar last) := by
    simp [Analysis.productionFollow, hk, Grammar.body_of_getElem? hp, hlast]
  refine ⟨k, last, hk, hwalk, hlast, ⟨(hle k).mp (Nat.le_refl k), fun i hi => (hle i).mpr hi⟩,
    hclosed, ?_, hfollow, (hclosed k last (Nat.le_refl k) hlast).2⟩
  intro i j x y hij hx hy hbetween
  exact hc.mem_followers_of_vanishing hp hreach hij hx hy hbetween

/-- In `List := Item List` the second symbol derives the empty text, so the first one is marked. -/
theorem vanishing_suffix_closed_nested : ∃ g c production,
    Samples.nested.build Pattern.engine = .ok g ∧ g.compile = .ok c ∧
    g.productions[0]? = some production ∧ g.Occurs (.nonterminal production.head) ∧
    production.body ≠ [] ∧
    c.analysis.lastPropagating g 0 = some 0 ∧
    ∀ slot ∈ (c.analysis.follow g (.nonterminal production.head)).slots,
      slot ∈ (c.analysis.follow g (.nonterminal 1)).slots := by
  have hrun : ((Samples.nested.build Pattern.engine).toOption.bind fun g =>
      g.compile.toOption.map fun c => decide (
        g.start = 0 ∧ c.analysis.lastPropagating g 0 = some 0 ∧
        g.productions[0]?.map (·.head) = some 0 ∧
        g.productions[0]?.map (·.body) = some [.nonterminal 1, .nonterminal 0])) = some true := by
    decide +kernel
  simp only [Option.bind_eq_some_iff, Option.map_eq_some_iff, toOption_eq_some,
    decide_eq_true_eq] at hrun
  obtain ⟨g, hbuild, c, hcompile, hstart, hmark, ⟨production, hp, hhead⟩, _, hp', hbody⟩ := hrun
  cases hp.symm.trans hp'
  have hreach : g.Occurs (.nonterminal production.head) := by
    rw [hhead, ← hstart]
    exact ⟨[], [], .refl _⟩
  have hne : production.body ≠ [] := by simp [hbody]
  obtain ⟨k, last, hk, -, hlast, -, -, -, -, hfollow⟩ :=
    vanishing_suffix_closed hbuild hcompile hp hreach hne
  obtain rfl : 0 = k := Option.some.inj (hmark.symm.trans hk)
  obtain rfl : .nonterminal 1 = last := by simpa [hbody] using hlast
  exact ⟨g, c, production, hbuild, hcompile, hp, hreach, hne, hmark, hfollow⟩

end Compiled

end PredictiveParsing
