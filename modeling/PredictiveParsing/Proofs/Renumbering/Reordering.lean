import PredictiveParsing.Pattern.Engine
import PredictiveParsing.Proofs.Grammar.Build
import PredictiveParsing.Proofs.Grammar.Expansion
import PredictiveParsing.Proofs.Renumbering.Parse
import PredictiveParsing.Samples

/-!
# Rules in another order

Nonterminals are numbered in the order in which their rules are declared, so the numbers change
with the order of the rules, and with rules for nonterminals that are not reachable. The order of
the rules of one head stays what counts: two lists of rules without repetitions that agree on it
for every head that is reachable make grammars that are alike.

## Main definitions

* `Rule.IsPlain`: rules without repetitions
* `Declarations.Reaches`: the names that are reachable from the start by way of rules
* `Grammar.Namesakes`: reachable nonterminals with the same name

## Main results

* `Declarations.map_alternatives_of_build`: the alternatives of a nonterminal are the rules of its
  name
* `Declarations.alike_of_build`: declarations with the same reachable rules make grammars that are
  alike
* `Declarations.unreachable_rules_irrelevant`: nothing that is found out about them differs
-/

namespace PredictiveParsing

/-! ## Rules without repetitions -/

/-- Whether an item is a symbol. -/
def Item.isSymbol : Item → Bool
  | .symbol _ => true
  | .repeated .. => false
  | .oneOfEach _ => false

/-- **A rule without repetitions.** -/
def Rule.IsPlain (rule : Rule) : Prop := ∀ item ∈ rule.items, item.isSymbol = true

instance (rule : Rule) : Decidable rule.IsPlain :=
  inferInstanceAs (Decidable (∀ item ∈ rule.items, item.isSymbol = true))

/-- A rule without repetitions, with the names of its symbols. -/
def Rule.toFlat (rule : Rule) : FlatRule := ⟨rule.head, Item.namesAll rule.items, rule.binding⟩

/-- Symbols are expanded into their names. -/
theorem Item.expandAll_of_isSymbol {items : List Item} (h : ∀ item ∈ items, item.isSymbol = true)
    (s : Expansion) : Item.expandAll items s = .ok (Item.namesAll items, s) := by
  induction items with
  | nil => rfl
  | cons item items ih =>
    obtain ⟨hitem, hitems⟩ := List.forall_mem_cons.mp h
    cases item with
    | symbol name =>
      simp only [Item.expandAll, Item.expand, ih hitems, bind, Except.bind]
      rfl
    | repeated items low high => cases hitem
    | oneOfEach items => cases hitem

theorem Item.mem_of_mem_namesAll {items : List Item}
    (h : ∀ item ∈ items, item.isSymbol = true) {name : String}
    (hname : name ∈ Item.namesAll items) : .symbol name ∈ items := by
  induction items with
  | nil => cases hname
  | cons item items ih =>
    obtain ⟨hitem, hitems⟩ := List.forall_mem_cons.mp h
    cases item with
    | symbol n =>
      rcases List.mem_append.mp hname with hname | hname
      · obtain rfl := List.mem_singleton.mp hname
        exact List.mem_cons_self
      · exact List.mem_cons_of_mem _ (ih hitems hname)
    | repeated items low high => cases hitem
    | oneOfEach items => cases hitem

theorem expandDeclared_of_isPlain {rules : List Rule} (h : ∀ rule ∈ rules, rule.IsPlain)
    {s s' : Expansion} {declared : List FlatRule}
    (hdeclared : expandDeclared rules s = .ok (declared, s')) :
    declared = rules.map Rule.toFlat ∧ s' = s := by
  induction rules generalizing declared with
  | nil =>
    obtain ⟨rfl, rfl⟩ : [] = declared ∧ s = s' := by simpa [expandDeclared] using hdeclared
    exact ⟨rfl, rfl⟩
  | cons rule rules ih =>
    obtain ⟨hrule, hrules⟩ := List.forall_mem_cons.mp h
    unfold expandDeclared at hdeclared
    split at hdeclared
    · cases hdeclared
    · rw [Item.expandAll_of_isSymbol hrule] at hdeclared
      simp only [bind_eq_ok, pure_eq_ok] at hdeclared
      obtain ⟨_, ⟨⟩, ⟨rest, s₂⟩, hrest, heq⟩ := hdeclared
      obtain ⟨rfl, rfl⟩ := Prod.mk.inj heq
      obtain ⟨rfl, rfl⟩ := ih hrules hrest
      exact ⟨rfl, rfl⟩

/-- **Rules without repetitions are expanded into themselves.** -/
theorem expandRules_of_isPlain {rules : List Rule} (h : ∀ rule ∈ rules, rule.IsPlain)
    {flat : List FlatRule} (hflat : expandRules rules = .ok flat) :
    flat = rules.map Rule.toFlat := by
  simp only [expandRules, bind_eq_ok, pure_eq_ok] at hflat
  obtain ⟨⟨declared, s⟩, hdeclared, rfl⟩ := hflat
  obtain ⟨rfl, rfl⟩ := expandDeclared_of_isPlain h hdeclared
  exact List.append_nil _

/-! ## Alternatives -/

/-- The alternatives of a nonterminal are its productions. -/
theorem map_alternativesOf (productions : List Production) (nt : Nat) :
    (alternativesOf productions nt).map (productions[·]?) =
      (productions.filter (·.head == nt)).map some := by
  have hentry : ∀ entry ∈ productions.zipIdx.filter (·.1.head == nt),
      productions[entry.2]? = some entry.1 := fun entry hentry =>
    List.mem_zipIdx_iff_getElem?.mp (List.mem_filter.mp hentry).1
  have hfst : productions.zipIdx.map Prod.fst = productions := List.zipIdx_map_fst ..
  conv_rhs => rw [← hfst]
  rw [alternativesOf, List.map_map, List.filter_map, List.map_map]
  exact List.map_congr_left hentry

namespace Declarations

variable {engine : PatternEngine} {d d' : Declarations} {g g' : Grammar}

/-- The rules of a head, in order. -/
def rulesOf (d : Declarations) (head : String) : List Rule := d.rules.filter (·.head == head)

/-- **The names that are reachable** from the start by way of rules. -/
inductive Reaches (d : Declarations) : String → Prop
  | start : Reaches d d.start
  | item {rule : Rule} {name : String} (hrule : rule ∈ d.rules) (hhead : Reaches d rule.head)
      (hitem : .symbol name ∈ rule.items) : Reaches d name

/-- The productions of a grammar are the rules of declarations without repetitions. -/
theorem map_ruleOf_of_isPlain (h : d.build engine = .ok g)
    (hplain : ∀ rule ∈ d.rules, rule.IsPlain) :
    g.productions.toList.map g.ruleOf = d.rules.map Rule.toFlat :=
  expandRules_of_isPlain hplain (map_ruleOf_of_build h)

/-- **The alternatives of a nonterminal are the rules of its name**, in order. -/
theorem map_alternatives_of_build (h : d.build engine = .ok g)
    (hplain : ∀ rule ∈ d.rules, rule.IsPlain) {nt : Nat} (hnt : nt < g.nonterminals.size) :
    (g.alternatives nt).map (fun i => g.productions[i]?.map g.ruleOf) =
      (d.rulesOf (g.nonterminalName nt)).map fun rule => some rule.toFlat := by
  have wf := wellFormed_of_build h
  have hrules := map_ruleOf_of_isPlain h hplain
  have halternatives : g.alternatives nt = alternativesOf g.productions.toList nt := by
    obtain ⟨flat, start, productions, lexicon, -, -, -, -, -, rfl⟩ := build_eq_ok.mp h
    rw [alternatives_assemble, if_pos (by simpa [assemble] using hnt)]
    rfl
  have hhead : ∀ p ∈ g.productions.toList,
      (p.head == nt) = ((g.ruleOf p).head == g.nonterminalName nt) := by
    intro p hp
    rw [Bool.eq_iff_iff, beq_iff_eq, beq_iff_eq]
    constructor
    · rintro rfl
      rfl
    · exact wf.nonterminalName_inj (wf.head_lt p (by simpa using hp)) hnt
  calc (g.alternatives nt).map (fun i => g.productions[i]?.map g.ruleOf)
      = ((alternativesOf g.productions.toList nt).map (g.productions.toList[·]?)).map
          (Option.map g.ruleOf) := by
        rw [halternatives, List.map_map]
        simp [Function.comp_def]
    _ = ((g.productions.toList.filter (·.head == nt)).map g.ruleOf).map some := by
        rw [map_alternativesOf, List.map_map, List.map_map]
        rfl
    _ = (((g.productions.toList.map g.ruleOf).filter (·.head == g.nonterminalName nt))).map
          some := by
        rw [List.filter_map, List.filter_congr hhead]
        rfl
    _ = (d.rulesOf (g.nonterminalName nt)).map fun rule => some rule.toFlat := by
        rw [hrules, List.filter_map, List.map_map]
        rfl

/-! ## Reachable names -/

section Reaches

variable (hbuild : d.build engine = .ok g) (hplain : ∀ rule ∈ d.rules, rule.IsPlain)

include hbuild hplain

/-- Every production is made from a rule. -/
theorem exists_rule_of_production {p : Production} (hp : p ∈ g.productions) :
    ∃ rule ∈ d.rules, rule.head = g.nonterminalName p.head ∧
      ∀ x ∈ p.body, .symbol (g.symbolName x) ∈ rule.items := by
  have hmem : g.ruleOf p ∈ d.rules.map Rule.toFlat := by
    rw [← map_ruleOf_of_isPlain hbuild hplain]
    exact List.mem_map_of_mem (by simpa using hp)
  obtain ⟨rule, hrule, heq⟩ := List.mem_map.mp hmem
  refine ⟨rule, hrule, congrArg FlatRule.head heq, fun x hx => ?_⟩
  have hbody : Item.namesAll rule.items = p.body.map g.symbolName := congrArg FlatRule.body heq
  refine Item.mem_of_mem_namesAll (hplain rule hrule) ?_
  rw [hbody]
  exact List.mem_map_of_mem hx

theorem name_mem_heads {nt : Nat} (hnt : nt < g.nonterminals.size) :
    g.nonterminalName nt ∈ d.rules.map (·.head) := by
  have wf := wellFormed_of_build hbuild
  obtain ⟨i, hi⟩ := List.exists_mem_of_ne_nil _ (wf.alternatives_ne_nil nt hnt)
  obtain ⟨p, hp, -, rfl, -⟩ := wf.exists_production hi
  obtain ⟨rule, hrule, hhead, -⟩ := exists_rule_of_production hbuild hplain hp
  exact List.mem_map.mpr ⟨rule, hrule, hhead⟩

/-- **A reachable nonterminal has a name that is reachable.** -/
theorem reaches_of_mem_reachable {nt : Nat} (hnt : nt ∈ g.reachable) :
    d.Reaches (g.nonterminalName nt) := by
  have wf := wellFormed_of_build hbuild
  refine Grammar.forall_mem_walk (P := fun m => d.Reaches (g.nonterminalName m)) ?_ _ ?_ nt hnt
  · intro n hn m hm
    obtain ⟨i, hi, hmem⟩ := Grammar.mem_successors.mp hm
    obtain ⟨p, hp, -, rfl, hbody⟩ := wf.exists_production hi
    obtain ⟨rule, hrule, hhead, hitems⟩ := exists_rule_of_production hbuild hplain hp
    have hitem : .symbol (g.symbolName (.nonterminal m)) ∈ rule.items := hitems _ (hbody ▸ hmem)
    exact .item hrule (hhead ▸ hn) hitem
  · intro m hm
    obtain rfl : m = g.start := by simpa using hm
    rw [nonterminalName_start_of_build hbuild]
    exact .start

end Reaches

end Declarations

/-! ## Nonterminals with the same name -/

/-- Related lists are related as lists of their members. -/
theorem forall₂_with_mem {α β : Type} {S : α → β → Prop} {l : List α} {l' : List β}
    (h : List.Forall₂ S l l') : List.Forall₂ (fun a b => a ∈ l ∧ b ∈ l' ∧ S a b) l l' := by
  have hright : List.Forall₂ (fun b a => b ∈ l' ∧ S a b) l' l :=
    (List.forall₂_and_left _ _).mpr ⟨fun _ hb => hb, h.flip⟩
  exact (List.forall₂_and_left _ _).mpr ⟨fun _ ha => ha, hright.flip⟩

/-- **Reachable nonterminals of two grammars with the same name.** -/
structure Grammar.Namesakes (g g' : Grammar) (nt nt' : Nat) : Prop where
  mem : nt ∈ g.reachable
  mem' : nt' ∈ g'.reachable
  name : g.nonterminalName nt = g'.nonterminalName nt'

namespace Grammar

variable {g g' : Grammar}

/-- Symbols with the same name in the bodies of reachable nonterminals match. -/
theorem matches_of_symbolName (wf : g.WellFormed) (wf' : g'.WellFormed)
    (hterminals : g.terminals = g'.terminals) {x x' : Symbol} (hx : g.HasSymbol x)
    (hx' : g'.HasSymbol x') (hreachable : ∀ m, x = .nonterminal m → m ∈ g.reachable)
    (hreachable' : ∀ m, x' = .nonterminal m → m ∈ g'.reachable)
    (hname : g.symbolName x = g'.symbolName x') :
    x.Matches g.terminals.size (g.Namesakes g') x' := by
  have hterminalName (t : Nat) : g'.terminalName t = g.terminalName t := by
    rw [terminalName, terminalName, hterminals]
  have hsize : g'.terminals.size = g.terminals.size := by rw [hterminals]
  cases x with
  | terminal t =>
    cases x' with
    | terminal t' =>
      replace hx' : t' < g.terminals.size := hsize ▸ hx'
      rw [symbolName, symbolName, hterminalName] at hname
      obtain rfl := wf.terminalName_inj hx hx' hname
      exact .terminal hx
    | nonterminal m' =>
      rw [symbolName, symbolName, ← hterminalName] at hname
      exact absurd hname (wf'.terminalName_ne_nonterminalName (hsize ▸ hx) hx')
  | nonterminal m =>
    cases x' with
    | terminal t' =>
      replace hx' : t' < g.terminals.size := hsize ▸ hx'
      rw [symbolName, symbolName, hterminalName] at hname
      exact absurd hname.symm (wf.terminalName_ne_nonterminalName hx' hx)
    | nonterminal m' => exact .nonterminal ⟨hreachable m rfl, hreachable' m' rfl, hname⟩

/-- Alternatives of namesakes that are made from the same rule match. -/
theorem matchesAt_of_ruleOf (wf : g.WellFormed) (wf' : g'.WellFormed)
    (hterminals : g.terminals = g'.terminals) {nt nt' i i' : Nat} (hR : g.Namesakes g' nt nt')
    (hi : i ∈ g.alternatives nt) (hi' : i' ∈ g'.alternatives nt')
    (hrule : g.productions[i]?.map g.ruleOf = g'.productions[i']?.map g'.ruleOf) :
    g.MatchesAt g' (g.Namesakes g') i i' := by
  obtain ⟨p, hp, hget, rfl, hbody⟩ := wf.exists_production hi
  obtain ⟨p', hp', hget', rfl, hbody'⟩ := wf'.exists_production hi'
  rw [hget, hget', Option.map_some, Option.map_some, Option.some.injEq] at hrule
  have hnames : p.body.map g.symbolName = p'.body.map g'.symbolName :=
    congrArg FlatRule.body hrule
  refine ⟨p, p', hget, hget', hR, ?_, congrArg FlatRule.binding hrule⟩
  rw [← List.forall₂_eq_eq_eq, List.forall₂_map_left_iff, List.forall₂_map_right_iff] at hnames
  refine (forall₂_with_mem hnames).imp ?_
  rintro x x' ⟨hx, hx', hname⟩
  refine matches_of_symbolName wf wf' hterminals (wf.body_mem p hp x hx)
    (wf'.body_mem p' hp' x' hx') ?_ ?_ hname
  · rintro m rfl
    exact wf.mem_reachable_of_mem_body hR.mem hi (hbody ▸ hx)
  · rintro m rfl
    exact wf'.mem_reachable_of_mem_body hR.mem' hi' (hbody' ▸ hx')

end Grammar

namespace Declarations

variable {engine : PatternEngine} {d d' : Declarations} {g g' : Grammar}

/-- **Declarations with the same reachable rules make grammars that are alike.** -/
theorem alike_of_build (hbuild : d.build engine = .ok g) (hbuild' : d'.build engine = .ok g')
    (hplain : ∀ rule ∈ d.rules, rule.IsPlain) (hplain' : ∀ rule ∈ d'.rules, rule.IsPlain)
    (hstart : d.start = d'.start) (hterminals : d.terminals = d'.terminals)
    (hsame : ∀ head ∈ d.rules.map (·.head), d.Reaches head → d.rulesOf head = d'.rulesOf head) :
    g.Alike g' (g.Namesakes g') := by
  have wf := wellFormed_of_build hbuild
  have wf' := wellFormed_of_build hbuild'
  obtain ⟨hg, hlexicon⟩ := terminals_of_build hbuild
  obtain ⟨hg', hlexicon'⟩ := terminals_of_build hbuild'
  have hsymbols : g.terminals = g'.terminals := by rw [hg, hg', hterminals]
  refine ⟨wf, wf', hsymbols, ?_, ?_, ⟨?_, ?_⟩, ?_, fun nt nt' hR => hR.name, ?_⟩
  · rw [hterminals, hlexicon'] at hlexicon
    exact (Except.ok.inj hlexicon).symm
  · refine ⟨wf.start_mem_reachable, wf'.start_mem_reachable, ?_⟩
    rw [nonterminalName_start_of_build hbuild, nonterminalName_start_of_build hbuild', hstart]
  · intro nt nt' m hR hR'
    exact wf.nonterminalName_inj (wf.lt_of_mem_reachable hR.mem) (wf.lt_of_mem_reachable hR'.mem)
      (hR.name.trans hR'.name.symm)
  · intro nt nt' m hR hR'
    exact wf'.nonterminalName_inj (wf'.lt_of_mem_reachable hR.mem')
      (wf'.lt_of_mem_reachable hR'.mem') (hR.name.symm.trans hR'.name)
  · intro nt nt' hR
    exact ⟨wf.lt_of_mem_reachable hR.mem, wf'.lt_of_mem_reachable hR.mem'⟩
  · intro nt nt' hR
    have hnt := wf.lt_of_mem_reachable hR.mem
    have hnt' := wf'.lt_of_mem_reachable hR.mem'
    have hrules := map_alternatives_of_build hbuild hplain hnt
    rw [hsame _ (name_mem_heads hbuild hplain hnt) (reaches_of_mem_reachable hbuild hplain hR.mem),
      hR.name, ← map_alternatives_of_build hbuild' hplain' hnt', ← List.forall₂_eq_eq_eq,
      List.forall₂_map_left_iff, List.forall₂_map_right_iff] at hrules
    refine (forall₂_with_mem hrules).imp ?_
    rintro i i' ⟨hi, hi', hrule⟩
    exact Grammar.matchesAt_of_ruleOf wf wf' hsymbols hR hi hi' hrule

/-- **Only the reachable rules matter**, and for each head only the order of its own rules. Let two
declarations without repetitions agree on the start, on the terminals and on the rules of every
head that is reachable, whatever the order of the heads and whatever rules for other heads there
are. Then, by name, the same nonterminals are reached in the same order; what can come first and
what can come after is the same for each of them, and what can come after each terminal; the
clashes and the routines of emitted parsers are the same; and so is all that becomes of any text,
value, failure and events. -/
theorem unreachable_rules_irrelevant {c c' : Compiled} (hbuild : d.build engine = .ok g)
    (hbuild' : d'.build engine = .ok g') (hcompile : g.compile = .ok c)
    (hcompile' : g'.compile = .ok c') (hplain : ∀ rule ∈ d.rules, rule.IsPlain)
    (hplain' : ∀ rule ∈ d'.rules, rule.IsPlain) (hstart : d.start = d'.start)
    (hterminals : d.terminals = d'.terminals)
    (hsame : ∀ head ∈ d.rules.map (·.head), d.Reaches head → d.rulesOf head = d'.rulesOf head) :
    g.terminals = g'.terminals ∧
    c.analysis.reachable.map g.nonterminalName = c'.analysis.reachable.map g'.nonterminalName ∧
    (∀ nt ∈ c.analysis.reachable, ∀ nt' ∈ c'.analysis.reachable,
      g.nonterminalName nt = g'.nonterminalName nt' →
      c.analysis.first.nonterminal nt = c'.analysis.first.nonterminal nt' ∧
      c.analysis.follow g (.nonterminal nt) = c'.analysis.follow g' (.nonterminal nt')) ∧
    (∀ t < g.terminals.size,
      c.analysis.follow g (.terminal t) = c'.analysis.follow g' (.terminal t)) ∧
    c.prediction.conflicts.map (·.describe g) = c'.prediction.conflicts.map (·.describe g') ∧
    (∀ header withMain,
      (c.parserModule header withMain).routines = (c'.parserModule header withMain).routines) ∧
    ∀ text, c.parse text = c'.parse text := by
  have halike := alike_of_build hbuild hbuild' hplain hplain' hstart hterminals hsame
  obtain ⟨rfl, hc⟩ := Compiled.coherent hbuild hcompile
  obtain ⟨rfl, hc'⟩ := Compiled.coherent hbuild' hcompile'
  refine ⟨halike.terminals, ?_, ?_, ?_, hc.conflicts_eq hc' halike, hc.routines_eq hc' halike,
    hc.parse_eq hc' halike⟩
  · rw [hc.reachable, hc'.reachable]
    exact map_eq_map_of_forall₂ halike.reachable fun nt nt' hR => hR.name
  · intro nt hnt nt' hnt' hname
    rw [hc.reachable] at hnt
    rw [hc'.reachable] at hnt'
    have hmatches : Symbol.Matches c.grammar.terminals.size (c.grammar.Namesakes c'.grammar)
        (.nonterminal nt) (.nonterminal nt') := .nonterminal ⟨hnt, hnt', hname⟩
    exact ⟨hc.first_eq hc' halike hmatches, hc.follow_eq hc' halike hmatches⟩
  · intro t ht
    exact hc.follow_eq hc' halike (.terminal ht)

/-- The rules of nested lists in another order, with an unreachable head among them. -/
theorem unreachable_rules_irrelevant_nested : ∃ g g' c c',
    Samples.nested.build Pattern.engine = .ok g ∧ Samples.renested.build Pattern.engine = .ok g' ∧
    g.compile = .ok c ∧ g'.compile = .ok c' ∧ (∀ rule ∈ Samples.nested.rules, rule.IsPlain) ∧
    (∀ rule ∈ Samples.renested.rules, rule.IsPlain) ∧
    Samples.nested.start = Samples.renested.start ∧
    Samples.nested.terminals = Samples.renested.terminals ∧
    (∀ head ∈ Samples.nested.rules.map (·.head), Samples.nested.Reaches head →
      Samples.nested.rulesOf head = Samples.renested.rulesOf head) ∧
    g.start = 0 ∧ g'.start = 2 ∧ g'.nonterminals.size = 3 ∧ c'.analysis.reachable = [2, 0] ∧
    c.analysis.reachable.map g.nonterminalName = c'.analysis.reachable.map g'.nonterminalName ∧
    c.parse "( a" = c'.parse "( a" := by
  have hrun : ((Samples.nested.build Pattern.engine).toOption.bind fun g =>
      (Samples.renested.build Pattern.engine).toOption.bind fun g' =>
      g.compile.toOption.bind fun c => g'.compile.toOption.map fun c' =>
        decide (g.start = 0 ∧ g'.start = 2 ∧ g'.nonterminals.size = 3 ∧
          c'.analysis.reachable = [2, 0])) = some true := by
    decide +kernel
  simp only [Option.bind_eq_some_iff, Option.map_eq_some_iff, toOption_eq_some,
    decide_eq_true_eq] at hrun
  obtain ⟨g, hbuild, g', hbuild', c, hcompile, c', hcompile', hg, hg', hsize, hreached⟩ := hrun
  have hplain : ∀ rule ∈ Samples.nested.rules, rule.IsPlain := by decide
  have hplain' : ∀ rule ∈ Samples.renested.rules, rule.IsPlain := by decide
  have hsame : ∀ head ∈ Samples.nested.rules.map (·.head), Samples.nested.Reaches head →
      Samples.nested.rulesOf head = Samples.renested.rulesOf head := by
    intro head hhead _
    simp only [Samples.nested, List.map_cons, List.map_nil, List.mem_cons, List.not_mem_nil,
      or_false] at hhead
    rcases hhead with rfl | rfl | rfl | rfl <;> rfl
  obtain ⟨-, hreachable, -, -, -, -, hparse⟩ := unreachable_rules_irrelevant hbuild hbuild'
    hcompile hcompile' hplain hplain' rfl rfl hsame
  exact ⟨g, g', c, c', hbuild, hbuild', hcompile, hcompile', hplain, hplain', rfl, rfl, hsame,
    hg, hg', hsize, hreached, hreachable, hparse "( a"⟩

end Declarations

end PredictiveParsing
