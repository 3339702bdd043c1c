import PredictiveParsing.Proofs.Grammar.Resolution
import PredictiveParsing.Proofs.Lookup.Notes
import PredictiveParsing.Proofs.Lookup.Parse
import PredictiveParsing.Samples

/-!
# The tables of a built grammar

Everything downstream reads the tables of a grammar by number. What can be relied on is that names
and numbers determine each other, that each number has an entry, that each production is listed
once and by its head, that what was declared comes before what the expansion added, and that the
rules for tokens are numbered like the terminals. So neither compiling a grammar nor parsing with it
looks up anything that is not there.

## Main definitions

* `Declarations.Tables`: what the tables of a grammar are like

## Main results

* `Grammar.WellFormed.terminal?_eq_some`, `nonterminal?_eq_some`: names and numbers
* `Grammar.WellFormed.count_alternatives`: each production is listed once, by its head
* `expandRules_split`: declared rules come first, in order
* `Declarations.tables_of_build`: building makes such tables
* `Declarations.lookups_hit`: and nothing that is looked up in them is missing
-/

namespace PredictiveParsing

/-! ## Names and numbers -/

/-- Where no two entries share a name, an entry is found by its name. -/
theorem findIdx?_eq_some_iff_of_nodup {α : Type} {a : Array α} {f : α → String}
    (h : (a.toList.map f).Nodup) {name : String} {i : Nat} :
    a.findIdx? (f · == name) = some i ↔ a[i]?.map f = some name := by
  rw [Array.findIdx?_eq_some_iff_getElem, Option.map_eq_some_iff]
  constructor
  · rintro ⟨hi, hname, -⟩
    exact ⟨a[i], Array.getElem?_eq_getElem hi, eq_of_beq hname⟩
  · rintro ⟨x, hx, rfl⟩
    obtain ⟨hi, rfl⟩ := Array.getElem?_eq_some_iff.mp hx
    refine ⟨hi, beq_self_eq_true _, fun j hji hname => Nat.ne_of_lt hji ?_⟩
    -- an earlier entry with this name would be the same one
    have hj := Nat.lt_trans hji hi
    refine (@List.Nodup.getElem_inj_iff _ _ h j (by simpa using hj) i (by simpa using hi)).mp ?_
    simpa using hname

namespace Grammar

variable {g : Grammar}

/-- A number below that of all symbols is given back by its symbol. -/
theorem symbolId_symbolOfId {id : Nat} : g.symbolId (g.symbolOfId id) = id := by
  unfold symbolOfId
  split
  · rfl
  · rename_i hid
    show g.terminals.size + (id - g.terminals.size) = id
    omega

namespace WellFormed

variable (wf : g.WellFormed)

include wf

/-- **A terminal is found by its name**, and nothing else is. -/
theorem terminal?_eq_some {name : String} {t : Nat} :
    g.terminal? name = some t ↔ g.terminals[t]?.map (·.name) = some name :=
  findIdx?_eq_some_iff_of_nodup (List.nodup_append.mp wf.names_nodup).1

/-- **A nonterminal is found by its name**, and nothing else is. -/
theorem nonterminal?_eq_some {name : String} {nt : Nat} :
    g.nonterminal? name = some nt ↔ g.nonterminals[nt]?.map (·.name) = some name :=
  findIdx?_eq_some_iff_of_nodup (List.nodup_append.mp wf.names_nodup).2.1

/-- **Each production is listed once, by its head.** -/
theorem count_alternatives {p nt : Nat} {production : Production}
    (h : g.productions[p]? = some production) :
    (g.alternatives nt).count p = if production.head = nt then 1 else 0 := by
  have hnodup : (g.alternatives nt).Nodup := (wf.alternatives_increasing nt).imp Nat.ne_of_lt
  rw [hnodup.count]
  refine if_congr ?_ rfl rfl
  rw [wf.mem_alternatives, h]
  simp

end WellFormed

end Grammar

/-! ## The order of declaration -/

/-- **What the expansion adds comes behind what is declared**: the declared rules keep their order,
their heads and their bindings, and the heads of the others have reserved names. -/
theorem expandRules_split {rules : List Rule} {flat : List FlatRule}
    (h : expandRules rules = .ok flat) : ∃ declared added, flat = declared ++ added ∧
      List.Forall₂ Rule.Becomes rules declared ∧ (∀ rule ∈ rules, ¬ IsReserved rule.head) ∧
      ∀ rule ∈ added, IsReserved rule.head := by
  simp only [expandRules, bind_eq_ok, pure_eq_ok] at h
  obtain ⟨⟨declared, s⟩, hdeclared, rfl⟩ := h
  obtain ⟨hbecomes, hheads, added, hext, -⟩ := expandDeclared_eq_ok hdeclared
  obtain rfl : s.fresh = added := by simpa using hext.fresh
  exact ⟨declared, s.fresh, rfl, hbecomes, hheads, fun rule hrule =>
    (hext.drawn rule hrule).isReserved⟩

namespace Declarations

/-- **The tables of the grammar of declarations.** -/
structure Tables (d : Declarations) (g : Grammar) : Prop where
  /-- No two symbols share a name, be they terminals or nonterminals. -/
  names_nodup : (g.terminals.toList.map (·.name) ++ g.nonterminals.toList.map (·.name)).Nodup
  /-- The number of a terminal is found by its name, and the name by its number. -/
  terminal?_iff : ∀ name t,
    g.terminal? name = some t ↔ g.terminals[t]?.map (·.name) = some name
  /-- So it is for nonterminals. -/
  nonterminal?_iff : ∀ name nt,
    g.nonterminal? name = some nt ↔ g.nonterminals[nt]?.map (·.name) = some name
  /-- The start symbol is a nonterminal. -/
  start_lt : g.start < g.nonterminals.size
  /-- The head of each production is a nonterminal. -/
  head_lt : ∀ p ∈ g.productions, p.head < g.nonterminals.size
  /-- Bodies consist of symbols of the grammar. -/
  body_mem : ∀ p ∈ g.productions, ∀ x ∈ p.body, g.HasSymbol x
  /-- Nonterminals list productions. -/
  alternatives_lt : ∀ n ∈ g.nonterminals, ∀ p ∈ n.alternatives, p < g.productions.size
  /-- Each production is listed once by its head, and by no other nonterminal. -/
  count_alternatives : ∀ (nt : Nat) n (p : Nat) production, g.nonterminals[nt]? = some n →
    g.productions[p]? = some production →
    n.alternatives.count p = if production.head = nt then 1 else 0
  /-- Each nonterminal lists a production. -/
  alternatives_ne_nil : ∀ n ∈ g.nonterminals, n.alternatives ≠ []
  /-- They are listed in the order of the productions. -/
  alternatives_increasing : ∀ n ∈ g.nonterminals, n.alternatives.Pairwise (· < ·)
  /-- The productions of the declared rules come first, in order; those that were added have
  reserved heads. -/
  productions_declared : ∃ added,
    g.productions.toList.map (fun p => (g.nonterminalName p.head, p.binding)) =
      d.rules.map (fun rule => (rule.head, rule.binding)) ++ added ∧
    ∀ entry ∈ added, IsReserved entry.1
  /-- One nonterminal is marked, the start symbol. -/
  isStart_iff : ∀ (nt : Nat) n, g.nonterminals[nt]? = some n → (n.isStart = true ↔ nt = g.start)
  /-- It has the name that was declared. -/
  start_name : g.nonterminals[g.start]?.map (·.name) = some d.start
  /-- Nonterminals are numbered by their first production. -/
  nonterminals_numbered : g.nonterminals.toList.map (·.name) =
    (g.productions.toList.map fun p => g.nonterminalName p.head).eraseDups
  /-- Those that are declared come first, and those that were added have reserved names. -/
  nonterminals_declared : ∃ added,
    g.nonterminals.toList.map (·.name) = (d.rules.map (·.head)).eraseDups ++ added ∧
    (∀ name ∈ added, IsReserved name) ∧ ∀ rule ∈ d.rules, ¬ IsReserved rule.head
  /-- A symbol has a number among all symbols, which gives it back. -/
  symbolOfId_symbolId : ∀ x, g.HasSymbol x →
    g.symbolId x < g.symbolCount ∧ g.symbolOfId (g.symbolId x) = x
  /-- A number among all symbols has a symbol, which gives it back. -/
  symbolId_symbolOfId : ∀ id < g.symbolCount,
    g.HasSymbol (g.symbolOfId id) ∧ g.symbolId (g.symbolOfId id) = id
  /-- A binding to a type of node has a field for each symbol, and names none twice. -/
  node_binds : ∀ p ∈ g.productions, ∀ nodeType fields, p.binding = some (.node nodeType fields) →
    fields.length = p.body.length ∧ (Field.namesOf fields).Nodup
  /-- Only a production without symbols has its value suppressed. -/
  suppressed_binds : ∀ p ∈ g.productions, p.binding = some .suppressed → p.body = []
  /-- The first rule for tokens is the one for white space. -/
  whitespace_rule : g.lexicon.rules[0]?.map (fun rule => (rule.name, rule.pattern)) =
    some (LexRule.whitespaceName, LexRule.whitespacePattern)
  /-- The rule behind it with the number of a terminal is the one of the terminal. -/
  token_rule : ∀ t : Nat, g.lexicon.rules[t + 1]?.map (fun rule => (rule.name, rule.pattern)) =
    g.terminals[t]?.map fun terminal => (terminal.name, terminal.pattern)

variable {engine : PatternEngine} {d : Declarations} {g : Grammar}

/-! ### Clauses that come from the declarations -/

/-- The names of the nonterminals are the heads of the productions, without repetitions. -/
theorem map_name_of_build (h : d.build engine = .ok g) :
    g.nonterminals.toList.map (·.name) = headsOf (g.productions.toList.map g.ruleOf) := by
  have hflat := map_ruleOf_of_build h
  obtain ⟨rules, start, productions, lexicon, hrules, -, -, -, -, rfl⟩ := build_eq_ok.mp h
  rw [← Except.ok.inj (hrules.symm.trans hflat)]
  simp [assemble, Function.comp_def]

theorem productions_declared_of_build (h : d.build engine = .ok g) : ∃ added,
    g.productions.toList.map (fun p => (g.nonterminalName p.head, p.binding)) =
      d.rules.map (fun rule => (rule.head, rule.binding)) ++ added ∧
    ∀ entry ∈ added, IsReserved entry.1 := by
  obtain ⟨declared, added, hsplit, hbecomes, -, hreserved⟩ :=
    expandRules_split (map_ruleOf_of_build h)
  refine ⟨added.map fun rule => (rule.head, rule.binding), ?_, ?_⟩
  · have hdeclared : d.rules.map (fun rule => (rule.head, rule.binding)) =
        declared.map fun rule => (rule.head, rule.binding) := by
      refine map_eq_map_of_forall₂ hbecomes fun rule flatRule hrule => ?_
      rw [hrule.head_eq, hrule.binding_eq]
    rw [hdeclared, ← List.map_append, ← hsplit, List.map_map]
    rfl
  · intro entry hentry
    obtain ⟨rule, hrule, rfl⟩ := List.mem_map.mp hentry
    exact hreserved rule hrule

theorem nonterminals_declared_of_build (h : d.build engine = .ok g) : ∃ added,
    g.nonterminals.toList.map (·.name) = (d.rules.map (·.head)).eraseDups ++ added ∧
    (∀ name ∈ added, IsReserved name) ∧ ∀ rule ∈ d.rules, ¬ IsReserved rule.head := by
  obtain ⟨declared, added, hsplit, hbecomes, hheads, hreserved⟩ :=
    expandRules_split (map_ruleOf_of_build h)
  have hdeclared : d.rules.map (·.head) = declared.map (·.head) :=
    map_eq_map_of_forall₂ hbecomes fun rule flatRule hrule => hrule.head_eq.symm
  refine ⟨((added.map (·.head)).removeAll (d.rules.map (·.head))).eraseDups, ?_, ?_, hheads⟩
  · rw [map_name_of_build h, headsOf, hsplit, List.map_append, ← hdeclared, List.eraseDups_append]
  · intro name hname
    obtain ⟨hname, -⟩ := List.mem_filter.mp (List.mem_eraseDups.mp hname)
    obtain ⟨rule, hrule, rfl⟩ := List.mem_map.mp hname
    exact hreserved rule hrule

theorem start_name_of_build (h : d.build engine = .ok g) :
    g.nonterminals[g.start]?.map (·.name) = some d.start := by
  have hlt := (wellFormed_of_build h).start_lt
  have hname := nonterminalName_start_of_build h
  rw [Grammar.nonterminalName, Array.getElem?_eq_getElem hlt] at hname
  rw [Array.getElem?_eq_getElem hlt]
  exact congrArg some hname

/-- **Building makes consistent tables.** -/
theorem tables_of_build (h : d.build engine = .ok g) : d.Tables g := by
  have wf := wellFormed_of_build h
  constructor
  case names_nodup => exact wf.names_nodup
  case terminal?_iff => exact fun _ _ => wf.terminal?_eq_some
  case nonterminal?_iff => exact fun _ _ => wf.nonterminal?_eq_some
  case start_lt => exact wf.start_lt
  case head_lt => exact wf.head_lt
  case body_mem => exact wf.body_mem
  case productions_declared => exact productions_declared_of_build h
  case start_name => exact start_name_of_build h
  case nonterminals_declared => exact nonterminals_declared_of_build h
  case symbolOfId_symbolId =>
    exact fun _ hx => ⟨Grammar.symbolId_lt hx, Grammar.symbolOfId_symbolId_of_hasSymbol hx⟩
  case symbolId_symbolOfId =>
    exact fun _ hid => ⟨Grammar.hasSymbol_symbolOfId hid, Grammar.symbolId_symbolOfId⟩
  case alternatives_lt =>
    intro n hn p hp
    obtain ⟨nt, -, heq⟩ := Grammar.exists_alternatives_eq hn
    rw [← heq] at hp
    exact wf.alternative_lt hp
  case count_alternatives =>
    intro nt n p production hn hp
    rw [← Grammar.alternatives_of_getElem? hn]
    exact wf.count_alternatives hp
  case alternatives_ne_nil =>
    intro n hn
    obtain ⟨nt, hnt, heq⟩ := Grammar.exists_alternatives_eq hn
    rw [← heq]
    exact wf.alternatives_ne_nil nt hnt
  case alternatives_increasing =>
    intro n hn
    obtain ⟨nt, -, heq⟩ := Grammar.exists_alternatives_eq hn
    rw [← heq]
    exact wf.alternatives_increasing nt
  case isStart_iff =>
    intro nt n hn
    have hmark : g.isStart nt = n.isStart := by simp [Grammar.isStart, hn]
    rw [← hmark]
    exact wf.isStart_iff nt
  case nonterminals_numbered =>
    rw [map_name_of_build h, headsOf, List.map_map]
    rfl
  case node_binds =>
    intro p hp nodeType fields hbinding
    have hbinds := wf.binds p hp
    rwa [Production.Binds, hbinding] at hbinds
  case suppressed_binds =>
    intro p hp hbinding
    have hbinds := wf.binds p hp
    rwa [Production.Binds, hbinding] at hbinds
  case whitespace_rule =>
    rw [← List.getElem?_map, wf.tokenRules]
    rfl
  case token_rule =>
    intro t
    rw [← List.getElem?_map, wf.tokenRules, List.getElem?_cons_succ, List.getElem?_map,
      Array.getElem?_toList]

/-- **No lookup misses.** What is built has consistent tables. So compiling it, with the notes that
are made on the way, finds every entry of a table and every set that it looks up, and comes to what
it comes to where lookups have a default; and parsing any text with the result finds every entry,
choice, set and shape. -/
theorem lookups_hit (h : d.build engine = .ok g) :
    d.Tables g ∧ g.compile? = some g.compile ∧ g.report? = some (Session.compile g).finish ∧
      ∀ c, g.compile = .ok c → ∀ text, c.parse? text = some (c.parse text) := by
  have wf := wellFormed_of_build h
  have hcoherent (c : Compiled) (hcompile : g.compile = .ok c) : c.Coherent :=
    (Compiled.coherent h hcompile).2
  refine ⟨tables_of_build h, wf.compile?_eq, wf.report?_eq hcoherent, ?_⟩
  intro c hcompile text
  exact (hcoherent c hcompile).parse?_eq text

/-- Groups of letters are built with five nonterminals more than are declared, and read. -/
theorem lookups_hit_groups : ∃ g c v events, Samples.groups.build Pattern.engine = .ok g ∧
    g.compile = .ok c ∧ Samples.groups.Tables g ∧ g.nonterminals.size = 6 ∧
    g.productions.size = 10 ∧ g.compile? = some (.ok c) ∧
    g.report? = some (Session.compile g).finish ∧
    c.parse? "a b ( a )" = some (.ok v (.done 1) events) := by
  have hrun : ((Samples.groups.build Pattern.engine).toOption.bind fun g =>
      g.compile.toOption.bind fun c => match c.parse "a b ( a )" with
        | .ok _ rest _ => some (g.nonterminals.size, g.productions.size, rest)
        | _ => none) = some (6, 10, .done 1) := by
    decide +kernel
  simp only [Option.bind_eq_some_iff, toOption_eq_some] at hrun
  obtain ⟨g, hbuild, c, hcompile, hrun⟩ := hrun
  obtain ⟨htables, hcompiled, hreport, hparse⟩ := lookups_hit hbuild
  split at hrun
  · rename_i v rest events hok
    obtain ⟨hnonterminals, hproductions, rfl⟩ :
        g.nonterminals.size = 6 ∧ g.productions.size = 10 ∧ rest = .done 1 := by
      simpa using hrun
    refine ⟨g, c, v, events, hbuild, hcompile, htables, hnonterminals, hproductions, ?_, hreport,
      ?_⟩
    · rw [hcompiled, hcompile]
    · rw [hparse c hcompile, hok]
  · cases hrun

end Declarations

end PredictiveParsing
