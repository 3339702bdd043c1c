import Mathlib.Data.List.Nodup
import PredictiveParsing.Analysis.First
import PredictiveParsing.Grammar.Declarations

/-!
# Well-formed grammars

A grammar holds its symbols and productions as numbers into tables. It is well formed if every
number has an entry, every production is listed by its head and nowhere else, no two symbols
share a name, just the start symbol is marked, and the rules for tokens are those of the terminals.

## Main definitions

* `Grammar.HasSymbol`: the numbers that are symbols of a grammar
* `Production.Binds`: a binding that fits its production
* `Grammar.WellFormed`: all of the above

## Main results

* `Grammar.WellFormed.exists_production`: an alternative is a production of its nonterminal
* `Grammar.WellFormed.terminalName_inj`, `nonterminalName_inj`: names stand for one symbol
-/

namespace PredictiveParsing

/-- Without its repetitions a list has none. -/
theorem nodup_eraseDups {α : Type} [BEq α] [LawfulBEq α] (l : List α) : l.eraseDups.Nodup := by
  match l with
  | [] => exact List.nodup_nil
  | a :: l =>
    rw [List.eraseDups_cons, List.nodup_cons]
    exact ⟨by simp, nodup_eraseDups _⟩
termination_by l.length
decreasing_by exact Nat.lt_succ_of_le (List.length_filter_le _ _)

/-- A symbol has the number of a terminal or of a nonterminal of the grammar. -/
def Grammar.HasSymbol (g : Grammar) : Symbol → Prop
  | .terminal t => t < g.terminals.size
  | .nonterminal nt => nt < g.nonterminals.size

/-- A binding to a type of node has a field for each symbol and names none twice; only a
production without symbols has its value suppressed. -/
def Production.Binds (p : Production) : Prop :=
  match p.binding with
  | none => True
  | some .suppressed => p.body = []
  | some (.node _ fields) => fields.length = p.body.length ∧ (Field.namesOf fields).Nodup

/-- **A well-formed grammar.** -/
structure Grammar.WellFormed (g : Grammar) : Prop where
  /-- No two symbols share a name. -/
  names_nodup : (g.terminals.toList.map (·.name) ++ g.nonterminals.toList.map (·.name)).Nodup
  /-- The start symbol is a nonterminal. -/
  start_lt : g.start < g.nonterminals.size
  /-- The head of every production is a nonterminal. -/
  head_lt : ∀ p ∈ g.productions, p.head < g.nonterminals.size
  /-- Bodies consist of symbols of the grammar. -/
  body_mem : ∀ p ∈ g.productions, ∀ x ∈ p.body, g.HasSymbol x
  /-- Bindings fit their productions. -/
  binds : ∀ p ∈ g.productions, p.Binds
  /-- A nonterminal lists the productions of which it is the head. -/
  mem_alternatives : ∀ nt p, p ∈ g.alternatives nt ↔
    ∃ production, g.productions[p]? = some production ∧ production.head = nt
  /-- Alternatives are listed in the order of the productions. -/
  alternatives_increasing : ∀ nt, (g.alternatives nt).Pairwise (· < ·)
  /-- Every nonterminal has an alternative. -/
  alternatives_ne_nil : ∀ nt, nt < g.nonterminals.size → g.alternatives nt ≠ []
  /-- The start symbol is marked, and nothing else is. -/
  isStart_iff : ∀ nt, g.isStart nt = true ↔ nt = g.start
  /-- The rules for tokens are the one for white space and those of the terminals. -/
  tokenRules : g.lexicon.rules.map (fun rule => (rule.name, rule.pattern)) =
    (LexRule.whitespaceName, LexRule.whitespacePattern) ::
      g.terminals.toList.map fun t => (t.name, t.pattern)

namespace Grammar

variable {g : Grammar}

theorem body_of_getElem? {p : Nat} {production : Production}
    (h : g.productions[p]? = some production) : g.body p = production.body := by
  rw [body, h]
  rfl

theorem alternatives_of_getElem? {nt : Nat} {n : Nonterminal} (h : g.nonterminals[nt]? = some n) :
    g.alternatives nt = n.alternatives := by
  rw [alternatives, h]
  rfl

/-- The alternatives of an entry of the table are those of a nonterminal. -/
theorem exists_alternatives_eq {n : Nonterminal} (h : n ∈ g.nonterminals) :
    ∃ nt < g.nonterminals.size, g.alternatives nt = n.alternatives := by
  obtain ⟨nt, hnt, rfl⟩ := Array.mem_iff_getElem.mp h
  exact ⟨nt, hnt, alternatives_of_getElem? (Array.getElem?_eq_getElem hnt)⟩

theorem alternatives_of_le {nt : Nat} (h : g.nonterminals.size ≤ nt) : g.alternatives nt = [] := by
  rw [alternatives, Array.getElem?_eq_none h]
  rfl

/-- Only a nonterminal has alternatives. -/
theorem lt_of_mem_alternatives {nt p : Nat} (h : p ∈ g.alternatives nt) :
    nt < g.nonterminals.size := by
  refine Nat.lt_of_not_le fun hnt => ?_
  rw [alternatives_of_le hnt] at h
  exact List.not_mem_nil h

namespace WellFormed

variable (wf : g.WellFormed)

include wf

/-- An alternative of a nonterminal is a production of which it is the head. -/
theorem exists_production {nt p : Nat} (h : p ∈ g.alternatives nt) :
    ∃ production ∈ g.productions, g.productions[p]? = some production ∧
      production.head = nt ∧ g.body p = production.body := by
  obtain ⟨production, hp, hhead⟩ := (wf.mem_alternatives nt p).mp h
  exact ⟨production, Array.mem_of_getElem? hp, hp, hhead, body_of_getElem? hp⟩

/-- A production is an alternative of its head. -/
theorem exists_alternative {production : Production} (h : production ∈ g.productions) :
    ∃ p ∈ g.alternatives production.head, g.productions[p]? = some production ∧
      g.body p = production.body := by
  obtain ⟨p, hp, rfl⟩ := Array.mem_iff_getElem.mp h
  have hget : g.productions[p]? = some g.productions[p] := Array.getElem?_eq_getElem hp
  exact ⟨p, (wf.mem_alternatives _ p).mpr ⟨_, hget, rfl⟩, hget, body_of_getElem? hget⟩

theorem mem_bodies {nt : Nat} {body : List Symbol} :
    body ∈ g.bodies nt ↔ ∃ production ∈ g.productions, production.head = nt ∧
      production.body = body := by
  rw [bodies, List.mem_map]
  constructor
  · rintro ⟨p, hp, rfl⟩
    obtain ⟨production, hmem, -, hhead, hbody⟩ := wf.exists_production hp
    exact ⟨production, hmem, hhead, hbody.symm⟩
  · rintro ⟨production, hmem, rfl, rfl⟩
    obtain ⟨p, hp, -, hbody⟩ := wf.exists_alternative hmem
    exact ⟨p, hp, hbody⟩

theorem hasSymbol_of_mem_body {nt p : Nat} (h : p ∈ g.alternatives nt) {x : Symbol}
    (hx : x ∈ g.body p) : g.HasSymbol x := by
  obtain ⟨production, hmem, -, -, hbody⟩ := wf.exists_production h
  exact wf.body_mem production hmem x (hbody ▸ hx)

/-! ## Names -/

/-- A terminal is known by its name. -/
theorem terminalName_inj {t t' : Nat} (ht : t < g.terminals.size) (ht' : t' < g.terminals.size)
    (h : g.terminalName t = g.terminalName t') : t = t' := by
  have hnd := (List.nodup_append.mp wf.names_nodup).1
  refine (@List.Nodup.getElem_inj_iff _ _ hnd t (by simpa using ht) t' (by simpa using ht')).mp ?_
  simpa [terminalName, ht, ht'] using h

/-- A nonterminal is known by its name. -/
theorem nonterminalName_inj {nt nt' : Nat} (hnt : nt < g.nonterminals.size)
    (hnt' : nt' < g.nonterminals.size) (h : g.nonterminalName nt = g.nonterminalName nt') :
    nt = nt' := by
  have hnd := (List.nodup_append.mp wf.names_nodup).2.1
  refine (@List.Nodup.getElem_inj_iff _ _ hnd nt (by simpa using hnt) nt'
    (by simpa using hnt')).mp ?_
  simpa [nonterminalName, hnt, hnt'] using h

/-- No terminal has the name of a nonterminal. -/
theorem terminalName_ne_nonterminalName {t nt : Nat} (ht : t < g.terminals.size)
    (hnt : nt < g.nonterminals.size) : g.terminalName t ≠ g.nonterminalName nt := by
  have hdisjoint := (List.nodup_append.mp wf.names_nodup).2.2
  refine hdisjoint _ (List.mem_map.mpr ⟨g.terminals[t], by simp, ?_⟩) _
    (List.mem_map.mpr ⟨g.nonterminals[nt], by simp, ?_⟩)
  · simp [terminalName, ht]
  · simp [nonterminalName, hnt]

/-- A symbol is known by its name. -/
theorem symbolName_inj {x y : Symbol} (hx : g.HasSymbol x) (hy : g.HasSymbol y)
    (h : g.symbolName x = g.symbolName y) : x = y := by
  cases x with
  | terminal t =>
    cases y with
    | terminal t' => exact congrArg Symbol.terminal (wf.terminalName_inj hx hy h)
    | nonterminal nt => exact absurd h (wf.terminalName_ne_nonterminalName hx hy)
  | nonterminal nt =>
    cases y with
    | terminal t => exact absurd h.symm (wf.terminalName_ne_nonterminalName hy hx)
    | nonterminal nt' => exact congrArg Symbol.nonterminal (wf.nonterminalName_inj hx hy h)

end WellFormed

/-! ## The common numbering of the symbols -/

theorem symbolId_lt {x : Symbol} (h : g.HasSymbol x) : g.symbolId x < g.symbolCount := by
  cases x with
  | terminal t => exact Nat.lt_of_lt_of_le h (Nat.le_add_right _ _)
  | nonterminal nt => exact Nat.add_lt_add_left h _

theorem symbolOfId_symbolId_of_hasSymbol {x : Symbol} (h : g.HasSymbol x) :
    g.symbolOfId (g.symbolId x) = x :=
  g.symbolOfId_symbolId fun _ ht => by subst ht; exact h

end Grammar

end PredictiveParsing
