import PredictiveParsing.Proofs.Lexicon.Scan
import PredictiveParsing.Proofs.Lookup.Compiled
import PredictiveParsing.Proofs.Parse.Soundness

/-!
# Parsing without a lookup that misses

A call of a nonterminal looks up its choice, the sets of its alternatives, the body and the shape of
the production that is chosen, and the names for an error. What is looked up in a set is the number
of a token, and tokens are read by rules that are numbered like the terminals. So no text makes a
lookup miss.

## Main definitions

* `Outcome.bind?`: one stretch of a parse after another, where lookups may miss
* `Compiled.descend?`, `Compiled.parse?`: parsing, stopped by a lookup that misses
* `Grammar.Reads`: the tokens of a scan have numbers of terminals

## Main results

* `Compiled.Coherent.descend?_eq`: no call of a nonterminal misses anything
* `Compiled.Coherent.parse?_eq`: no text makes a lookup miss
-/

namespace PredictiveParsing

/-! ## Stretches and lists -/

/-- **One stretch after another**, either of which may be stopped by a lookup that misses. -/
def Outcome.bind? {σ ε α β : Type} (o : Option (Outcome σ ε α))
    (next : α → σ → Option (Outcome σ ε β)) : Option (Outcome σ ε β) := do
  match ← o with
  | .ok v rest events => return (← next v rest).after events
  | .failed e events => return .failed e events
  | .exhausted => return .exhausted

theorem Outcome.bind?_some {σ ε α β : Type} {o : Outcome σ ε α}
    {next? : α → σ → Option (Outcome σ ε β)} {next : α → σ → Outcome σ ε β}
    (h : ∀ v rest events, o = .ok v rest events → next? v rest = some (next v rest)) :
    bind? (some o) next? = some (o.bind next) := by
  cases o with
  | ok v rest events =>
    show (do return (← next? v rest).after events) = _
    rw [h v rest events rfl]
    rfl
  | failed e events => rfl
  | exhausted => rfl

theorem Outcome.map_eq_bind {σ ε α β : Type} (o : Outcome σ ε α) (f : α → β) :
    o.map f = o.bind fun v s => .ok (f v) s [] := by
  cases o with
  | ok v rest events => simp [map, bind, after]
  | failed e events => rfl
  | exhausted => rfl

/-- A search whose tests all look up what is there. -/
theorem findM?_eq_some_find? {α : Type} {p? : α → Option Bool} {p : α → Bool} {l : List α}
    (h : ∀ a ∈ l, p? a = some (p a)) : l.findM? p? = some (l.find? p) := by
  induction l with
  | nil => rfl
  | cons a l ih =>
    have hl := ih fun b hb => h b (List.mem_cons_of_mem a hb)
    rw [List.findM?, h a List.mem_cons_self, List.find?_cons]
    show (match p a with | true => some (some a) | false => l.findM? p?) = _
    rw [hl]
    cases p a <;> rfl

/-! ## What a call looks up -/

namespace LookaheadSet

/-- Whether a terminal is in the set; it has to be one that the set is made for. -/
def hasTerminal? (s : LookaheadSet) (t : Nat) : Option Bool :=
  if t < s.size then some (s.hasTerminal t) else none

end LookaheadSet

namespace Choice

/-- The choice for a token, or for the end of the input. -/
def select? (c : Choice) (lookahead : Option Nat) : Option Selection := do
  let found ← match lookahead with
    | some t => c.prospects.findM? (·.lookahead.hasTerminal? t)
    | none => some none
  return match found with
    | some prospect => .alternative prospect.production
    | none =>
      match c.epsilon with
      | some p => .epsilon p
      | none => .none

/-- The names of the tokens that each alternative can begin with. -/
def expected? (c : Choice) (g : Grammar) : Option (List (List String)) :=
  c.prospects.mapM fun prospect => (prospect.lookahead.shown? g.terminalNames).map (·.1)

variable {c : Choice} {size : Nat}

theorem select?_eq (hsize : ∀ prospect ∈ c.prospects, prospect.lookahead.size = size)
    {lookahead : Option Nat} (h : ∀ t, lookahead = some t → t < size) :
    c.select? lookahead = some (c.select lookahead) := by
  cases lookahead with
  | none => rfl
  | some t =>
    have hfind : c.prospects.findM? (·.lookahead.hasTerminal? t) =
        some (c.prospects.find? (·.lookahead.hasTerminal t)) := by
      refine findM?_eq_some_find? fun prospect hprospect => if_pos ?_
      rw [hsize prospect hprospect]
      exact h t rfl
    rw [select?, select, Option.bind_some]
    show Option.bind (c.prospects.findM? _) _ = _
    rw [hfind]
    rfl

theorem expected?_eq {g : Grammar}
    (hsize : ∀ prospect ∈ c.prospects, prospect.lookahead.size = g.terminals.size) :
    c.expected? g = some (c.expected g) := by
  refine mapM_eq_some_map fun prospect hprospect => ?_
  rw [LookaheadSet.shown?_eq]
  · rfl
  · rw [hsize prospect hprospect, Grammar.terminalNames, Array.size_map]

end Choice

/-- The value of a production: its shape, and the type of a node, have to be there. -/
def Shapes.value? (s : Shapes) (p : Nat) (values : List Value) : Option Value := do
  match ← s.shapes[p]? with
  | .tuple => return if values.isEmpty then .empty else .tuple values
  | .suppressed => return .empty
  | .node nodeType keys => return .node (← s.nodeTypes[nodeType]?).name (keys.zip values)

/-- Every production has a shape, and a node has one of the types. -/
theorem Shapes.value?_ofGrammar {g : Grammar} {p : Nat} (hp : p < g.productions.size)
    (values : List Value) :
    (ofGrammar g).value? p values = some ((ofGrammar g).build p values) := by
  have hget : g.productions[p]? = some g.productions[p] := Array.getElem?_eq_getElem hp
  obtain ⟨shape, hshape, hbinding⟩ := exists_isShapeOf hget
  rw [build_ofGrammar hget, value?, ← shape?, hshape, Production.value]
  generalize g.productions[p].binding = binding at hbinding ⊢
  rcases binding with - | (⟨nodeType, fields⟩ | -)
  · obtain rfl : shape = .tuple := hbinding
    rfl
  · obtain ⟨i, hi, rfl⟩ := hbinding
    rw [List.getElem?_map, Option.map_eq_some_iff] at hi
    obtain ⟨t, ht, rfl⟩ := hi
    show (do return Value.node (← (ofGrammar g).nodeTypes[i]?).name _) = _
    rw [ht]
    rfl
  · obtain rfl : shape = .suppressed := hbinding
    rfl

/-! ## Parsing -/

/-- Reads symbols one after the other. -/
def readAll? (read : Symbol → Scan → Option (Outcome Scan ParseError Value)) :
    List Symbol → Scan → Option (Outcome Scan ParseError (List Value))
  | [], s => some (.ok [] s [])
  | x :: rest, s =>
    Outcome.bind? (read x s) fun v s => do return (← readAll? read rest s).map (v :: ·)

namespace Compiled

variable (c : Compiled)

/-- Reads a terminal. -/
def consume? (t : Nat) (s : Scan) : Option (Outcome Scan ParseError Value) := do
  let terminal ← c.grammar.terminals[t]?
  match s with
  | .stuck e => return .failed (.scan e) []
  | .done line => return .failed (.unexpectedToken line terminal.name (.ofToken none)) []
  | .token token rest =>
    if token.terminal = t then
      return .ok (.token token.text) rest [.consume token.name token.text]
    else
      return .failed (.unexpectedToken token.line terminal.name (.ofToken (some token))) []

/-- Reads the symbols of a production and makes its value. -/
def readProduction? (read : Symbol → Scan → Option (Outcome Scan ParseError Value)) (p : Nat)
    (s : Scan) : Option (Outcome Scan ParseError Value) := do
  Outcome.bind? (readAll? read (← c.grammar.body? p) s) fun values s => do
    return .ok (← c.shapes.value? p values) s []

/-- **Reads a nonterminal** with at most `fuel` nested calls, unless a lookup misses. -/
def descend? : (fuel : Nat) → (nt : Nat) → Scan → Option (Outcome Scan ParseError Value)
  | 0, _, _ => some .exhausted
  | fuel + 1, nt, s =>
    match s.peek with
    | .error e => some (.failed (.scan e) [])
    | .ok next => do
      let nonterminal ← c.grammar.nonterminals[nt]?
      let choice ← c.prediction.choices[nt]?
      let read (p : Nat) := c.readProduction? (fun
        | .terminal t => c.consume? t
        | .nonterminal m => descend? fuel m) p s
      let selection ← choice.select? (next.map (·.terminal))
      let outcome := match selection with
        | .alternative p => read p
        | .epsilon p => read p
        | .none => (choice.expected? c.grammar).map fun expected =>
          .failed (.noAlternative s.line nonterminal.name expected (.ofToken next)) []
      return (← outcome).after [.enter nonterminal.name s.line]

/-- Parses a scan from the start symbol to its end. -/
def parseScan? (s : Scan) : Option (Outcome Scan ParseError Value) :=
  Outcome.bind? (c.descend? (c.callBound s.length) c.grammar.start s) fun v s => some (readEnd v s)

/-- **Parses a text**, unless a lookup misses. -/
def parse? (text : String) : Option (Outcome Scan ParseError Value) :=
  c.parseScan? (c.grammar.lexicon.scan text.toList)

end Compiled

/-! ## Nothing is missed -/

/-- **The tokens of a scan have numbers of terminals.** -/
def Grammar.Reads (g : Grammar) (s : Scan) : Prop := ∀ t ∈ s.tokens, t.terminal < g.terminals.size

theorem Grammar.Reads.lt_of_peek {g : Grammar} {s : Scan} (hs : g.Reads s) {next : Option Token}
    (hpeek : s.peek = .ok next) {t : Nat} (ht : next.map (·.terminal) = some t) :
    t < g.terminals.size := by
  obtain ⟨token, rfl, rfl⟩ := Option.map_eq_some_iff.mp ht
  cases s with
  | token token' rest =>
    cases hpeek
    exact hs token List.mem_cons_self
  | done line => cases hpeek
  | stuck e => cases hpeek

/-- A scan of a text reads tokens of the grammar. -/
theorem Grammar.WellFormed.reads_scanFrom {g : Grammar} (wf : g.WellFormed) (line : Nat)
    (text : List Char) : g.Reads (g.lexicon.scanFrom line text) := by
  fun_induction Lexicon.scanFrom g.lexicon line text with
  | case1 => simp [Reads, Scan.tokens]
  | case2 => simp [Reads, Scan.tokens]
  | case3 line text t hitem ih =>
    intro t' ht'
    rcases List.mem_cons.mp ht' with rfl | ht'
    · exact (wf.hasToken_of_next hitem).lt
    · exact ih t' ht'

section ReadAll

variable {g : Grammar} {read? : Symbol → Scan → Option (Outcome Scan ParseError Value)}
  {read : Symbol → Reading Value} {s : Scan}

/-- **Symbols are read without a miss** if each of them is, wherever it starts. -/
theorem readAll?_eq {xs : List Symbol}
    (hread : ∀ x ∈ xs, ∀ s, g.Reads s → read? x s = some (read x s))
    (hrest : ∀ x s v s' events, g.Reads s → read x s = .ok v s' events → g.Reads s')
    (hs : g.Reads s) : readAll? read? xs s = some (readAll read xs s) := by
  induction xs generalizing s with
  | nil => rfl
  | cons x xs ih =>
    have hxs := fun y hy => hread y (List.mem_cons_of_mem x hy)
    rw [readAll?, readAll, hread x List.mem_cons_self s hs]
    refine Outcome.bind?_some fun v s' events hx => ?_
    rw [ih hxs (hrest x s v s' events hs hx)]
    rfl

end ReadAll

namespace Compiled.Coherent

variable {c : Compiled} (hc : c.Coherent) {nt t : Nat} {s : Scan}

include hc

/-- What is left after a symbol has been read is a part of the scan. -/
theorem reads_rest {fuel : Nat} {x : Symbol} {v : Value} {s' : Scan} {events : List Event}
    (hs : c.grammar.Reads s) (h : c.readSymbol fuel x s = .ok v s' events) :
    c.grammar.Reads s' := by
  obtain ⟨tree, -, -, rfl, -⟩ := hc.readsTrees fuel x s v s' events h
  intro token htoken
  refine hs token ?_
  rw [Scan.tokens_prepend]
  exact List.mem_append_right _ htoken

omit hc in
theorem consume?_eq (ht : t < c.grammar.terminals.size) :
    c.consume? t s = some (c.consume t s) := by
  have hname : c.grammar.terminalName t = c.grammar.terminals[t].name := by
    simp [Grammar.terminalName, ht]
  rw [consume?, Array.getElem?_eq_getElem ht, consume.eq_def, hname]
  cases s with
  | stuck e => rfl
  | done line => rfl
  | token token rest =>
    by_cases htoken : token.terminal = t
    · simp only [if_pos htoken]
      rfl
    · simp only [if_neg htoken]
      rfl

/-- There is a choice for each nonterminal. -/
theorem choice?_eq (hnt : nt < c.grammar.nonterminals.size) :
    c.prediction.choices[nt]? = some (c.prediction.choice nt) := by
  have hlt : nt < c.prediction.choices.size := by
    rw [hc.prediction]
    simpa [Prediction.ofAnalysis] using hnt
  simp [Prediction.choice, hlt]

/-- The sets of a choice are made for the terminals of the grammar. -/
theorem size_prospect {prospect : Prospect}
    (h : prospect ∈ (c.prediction.choice nt).prospects) :
    prospect.lookahead.size = c.grammar.terminals.size := by
  rw [hc.choice_eq] at h
  obtain ⟨p, hp, rfl⟩ := List.mem_map.mp h
  rw [LookaheadSet.size_withoutEpsilon, hc.size_production hp]

/-- **A production is read without a miss** if its symbols are. -/
theorem readProduction?_eq {fuel p : Nat}
    {read? : Symbol → Scan → Option (Outcome Scan ParseError Value)}
    (hread : ∀ x s, c.grammar.HasSymbol x → c.grammar.Reads s →
      read? x s = some (c.readSymbol fuel x s))
    (hp : p ∈ c.grammar.alternatives nt) (hs : c.grammar.Reads s) :
    c.readProduction? read? p s =
      some ((readAll (c.readSymbol fuel) (c.grammar.body p) s).map (c.shapes.build p)) := by
  have hlt := hc.wellFormed.alternative_lt hp
  have hbody : readAll? read? (c.grammar.body p) s =
      some (readAll (c.readSymbol fuel) (c.grammar.body p) s) :=
    readAll?_eq (fun x hx s hs => hread x s (hc.wellFormed.hasSymbol_of_mem_body hp hx) hs)
      (fun x s v s' events hs h => hc.reads_rest hs h) hs
  rw [readProduction?, Grammar.body?_eq hlt, Outcome.map_eq_bind]
  show Outcome.bind? (readAll? read? (c.grammar.body p) s) _ = _
  rw [hbody]
  refine Outcome.bind?_some fun values s' events _ => ?_
  rw [hc.shapes, Shapes.value?_ofGrammar hlt]
  rfl

/-- **No call of a nonterminal misses anything.** -/
theorem descend?_eq (fuel : Nat) (hnt : nt < c.grammar.nonterminals.size)
    (hs : c.grammar.Reads s) : c.descend? fuel nt s = some (c.descend fuel nt s) := by
  induction fuel generalizing nt s with
  | zero => rfl
  | succ fuel ih =>
    have hname : c.grammar.nonterminalName nt = c.grammar.nonterminals[nt].name := by
      simp [Grammar.nonterminalName, hnt]
    rw [descend_succ]
    unfold descend?
    cases hpeek : s.peek with
    | error e => rfl
    | ok next =>
      have hsize (prospect : Prospect) (h : prospect ∈ (c.prediction.choice nt).prospects) :
          prospect.lookahead.size = c.grammar.terminals.size := hc.size_prospect h
      have hselect := Choice.select?_eq hsize fun t ht => hs.lt_of_peek hpeek ht
      have hread {p : Nat} (hp : ((c.prediction.choice nt).select
          (next.map (·.terminal))).production? = some p) :
          c.readProduction? (fun
            | .terminal t => c.consume? t
            | .nonterminal m => c.descend? fuel m) p s =
          some ((readAll (c.readSymbol fuel) (c.grammar.body p) s).map (c.shapes.build p)) := by
        refine hc.readProduction?_eq ?_ (hc.mem_alternatives_of_select hp) hs
        rintro (t | m) s hx hs
        · exact consume?_eq hx
        · exact ih hx hs
      simp only [Array.getElem?_eq_getElem hnt, hc.choice?_eq hnt, hselect, Option.bind_eq_bind,
        Option.bind_some, production?, hname]
      cases hselection : (c.prediction.choice nt).select (next.map (·.terminal)) with
      | alternative p =>
        show Option.bind (c.readProduction? _ p s) _ = _
        rw [hread (hselection ▸ rfl)]
        rfl
      | epsilon p =>
        show Option.bind (c.readProduction? _ p s) _ = _
        rw [hread (hselection ▸ rfl)]
        rfl
      | none =>
        rw [Choice.expected?_eq hsize]
        rfl

/-- **No text makes a lookup miss.** -/
theorem parse?_eq (text : String) : c.parse? text = some (c.parse text) := by
  have hreads : c.grammar.Reads (c.grammar.lexicon.scan text.toList) :=
    hc.wellFormed.reads_scanFrom 1 text.toList
  rw [parse?, parse, parseScan?, parseScan,
    hc.descend?_eq _ hc.wellFormed.start_lt hreads]
  exact Outcome.bind?_some fun v s events _ => rfl

end Compiled.Coherent

end PredictiveParsing
