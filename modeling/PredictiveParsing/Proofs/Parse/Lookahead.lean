import PredictiveParsing.Proofs.Parse.Failure
import PredictiveParsing.Proofs.Parse.Nesting

/-!
# The next token does not mislead

A nonterminal takes an alternative either because the next token begins it, or because it can
vanish and the token begins no alternative. The alternatives may clash, and what is taken may fail
later; but the next token itself has been promised nothing wrong. In the first case it is consumed
before anything can fail: it begins a symbol of the body behind others that vanish before it. In
the second case every symbol of the body is a nonterminal that vanishes in its turn, so the body is
read without consuming anything.

Both are inductions on the nested calls. Inside the body other nonterminals choose by the same
token, and FIRST of the body says of each of them which of the two cases it is.

## Main definitions

* `Compiled.Begins`: a terminal begins a sequence of symbols
* `Compiled.Vanishes`: a nonterminal can vanish, and the next token does not begin it
* `Compiled.readProduction`: reading the body of a production
* `Outcome.Consumes`: an outcome has consumed some number of tokens
* `Outcome.Leaves`: an outcome leaves a scan as it is

## Main results

* `Compiled.Coherent.select_alternative`, `select_epsilon`, `production?_eq_none`: what a choice
  says about the next token
* `Compiled.Coherent.mem_expectedTokens`: what is asked for where nothing is chosen
* `Compiled.Coherent.leaves_of_vanishes`: what vanishes leaves the scan as it is
* `Compiled.Coherent.consumes_of_begins`: a token is consumed by a symbol that it begins
* `Compiled.readProduction_of_select`: both together, for every nonterminal
-/

namespace PredictiveParsing

open SyntaxTree (yieldAll)

/-! ## Numbers of consumed tokens -/

namespace Outcome

variable {σ ε α β : Type} {o : Outcome σ ε α} {v : α} {s : σ} {e : ε} {events : List Event}
  {n : Nat}

@[simp] theorem events_map {f : α → β} : (o.map f).events = o.events := by
  cases o <;> rfl

/-- **An outcome has consumed at least so many tokens**, unless it needs more nested calls. -/
def Consumes (n : Nat) (o : Outcome σ ε α) : Prop :=
  o = .exhausted ∨ n ≤ (Event.consumptions o.events).length

@[simp] theorem consumes_ok :
    (ok v s events : Outcome σ ε α).Consumes n ↔ n ≤ (Event.consumptions events).length := by
  simp [Consumes, Outcome.events]

@[simp] theorem consumes_failed :
    (failed e events : Outcome σ ε α).Consumes n ↔ n ≤ (Event.consumptions events).length := by
  simp [Consumes, Outcome.events]

@[simp] theorem consumes_exhausted : (exhausted : Outcome σ ε α).Consumes n := .inl rfl

@[simp] theorem consumes_map {f : α → β} : (o.map f).Consumes n ↔ o.Consumes n := by
  cases o <;> simp [map]

/-- What has been consumed earlier counts as well. -/
theorem Consumes.after (h : o.Consumes n) (earlier : List Event) :
    (o.after earlier).Consumes ((Event.consumptions earlier).length + n) := by
  cases o with
  | ok v s events => simpa [Outcome.after] using h
  | failed e events => simpa [Outcome.after] using h
  | exhausted => exact consumes_exhausted

theorem Consumes.after_enter (h : o.Consumes n) (name : String) (line : Nat) :
    (o.after [.enter name line]).Consumes n := by
  simpa using h.after [.enter name line]

/-- What has been consumed stays so when more is read. -/
theorem Consumes.bind (h : o.Consumes n) (next : α → σ → Outcome σ ε β) :
    (o.bind next).Consumes n := by
  cases o with
  | ok v s events =>
    have hn := consumes_ok.mp h
    cases hnext : next v s with
    | ok w r later =>
      simp only [Outcome.bind, hnext, Outcome.after, consumes_ok, Event.consumptions_append,
        List.length_append]
      omega
    | failed e later =>
      simp only [Outcome.bind, hnext, Outcome.after, consumes_failed, Event.consumptions_append,
        List.length_append]
      omega
    | exhausted => simp [Outcome.bind, hnext, Outcome.after]
  | failed e events => simpa [Outcome.bind] using h
  | exhausted => exact consumes_exhausted

/-- **An outcome leaves a scan as it is**: it succeeds without having consumed anything, unless it
needs more nested calls. -/
def Leaves (s : σ) (o : Outcome σ ε α) : Prop :=
  o = .exhausted ∨ ∃ v events, o = .ok v s events ∧ Event.consumptions events = []

theorem Leaves.map (h : o.Leaves s) (f : α → β) : (o.map f).Leaves s := by
  obtain rfl | ⟨v, events, rfl, hevents⟩ := h
  · exact .inl rfl
  · exact .inr ⟨f v, events, rfl, hevents⟩

theorem Leaves.after_enter (h : o.Leaves s) (name : String) (line : Nat) :
    (o.after [.enter name line]).Leaves s := by
  obtain rfl | ⟨v, events, rfl, hevents⟩ := h
  · exact .inl rfl
  · exact .inr ⟨v, .enter name line :: events, rfl, hevents⟩

/-- Two stretches that leave a scan as it is leave it so one after the other. -/
theorem Leaves.bind (h : o.Leaves s) {next : α → σ → Outcome σ ε β}
    (hnext : ∀ v, (next v s).Leaves s) : (o.bind next).Leaves s := by
  obtain rfl | ⟨v, earlier, rfl, hearlier⟩ := h
  · exact .inl rfl
  · rcases hnext v with hex | ⟨w, later, hlater, hevents⟩
    · exact .inl (by simp [Outcome.bind, hex])
    · refine .inr ⟨w, earlier ++ later, by simp [Outcome.bind, hlater, Outcome.after], ?_⟩
      rw [Event.consumptions_append, hearlier, hevents, List.nil_append]

end Outcome

/-- The next item is a token only if the scan begins with it. -/
theorem Scan.exists_of_peek {s : Scan} {t : Token} (h : s.peek = .ok (some t)) :
    ∃ rest, s = .token t rest := by
  cases s with
  | token u rest =>
    obtain rfl : u = t := Option.some.inj (Except.ok.inj h)
    exact ⟨rest, rfl⟩
  | done line => cases h
  | stuck e => cases h

/-- The names in a set are those of its terminals. -/
theorem LookaheadSet.mem_names {g : Grammar} {s : LookaheadSet} (hsize : s.size = g.terminals.size)
    {name : String} : name ∈ s.names g.terminalNames ↔
      ∃ t ∈ s.terminals, g.terminalName t = name := by
  rw [names, List.mem_filterMap]
  refine exists_congr fun t => and_congr_right fun ht => ?_
  have hlt : t < g.terminals.size := hsize ▸ (mem_terminals.mp ht).2
  simp [Grammar.terminalNames, Grammar.terminalName, hlt]

namespace Compiled

variable {c : Compiled}

/-! ## What the next token begins -/

/-- **A terminal begins a sequence of symbols**, by what the sequence can begin with. -/
def Begins (c : Compiled) (t : Nat) (xs : List Symbol) : Prop :=
  t < c.grammar.terminals.size ∧
    t ∈ (bodyFirst c.grammar.terminals.size c.analysis.first.symbol xs).slots

/-- **A nonterminal vanishes before an item**: it can vanish, and if the item is a token this does
not begin it. -/
def Vanishes (c : Compiled) (next : Option Token) (nt : Nat) : Prop :=
  c.analysis.first.nullable (.nonterminal nt) = true ∧
    ∀ t, next = some t → ¬ c.Begins t.terminal [.nonterminal nt]

@[simp] theorem not_begins_nil {t : Nat} : ¬ c.Begins t [] := by
  rintro ⟨hlt, hmem⟩
  rw [mem_bodyFirst_nil] at hmem
  omega

namespace Coherent

variable (hc : c.Coherent)

include hc

/-- A token begins a sequence if it begins the first symbol, or if this can vanish and the token
begins the others. -/
theorem begins_cons {t : Nat} {x : Symbol} {xs : List Symbol} : c.Begins t (x :: xs) ↔
    c.Begins t [x] ∨ c.analysis.first.nullable x = true ∧ c.Begins t xs := by
  have hsize := FirstSets.size_symbol hc.wellFormed hc.firstSets
  simp only [Begins, mem_bodyFirst_cons hsize, mem_bodyFirst_nil, FirstSets.nullable,
    LookaheadSet.hasEpsilon_iff, hsize]
  constructor
  · rintro ⟨hlt, hmem | hmem⟩
    · exact .inl ⟨hlt, .inl hmem⟩
    · exact .inr ⟨hmem.1, hlt, hmem.2⟩
  · rintro (⟨hlt, hmem | ⟨-, rfl⟩⟩ | ⟨hnull, hlt, hmem⟩)
    · exact ⟨hlt, .inl hmem⟩
    · omega
    · exact ⟨hlt, .inr ⟨hnull, hmem⟩⟩

/-- What begins a sequence also begins it behind symbols that can vanish. -/
theorem begins_append {t : Nat} {xs ys : List Symbol}
    (hxs : ∀ x ∈ xs, c.analysis.first.nullable x = true) (h : c.Begins t ys) :
    c.Begins t (xs ++ ys) := by
  have hsize := FirstSets.size_symbol hc.wellFormed hc.firstSets
  refine ⟨h.1, (mem_bodyFirst_append hsize).mpr (.inr ⟨?_, h.2⟩)⟩
  exact (epsilon_mem_bodyFirst hsize).mpr hxs

theorem begins_symbol {t : Nat} {x : Symbol} : c.Begins t [x] ↔
    t < c.grammar.terminals.size ∧ t ∈ (c.analysis.first.symbol x).slots := by
  have hsize := FirstSets.size_symbol hc.wellFormed hc.firstSets
  simp only [Begins, mem_bodyFirst_cons hsize, mem_bodyFirst_nil]
  refine and_congr_right fun hlt => ⟨?_, fun hmem => .inl ⟨hmem, by omega⟩⟩
  rintro (⟨hmem, -⟩ | ⟨-, rfl⟩)
  · exact hmem
  · omega

theorem begins_nonterminal_iff_mem {t nt : Nat} : c.Begins t [.nonterminal nt] ↔
    t ∈ (c.analysis.first.nonterminal nt).terminals := by
  have hsize : (c.analysis.first.nonterminal nt).size = c.grammar.terminals.size :=
    FirstSets.size_symbol hc.wellFormed hc.firstSets (.nonterminal nt)
  rw [hc.begins_symbol, LookaheadSet.mem_terminals, hsize, and_comm, FirstSets.symbol]

theorem begins_terminal {t u : Nat} (h : c.Begins t [.terminal u]) : t = u := by
  have hmem := (hc.begins_symbol.mp h).2
  simpa [FirstSets.symbol, LookaheadSet.singleton, LookaheadSet.empty] using hmem

/-- A terminal cannot vanish. -/
theorem nullable_terminal {t : Nat} (ht : t < c.grammar.terminals.size) :
    c.analysis.first.nullable (.terminal t) = false := by
  rw [FirstSets.nullable, ← FirstSets.size_symbol hc.wellFormed hc.firstSets (.terminal t)] at *
  exact LookaheadSet.hasEpsilon_singleton ht

/-- A token begins a nonterminal just if it begins an alternative. -/
theorem begins_nonterminal {t nt : Nat} : c.Begins t [.nonterminal nt] ↔
    ∃ p ∈ c.grammar.alternatives nt, c.Begins t (c.grammar.body p) := by
  rw [hc.begins_symbol]
  constructor
  · rintro ⟨hlt, hmem⟩
    obtain ⟨production, hproduction, rfl, hbegins⟩ :=
      (FirstSets.mem_nonterminal hc.wellFormed hc.firstSets).mp hmem
    obtain ⟨p, hp, -, hbody⟩ := hc.wellFormed.exists_alternative hproduction
    exact ⟨p, hp, hlt, hbody ▸ hbegins⟩
  · rintro ⟨p, hp, hlt, hmem⟩
    exact ⟨hlt, hc.mem_nonterminal_of_mem_production hp (hc.production_eq hp ▸ hmem)⟩

/-- The test of a choice for an alternative is whether the token begins its body. -/
theorem hasTerminal_production_iff {nt p t : Nat} (hp : p ∈ c.grammar.alternatives nt) :
    (c.analysis.first.production p).withoutEpsilon.hasTerminal t = true ↔
      c.Begins t (c.grammar.body p) := by
  rw [LookaheadSet.hasTerminal_iff, LookaheadSet.mem_slots_withoutEpsilon, hc.size_production hp,
    hc.production_eq hp]
  constructor
  · rintro ⟨hmem, hne⟩
    have hbegin := (FirstSets.mem_bodyFirst_iff hc.wellFormed hc.firstSets fun x hx =>
      hc.wellFormed.hasSymbol_of_mem_body hp hx).mp hmem
    exact ⟨hbegin.lt_or_eq.resolve_right hne, hmem⟩
  · rintro ⟨hlt, hmem⟩
    exact ⟨hmem, by omega⟩

/-! ## What a choice says about the next token -/

/-- **An alternative is chosen that the next token begins.** -/
theorem select_alternative {nt p : Nat} {next : Option Token}
    (h : (c.prediction.choice nt).select (next.map (·.terminal)) = .alternative p) :
    p ∈ c.grammar.alternatives nt ∧
      ∃ t, next = some t ∧ c.Begins t.terminal (c.grammar.body p) := by
  rw [hc.choice_eq, Choice.select_eq_alternative] at h
  obtain ⟨_, hnext, hfind⟩ := h
  obtain ⟨t, rfl, rfl⟩ := Option.map_eq_some_iff.mp hnext
  have hp := List.mem_of_find?_eq_some hfind
  have htest := List.find?_some hfind
  exact ⟨hp, t, rfl, (hc.hasTerminal_production_iff hp).mp htest⟩

/-- If the next token begins a nonterminal, an alternative that it begins is chosen. -/
theorem exists_select_of_begins {nt : Nat} {t : Token} (h : c.Begins t.terminal [.nonterminal nt]) :
    ∃ p, (c.prediction.choice nt).select ((some t).map (·.terminal)) = .alternative p := by
  obtain ⟨p, hp, hbegins⟩ := hc.begins_nonterminal.mp h
  have hsome : ((c.grammar.alternatives nt).find? fun q =>
      (c.analysis.first.production q).withoutEpsilon.hasTerminal t.terminal).isSome :=
    List.find?_isSome.mpr ⟨p, hp, (hc.hasTerminal_production_iff hp).mpr hbegins⟩
  obtain ⟨q, hq⟩ := Option.isSome_iff_exists.mp hsome
  rw [hc.choice_eq]
  exact ⟨q, Choice.select_eq_alternative.mpr ⟨t.terminal, rfl, hq⟩⟩

/-- If a nonterminal vanishes before the next item, an alternative is chosen to vanish. -/
theorem exists_select_of_vanishes {nt : Nat} {next : Option Token} (h : c.Vanishes next nt) :
    ∃ p, (c.prediction.choice nt).select (next.map (·.terminal)) = .epsilon p := by
  have hsize := FirstSets.size_symbol hc.wellFormed hc.firstSets
  obtain ⟨hnull, hbegins⟩ := h
  rw [FirstSets.nullable, LookaheadSet.hasEpsilon_iff, hsize] at hnull
  obtain ⟨production, hproduction, rfl, hepsilon⟩ :=
    (FirstSets.mem_nonterminal hc.wellFormed hc.firstSets).mp hnull
  obtain ⟨p, hp, -, hbody⟩ := hc.wellFormed.exists_alternative hproduction
  have hsome : ((c.grammar.alternatives production.head).find? fun q =>
      (c.analysis.first.production q).hasEpsilon).isSome := by
    refine List.find?_isSome.mpr ⟨p, hp, ?_⟩
    rw [LookaheadSet.hasEpsilon_iff, hc.size_production hp, hc.production_eq hp, hbody]
    exact hepsilon
  obtain ⟨q, hq⟩ := Option.isSome_iff_exists.mp hsome
  rw [hc.choice_eq]
  refine ⟨q, Choice.select_eq_epsilon.mpr ⟨?_, hq⟩⟩
  -- no alternative is taken before that, for the token does not begin the nonterminal
  intro t hnext r hr
  apply Bool.eq_false_iff.mpr
  intro htest
  obtain ⟨token, rfl, rfl⟩ := Option.map_eq_some_iff.mp hnext
  exact hbegins token rfl
    (hc.begins_nonterminal.mpr ⟨r, hr, (hc.hasTerminal_production_iff hr).mp htest⟩)

/-- **A production is chosen to vanish whose symbols vanish** before the next item. -/
theorem select_epsilon {nt p : Nat} {next : Option Token}
    (h : (c.prediction.choice nt).select (next.map (·.terminal)) = .epsilon p) :
    p ∈ c.grammar.alternatives nt ∧ c.Vanishes next nt ∧
      ∀ x ∈ c.grammar.body p, ∃ m, x = .nonterminal m ∧ c.Vanishes next m := by
  have hsize := FirstSets.size_symbol hc.wellFormed hc.firstSets
  rw [hc.choice_eq, Choice.select_eq_epsilon] at h
  obtain ⟨hnone, hfind⟩ := h
  have hp := List.mem_of_find?_eq_some hfind
  have hepsilon := List.find?_some hfind
  rw [LookaheadSet.hasEpsilon_iff, hc.size_production hp] at hepsilon
  have hnt (t : Token) (ht : next = some t) : ¬ c.Begins t.terminal [.nonterminal nt] := by
    rw [hc.begins_nonterminal]
    rintro ⟨q, hq, hbegins⟩
    have htest := (hc.hasTerminal_production_iff hq).mpr hbegins
    rw [hnone t.terminal (by rw [ht]; rfl) q hq] at htest
    cases htest
  refine ⟨hp, ⟨?_, hnt⟩, ?_⟩
  · rw [FirstSets.nullable, LookaheadSet.hasEpsilon_iff, hsize]
    exact hc.mem_nonterminal_of_mem_production hp hepsilon
  · intro x hx
    rw [hc.production_eq hp, epsilon_mem_bodyFirst hsize] at hepsilon
    have hx' := hc.wellFormed.hasSymbol_of_mem_body hp hx
    cases x with
    | terminal t =>
      have hnull : c.analysis.first.nullable (.terminal t) = true := hepsilon _ hx
      rw [hc.nullable_terminal hx'] at hnull
      cases hnull
    | nonterminal m =>
      refine ⟨m, rfl, hepsilon _ hx, ?_⟩
      intro t ht hbegins
      apply hnt t ht
      -- what begins a symbol of the body begins the body, for all that stands before it vanishes
      obtain ⟨before, after, hbody⟩ := List.append_of_mem hx
      refine hc.begins_nonterminal.mpr ⟨p, hp, ?_⟩
      rw [hbody]
      refine hc.begins_append (fun y hy => hepsilon y ?_) (hc.begins_cons.mpr (.inl hbegins))
      rw [hbody]
      exact List.mem_append_left _ hy

/-- Which production is chosen to vanish does not depend on the next item, as long as this is not
a token that begins the nonterminal. -/
theorem select_epsilon_of_not_begins {nt p : Nat} {next : Option Token}
    (h : (c.prediction.choice nt).select (next.map (·.terminal)) = .epsilon p)
    (next' : Option Token) (hnext : ∀ t, next' = some t → ¬ c.Begins t.terminal [.nonterminal nt]) :
    (c.prediction.choice nt).select (next'.map (·.terminal)) = .epsilon p := by
  obtain ⟨q, hq⟩ := hc.exists_select_of_vanishes ⟨(hc.select_epsilon h).2.1.1, hnext⟩
  rw [hc.choice_eq] at h hq ⊢
  have hp := (Choice.select_eq_epsilon.mp h).2
  have hq' := (Choice.select_eq_epsilon.mp hq).2
  obtain rfl := Option.some.inj (hp.symm.trans hq')
  exact hq

/-- **Nothing is chosen** just if the nonterminal cannot vanish and the next token does not begin
it. -/
theorem production?_eq_none {nt : Nat} {next : Option Token} : c.production? nt next = none ↔
    c.analysis.first.nullable (.nonterminal nt) = false ∧
      ∀ t, next = some t → ¬ c.Begins t.terminal [.nonterminal nt] := by
  constructor
  · intro h
    have hnt (t : Token) (ht : next = some t) : ¬ c.Begins t.terminal [.nonterminal nt] := by
      intro hbegins
      obtain ⟨p, hp⟩ := hc.exists_select_of_begins hbegins
      rw [production?, ht, hp] at h
      cases h
    refine ⟨Bool.eq_false_iff.mpr ?_, hnt⟩
    intro hnull
    obtain ⟨p, hp⟩ := hc.exists_select_of_vanishes ⟨hnull, hnt⟩
    rw [production?, hp] at h
    cases h
  · rintro ⟨hnull, hbegins⟩
    cases hselect : (c.prediction.choice nt).select (next.map (·.terminal)) with
    | alternative p =>
      obtain ⟨hp, t, ht, hbody⟩ := hc.select_alternative hselect
      exact absurd (hc.begins_nonterminal.mpr ⟨p, hp, hbody⟩) (hbegins t ht)
    | epsilon p =>
      rw [(hc.select_epsilon hselect).2.1.1] at hnull
      cases hnull
    | none => rw [production?, hselect]; rfl

/-- **Where nothing is chosen, the tokens that begin the nonterminal are asked for.** -/
theorem mem_expectedTokens {nt line : Nat} {nonterminal : String} {found : Found} {name : String} :
    name ∈ (ParseError.noAlternative line nonterminal
        ((c.prediction.choice nt).expected c.grammar) found).expectedTokens ↔
      ∃ t, c.Begins t [.nonterminal nt] ∧ c.grammar.terminalName t = name := by
  rw [ParseError.expectedTokens, List.mem_eraseDups, hc.choice_eq, Choice.expected,
    Prediction.choiceOf, List.map_map, List.mem_flatten]
  have hsize {p : Nat} (hp : p ∈ c.grammar.alternatives nt) :
      (c.analysis.first.production p).withoutEpsilon.size = c.grammar.terminals.size :=
    hc.size_production hp
  constructor
  · rintro ⟨names, hnames, hname⟩
    obtain ⟨p, hp, rfl⟩ := List.mem_map.mp hnames
    obtain ⟨t, ht, hname⟩ := (LookaheadSet.mem_names (hsize hp)).mp hname
    have hbegins := (hc.hasTerminal_production_iff hp).mp
      (LookaheadSet.hasTerminal_iff.mpr (LookaheadSet.mem_terminals.mp ht).1)
    exact ⟨t, hc.begins_nonterminal.mpr ⟨p, hp, hbegins⟩, hname⟩
  · rintro ⟨t, hbegins, hname⟩
    obtain ⟨p, hp, hbody⟩ := hc.begins_nonterminal.mp hbegins
    have hmem := LookaheadSet.hasTerminal_iff.mp ((hc.hasTerminal_production_iff hp).mpr hbody)
    have hterminal : t ∈ (c.analysis.first.production p).withoutEpsilon.terminals :=
      LookaheadSet.mem_terminals.mpr ⟨hmem, hsize hp ▸ hbegins.1⟩
    exact ⟨_, List.mem_map.mpr ⟨p, hp, rfl⟩,
      (LookaheadSet.mem_names (hsize hp)).mpr ⟨t, hterminal, hname⟩⟩

end Coherent

/-! ## What is read -/

/-- **Reads the body of a production** with at most `fuel` nested calls, and makes the value. -/
def readProduction (c : Compiled) (fuel p : Nat) : Reading Value := fun s =>
  (readAll (c.readSymbol fuel) (c.grammar.body p) s).map (c.shapes.build p)

theorem production?_of_select_alternative {nt p : Nat} {next : Option Token}
    (h : (c.prediction.choice nt).select (next.map (·.terminal)) = .alternative p) :
    c.production? nt next = some p := by
  rw [production?, h]
  rfl

theorem production?_of_select_epsilon {nt p : Nat} {next : Option Token}
    (h : (c.prediction.choice nt).select (next.map (·.terminal)) = .epsilon p) :
    c.production? nt next = some p := by
  rw [production?, h]
  rfl

theorem descend_succ_of_production? {fuel nt p : Nat} {s : Scan} {next : Option Token}
    (hpeek : s.peek = .ok next) (hp : c.production? nt next = some p) :
    c.descend (fuel + 1) nt s =
      (c.readProduction fuel p s).after [.enter (c.grammar.nonterminalName nt) s.line] := by
  rw [descend_succ, hpeek]
  simp only [hp]
  rfl

/-- If nonterminals that vanish leave the scan as it is, so do sequences of them. -/
theorem leaves_of_readAll {fuel : Nat} {s : Scan} {next : Option Token}
    (hread : ∀ m, c.Vanishes next m → (c.descend fuel m s).Leaves s) {xs : List Symbol}
    (hxs : ∀ x ∈ xs, ∃ m, x = .nonterminal m ∧ c.Vanishes next m) :
    (readAll (c.readSymbol fuel) xs s).Leaves s := by
  induction xs with
  | nil => exact .inr ⟨[], [], rfl, rfl⟩
  | cons x xs ih =>
    obtain ⟨m, rfl, hm⟩ := hxs x List.mem_cons_self
    have hrest := ih fun y hy => hxs y (List.mem_cons_of_mem _ hy)
    exact Outcome.Leaves.bind (hread m hm) fun v => hrest.map _

namespace Coherent

variable (hc : c.Coherent)

include hc

/-- **What vanishes before the next item leaves the scan as it is.** -/
theorem leaves_of_vanishes (fuel : Nat) {nt : Nat} {s : Scan} {next : Option Token}
    (hpeek : s.peek = .ok next) (h : c.Vanishes next nt) : (c.descend fuel nt s).Leaves s := by
  -- Induction on the nested calls: the symbols of the body vanish before the same item.
  induction fuel generalizing nt with
  | zero => exact .inl rfl
  | succ fuel ih =>
    obtain ⟨p, hp⟩ := hc.exists_select_of_vanishes h
    obtain ⟨-, -, hbody⟩ := hc.select_epsilon hp
    have hread := leaves_of_readAll (fun m hm => ih hm) hbody
    rw [descend_succ_of_production? hpeek (production?_of_select_epsilon hp)]
    exact (hread.map _).after_enter _ _

/-- If symbols that a token begins consume it, so do sequences: what stands before such a symbol
vanishes. -/
theorem consumes_of_readAll {fuel : Nat} {t : Token} {rest : Scan}
    (hread : ∀ x, c.Begins t.terminal [x] → (c.readSymbol fuel x (.token t rest)).Consumes 1)
    {xs : List Symbol} (hxs : ∀ x ∈ xs, c.grammar.HasSymbol x) (h : c.Begins t.terminal xs) :
    (readAll (c.readSymbol fuel) xs (.token t rest)).Consumes 1 := by
  induction xs with
  | nil => exact absurd h not_begins_nil
  | cons x xs ih =>
    by_cases hx : c.Begins t.terminal [x]
    · exact (hread x hx).bind _
    · -- the symbol does not take the token, so it vanishes and the token begins the rest
      obtain ⟨hnull, hrest⟩ := (hc.begins_cons.mp h).resolve_left hx
      cases x with
      | terminal u =>
        rw [hc.nullable_terminal (hxs _ List.mem_cons_self)] at hnull
        cases hnull
      | nonterminal m =>
        have hm : c.Vanishes (some t) m := ⟨hnull, by rintro _ ⟨⟩; exact hx⟩
        have hih := ih (fun y hy => hxs y (List.mem_cons_of_mem _ hy)) hrest
        unfold readAll
        rcases hc.leaves_of_vanishes fuel (s := .token t rest) rfl hm with
          hex | ⟨v, events, hok, hevents⟩
        · rw [readSymbol, hex]
          exact Outcome.consumes_exhausted
        · rw [readSymbol, hok]
          have hafter := (Outcome.consumes_map (f := (v :: ·)).mpr hih).after events
          rwa [hevents] at hafter

/-- **A token that begins a symbol is consumed.** -/
theorem consumes_of_begins (fuel : Nat) {x : Symbol} {t : Token} (h : c.Begins t.terminal [x])
    (rest : Scan) : (c.readSymbol fuel x (.token t rest)).Consumes 1 := by
  refine readSymbol_induction (P := fun x s o => s = .token t rest → c.Begins t.terminal [x] →
    o.Consumes 1) ?_ ?_ ?_ fuel x _ rfl h
  · rintro u _ rfl hbegins
    obtain rfl := hc.begins_terminal hbegins
    rw [consume_token]
    simp
  · intro nt s _ _
    exact Outcome.consumes_exhausted
  · rintro fuel nt _ ih rfl hbegins
    obtain ⟨p, hp⟩ := hc.exists_select_of_begins hbegins
    obtain ⟨halt, _, ⟨⟩, hbegins⟩ := hc.select_alternative hp
    have hbody := hc.consumes_of_readAll (fun x hx => ih x _ rfl hx)
      (fun x hx => hc.wellFormed.hasSymbol_of_mem_body halt hx) hbegins
    rw [descend_succ_of_production? rfl (production?_of_select_alternative hp)]
    exact (Outcome.consumes_map.mpr hbody).after_enter _ _

/-- A production that is read without consuming anything was chosen to vanish. -/
theorem select_epsilon_of_not_consumes (fuel : Nat) {nt p : Nat} {s : Scan} {next : Option Token}
    (hpeek : s.peek = .ok next) (hp : c.production? nt next = some p)
    (h : ¬ (readAll (c.readSymbol fuel) (c.grammar.body p) s).Consumes 1) :
    (c.prediction.choice nt).select (next.map (·.terminal)) = .epsilon p := by
  cases hselect : (c.prediction.choice nt).select (next.map (·.terminal)) with
  | alternative q =>
    rw [production?, hselect] at hp
    obtain rfl : q = p := Option.some.inj hp
    obtain ⟨halt, t, rfl, hbegins⟩ := hc.select_alternative hselect
    obtain ⟨rest, rfl⟩ := Scan.exists_of_peek hpeek
    exact absurd (hc.consumes_of_readAll (fun x hx => hc.consumes_of_begins fuel hx rest)
      (fun x hx => hc.wellFormed.hasSymbol_of_mem_body halt hx) hbegins) h
  | epsilon q =>
    rw [production?, hselect] at hp
    rw [Option.some.inj hp]
  | none =>
    rw [production?, hselect] at hp
    cases hp

/-- **Whatever comes of it, the tokens that are consumed are those that come next.** -/
theorem exists_consumed (fuel : Nat) (xs : List Symbol) (s : Scan) : ∃ consumed rest,
    s = Scan.prepend consumed rest ∧
      Event.consumptions (readAll (c.readSymbol fuel) xs s).events = consumed.map Token.report := by
  cases h : readAll (c.readSymbol fuel) xs s with
  | ok vs r events =>
    obtain ⟨ts, hts, -, rfl, rfl⟩ := (hc.readsTrees fuel).exists_forest h
    exact ⟨yieldAll ts, r, rfl, hts.consumptions_traceAll r⟩
  | failed e events =>
    obtain ⟨consumed, rest, hfails⟩ := hc.exists_failsAt_of_readAll (hc.exists_failsAt fuel) h
    exact ⟨consumed, rest, hfails.scan_eq, hfails.consumptions_eq⟩
  | exhausted => exact ⟨[], s, rfl, rfl⟩

/-- If something is consumed at all, the next token is. -/
theorem exists_consumptions_eq {fuel : Nat} {xs : List Symbol} {t : Token} {rest : Scan}
    (h : (readAll (c.readSymbol fuel) xs (.token t rest)).Consumes 1)
    (hne : readAll (c.readSymbol fuel) xs (.token t rest) ≠ .exhausted) :
    ∃ later, Event.consumptions (readAll (c.readSymbol fuel) xs (.token t rest)).events =
      t.report :: later := by
  obtain ⟨consumed, r, hscan, hconsumed⟩ := hc.exists_consumed fuel xs (.token t rest)
  have hlength := h.resolve_left hne
  rw [hconsumed] at hlength ⊢
  cases consumed with
  | nil => simp at hlength
  | cons u consumed =>
    rw [Scan.prepend_cons, Scan.token.injEq] at hscan
    exact ⟨consumed.map Token.report, by rw [hscan.1, List.map_cons]⟩

end Coherent

/-- **A choice does not mislead**, whether or not alternatives clash. For every nonterminal and
every scan whose next item is a token or the end of the text: if an alternative is taken because
the token begins it, reading it consumes the token before anything else, so nothing can fail before
that; if one is taken because it can vanish, reading it succeeds, consumes no token, and leaves the
scan as it is. -/
theorem readProduction_of_select {engine : PatternEngine} {d : Declarations} {g : Grammar}
    {c : Compiled} (hbuild : d.build engine = .ok g) (hcompile : g.compile = .ok c) (nt : Nat)
    {s : Scan} {next : Option Token} (hpeek : s.peek = .ok next) {fuel : Nat}
    (hfuel : c.callBound s.length ≤ fuel) :
    (∀ p, (c.prediction.choice nt).select (next.map (·.terminal)) = .alternative p →
      c.descend (fuel + 1) nt s =
          (c.readProduction fuel p s).after [.enter (g.nonterminalName nt) s.line] ∧
        ∃ t rest later, next = some t ∧ s = .token t rest ∧
          Event.consumptions (c.readProduction fuel p s).events = t.report :: later) ∧
    ∀ p, (c.prediction.choice nt).select (next.map (·.terminal)) = .epsilon p →
      c.descend (fuel + 1) nt s =
          (c.readProduction fuel p s).after [.enter (g.nonterminalName nt) s.line] ∧
        ∃ v events, c.readProduction fuel p s = .ok v s events ∧
          Event.consumptions events = [] := by
  obtain ⟨rfl, hc⟩ := coherent hbuild hcompile
  constructor
  · intro p hp
    refine ⟨descend_succ_of_production? hpeek (production?_of_select_alternative hp), ?_⟩
    obtain ⟨halt, t, rfl, hbegins⟩ := hc.select_alternative hp
    obtain ⟨rest, rfl⟩ := Scan.exists_of_peek hpeek
    have hbody := hc.consumes_of_readAll (fun x hx => hc.consumes_of_begins fuel hx rest)
      (fun x hx => hc.wellFormed.hasSymbol_of_mem_body halt hx) hbegins
    obtain ⟨later, hlater⟩ :=
      hc.exists_consumptions_eq hbody (hc.readAll_ne_exhausted_of_callBound hfuel)
    exact ⟨t, rest, later, rfl, rfl, by rw [readProduction, Outcome.events_map, hlater]⟩
  · intro p hp
    refine ⟨descend_succ_of_production? hpeek (production?_of_select_epsilon hp), ?_⟩
    obtain ⟨-, -, hbody⟩ := hc.select_epsilon hp
    have hleaves := leaves_of_readAll (fun m hm => hc.leaves_of_vanishes fuel hpeek hm) hbody
    obtain ⟨vs, events, hread, hevents⟩ :=
      hleaves.resolve_left (hc.readAll_ne_exhausted_of_callBound hfuel)
    exact ⟨c.shapes.build p vs, events, by rw [readProduction, hread]; rfl, hevents⟩

/-- The filling of a frame has one rule: before an `a` the rule is read with the `a`, and before the
closing parenthesis it vanishes, though its body is not empty. -/
theorem readProduction_of_select_frame : ∃ g c, Samples.frame.build Pattern.engine = .ok g ∧
    g.compile = .ok c ∧ g.body 1 = [.nonterminal 2] ∧
    (∃ later, Event.consumptions (c.readProduction 12 1 (g.lexicon.scan "a )".toList)).events =
      ("a", "a") :: later) ∧
    ∃ v events, c.readProduction 12 1 (g.lexicon.scan ")".toList) =
      .ok v (g.lexicon.scan ")".toList) events ∧ Event.consumptions events = [] := by
  have hrun : ((Samples.frame.build Pattern.engine).toOption.bind fun g =>
      g.compile.toOption.map fun c => (g.body 1, (c.callBound 1, c.callBound 2),
        (c.prediction.choice 1).select (some 0), (c.prediction.choice 1).select (some 2),
        g.lexicon.scan "a )".toList, g.lexicon.scan ")".toList)) =
      some ([.nonterminal 2], (8, 12), .alternative 1, .epsilon 1,
        .token ⟨0, "a", "a", 1⟩ (.token ⟨2, ")", ")", 1⟩ (.done 1)),
        .token ⟨2, ")", ")", 1⟩ (.done 1)) := by
    decide +kernel
  simp only [Option.bind_eq_some_iff, Option.map_eq_some_iff, toOption_eq_some, Prod.mk.injEq]
    at hrun
  obtain ⟨g, hbuild, c, hcompile, hbody, ⟨hbound, hbound'⟩, htake, hvanish, ha, hclose⟩ := hrun
  have hpeek : (g.lexicon.scan "a )".toList).peek = .ok (some ⟨0, "a", "a", 1⟩) := by
    rw [ha]
    rfl
  have hpeek' : (g.lexicon.scan ")".toList).peek = .ok (some ⟨2, ")", ")", 1⟩) := by
    rw [hclose]
    rfl
  have hfuel : c.callBound (g.lexicon.scan "a )".toList).length ≤ 12 := by
    rw [ha]
    exact hbound'.le
  have hfuel' : c.callBound (g.lexicon.scan ")".toList).length ≤ 12 := by
    rw [hclose]
    show c.callBound 1 ≤ 12
    omega
  have hkept := readProduction_of_select hbuild hcompile 1 hpeek hfuel
  have hkept' := readProduction_of_select hbuild hcompile 1 hpeek' hfuel'
  obtain ⟨-, _, _, later, ⟨⟩, -, hlater⟩ := hkept.1 1 htake
  obtain ⟨-, v, events, hread, hevents⟩ := hkept'.2 1 hvanish
  exact ⟨g, c, hbuild, hcompile, hbody, ⟨later, hlater⟩, v, events, hread, hevents⟩

end Compiled

end PredictiveParsing
