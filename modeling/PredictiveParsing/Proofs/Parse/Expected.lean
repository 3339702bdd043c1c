import PredictiveParsing.Proofs.Grammar.Representation
import PredictiveParsing.Proofs.Parse.Comparison

/-!
# What a failure asks for

A parse that fails on a token names tokens that it asks for. Each of them would have been accepted:
if the same tokens come first and then this one, all of them are consumed, whatever follows. But
not every token that would have been accepted is named. Nonterminals that were entered at the place
and vanished there could have taken a token as well, and a failure only speaks for the symbol that
failed; so a token is accepted just if it is named or begins a nonterminal that has been entered
since the last token was consumed.

## Main definitions

* `Compiled.Raises`: how a failure is raised

## Main results

* `Compiled.Coherent.raises_of_failed`: every failure is raised in one of three ways
* `Compiled.Coherent.expected_of_failed`: something is asked for, and it is a terminal
* `Compiled.Coherent.consumed_iff_accepts`: which tokens are consumed in place of what was found
* `Compiled.expectedTokens_sound`: what is asked for would have been accepted
* `Compiled.accepted_iff`, `Compiled.expectedTokens_incomplete_frame`: what else would have been
-/

namespace PredictiveParsing

/-! ## Tokens at the beginning of a scan -/

/-- Tokens at the beginning of a scan are consumed just if as many are. -/
theorem Scan.report_prefix_iff {tokens consumed : List Token} {after rest : Scan}
    (h : prepend tokens after = prepend consumed rest) :
    tokens.map Token.report <+: consumed.map Token.report ↔ tokens.length ≤ consumed.length := by
  constructor
  · intro hprefix
    simpa using hprefix.length_le
  · intro hle
    have htokens := congrArg Scan.tokens h
    rw [tokens_prepend, tokens_prepend] at htokens
    have hprefix : tokens <+: consumed :=
      List.prefix_of_prefix_length_le ⟨_, rfl⟩ ⟨_, htokens.symm⟩ hle
    exact hprefix.map _

/-- If one token is put before a scan, it is the first one. -/
theorem Scan.eq_singleton_of_prepend {t : Token} {rest place : Scan} {consumed : List Token}
    (h : token t rest = prepend consumed place) (hlength : consumed.length = 1) :
    consumed = [t] := by
  obtain ⟨u, rfl⟩ := List.length_eq_one_iff.mp hlength
  rw [prepend_cons, Scan.token.injEq] at h
  rw [h.1]

namespace Compiled

variable {c : Compiled} {s : Scan} {e : ParseError} {events : List Event}

/-- The end of a parse reports nothing. -/
theorem events_parseScan : (c.parseScan s).events =
    (c.descend (c.callBound s.length) c.grammar.start s).events := by
  rw [parseScan]
  cases c.descend (c.callBound s.length) c.grammar.start s with
  | ok v r events => cases r <;> simp [Outcome.bind, readEnd, Outcome.after, Outcome.events]
  | failed e events => rfl
  | exhausted => rfl

/-- A failure on a token is one of the start symbol. -/
theorem descend_of_parseScan_eq_failed (h : c.parseScan s = .failed e events)
    (hkind : e.kind = .parse) :
    c.descend (c.callBound s.length) c.grammar.start s = .failed e events := by
  rcases Outcome.bind_eq_failed.mp h with hstart | ⟨v, r, before, after, -, hend, -⟩
  · exact hstart
  · cases r <;> cases hend <;> cases hkind

/-! ## What is asked for -/

/-- Nothing is asked for twice. -/
theorem nodup_expectedTokens (e : ParseError) : e.expectedTokens.Nodup := by
  cases e with
  | scan => exact List.nodup_nil
  | unexpectedToken line expected found => exact List.nodup_singleton expected
  | noAlternative line nonterminal expected found => exact nodup_eraseDups _
  | trailingInput => exact List.nodup_nil

/-- A failure of a sequence is one of its symbols. -/
theorem exists_failed_of_readAll {read : Symbol → Reading Value} {xs : List Symbol}
    (h : readAll read xs s = .failed e events) :
    ∃ x ∈ xs, ∃ r events', read x r = .failed e events' := by
  induction xs generalizing s events with
  | nil => cases h
  | cons x xs ih =>
    rcases readAll_cons_eq_failed.mp h with hx | ⟨v, r, earlier, later, -, hxs, -⟩
    · exact ⟨x, List.mem_cons_self, s, events, hx⟩
    · obtain ⟨y, hy, hfailed⟩ := ih hxs
      exact ⟨y, List.mem_cons_of_mem _ hy, hfailed⟩

/-- **How a failure is raised** while the start symbol is read: at a place without a token, by a
terminal that is not there, or by a nonterminal that cannot vanish and has no alternative. -/
inductive Raises (c : Compiled) : ParseError → Prop where
  /-- There is no token. -/
  | scan (err : ScanError) : Raises c (.scan err)
  /-- A terminal of the grammar is asked for. -/
  | unexpectedToken {t : Nat} (ht : t < c.grammar.terminals.size) (line : Nat) (found : Found) :
      Raises c (.unexpectedToken line (c.grammar.terminalName t) found)
  /-- An alternative of a nonterminal is asked for. -/
  | noAlternative {nt : Nat} (hnt : nt < c.grammar.nonterminals.size)
      (hnull : c.analysis.first.nullable (.nonterminal nt) = false) (line : Nat) (found : Found) :
      Raises c (.noAlternative line (c.grammar.nonterminalName nt)
        ((c.prediction.choice nt).expected c.grammar) found)

namespace Coherent

variable (hc : c.Coherent)

include hc

/-- A nonterminal that cannot vanish begins with a token. -/
theorem exists_begins {nt : Nat} (hnt : nt < c.grammar.nonterminals.size)
    (hnull : c.analysis.first.nullable (.nonterminal nt) = false) :
    ∃ t, c.Begins t [.nonterminal nt] := by
  obtain ⟨t, ht⟩ :=
    FirstSets.exists_mem_symbol hc.wellFormed hc.firstSets (x := .nonterminal nt) hnt
  have hcan := FirstSets.canBegin_of_mem_symbol hc.wellFormed hc.firstSets
    (s := .nonterminal nt) hnt ht
  refine ⟨t, hc.begins_symbol.mpr ⟨hcan.lt_or_eq.resolve_right ?_, ht⟩⟩
  rintro rfl
  rw [← FirstSets.size_symbol hc.wellFormed hc.firstSets (.nonterminal nt),
    ← LookaheadSet.hasEpsilon_iff] at ht
  rw [FirstSets.nullable, ht] at hnull
  cases hnull

/-- **Every failure is raised** in one of three ways. -/
theorem raises_of_failed (fuel : Nat) : ∀ x s e events, c.grammar.HasSymbol x →
    c.readSymbol fuel x s = .failed e events → c.Raises e := by
  -- Induction on the nested calls: a failure of a body is one of its symbols.
  refine readSymbol_induction (P := fun x s o => ∀ e events, c.grammar.HasSymbol x →
    o = .failed e events → c.Raises e) ?_ ?_ ?_ fuel
  · intro t s e events ht h
    obtain ⟨-, ⟨err, -, rfl⟩ | ⟨next, -, -, rfl⟩⟩ := consume_eq_failed.mp h
    · exact .scan err
    · exact .unexpectedToken ht _ _
  · intro nt s e events _ h
    cases h
  · intro fuel nt s ih e events hnt h
    rcases descend_succ_eq_failed.mp h with ⟨err, -, rfl, -⟩ |
      ⟨next, -, hnone, rfl, -⟩ | ⟨next, p, later, -, hp, hbody, -⟩
    · exact .scan err
    · exact .noAlternative hnt (hc.production?_eq_none.mp hnone).1 _ _
    · obtain ⟨x, hx, r, events', hfailed⟩ := exists_failed_of_readAll hbody
      have halt := hc.mem_alternatives_of_select hp
      exact ih x r e events' (hc.wellFormed.hasSymbol_of_mem_body halt hx) hfailed

/-- **Where a parse fails on a token, something is asked for**, and whatever is asked for is a
terminal. -/
theorem expected_of_failed (hkind : e.kind = .parse) (fuel : Nat) : ∀ x s events,
    c.grammar.HasSymbol x → c.readSymbol fuel x s = .failed e events →
    e.expectedTokens ≠ [] ∧ ∀ name ∈ e.expectedTokens,
      ∃ t < c.grammar.terminals.size, c.grammar.terminalName t = name := by
  intro x s events hx h
  cases hc.raises_of_failed fuel x s e events hx h with
  | scan => cases hkind
  | @unexpectedToken t ht => simpa [ParseError.expectedTokens] using ⟨t, ht, rfl⟩
  | noAlternative hnt hnull =>
    -- the nonterminal cannot vanish, so it begins with some token
    obtain ⟨t, ht⟩ := hc.exists_begins hnt hnull
    refine ⟨List.ne_nil_of_mem (hc.mem_expectedTokens.mpr ⟨t, ht, rfl⟩), ?_⟩
    intro name hname
    obtain ⟨t, ht, hname⟩ := hc.mem_expectedTokens.mp hname
    exact ⟨t, ht.1, hname⟩

/-! ## Another token in place of what was found -/

/-- A parse consumes tokens at the beginning of the scan, whatever comes of it. -/
theorem exists_consumed_of_parseScan (s : Scan) : ∃ consumed place,
    s = Scan.prepend consumed place ∧
      Event.consumptions (c.parseScan s).events = consumed.map Token.report := by
  obtain ⟨consumed, place, hscan, hconsumed⟩ :=
    hc.exists_consumed (c.callBound s.length) [.nonterminal c.grammar.start] s
  rw [readAll_singleton, Outcome.events_map, readSymbol, ← events_parseScan] at hconsumed
  exact ⟨consumed, place, hscan, hconsumed⟩

/-- So tokens that come first are consumed just if as many are. -/
theorem report_prefix_parseScan_iff (tokens : List Token) (after : Scan) :
    tokens.map Token.report <+:
        Event.consumptions (c.parseScan (Scan.prepend tokens after)).events ↔
      tokens.length ≤
        (Event.consumptions (c.parseScan (Scan.prepend tokens after)).events).length := by
  obtain ⟨consumed, place, hscan, hconsumed⟩ :=
    hc.exists_consumed_of_parseScan (Scan.prepend tokens after)
  rw [hconsumed, Scan.report_prefix_iff hscan, List.length_map]

/-- A parse that fails on a token is compared with a parse of another scan. -/
theorem keepsFailing_of_parseScan (h : c.parseScan s = .failed e events) (hkind : e.kind = .parse)
    {place after s' : Scan} {next : Token} (hnext : next.terminal < c.grammar.terminals.size)
    (hagree : Scan.AgreeTo place (.token next after) s s')
    (hplace : s.length = (Event.consumptions events).length + place.length) :
    c.KeepsFailing next after s' e events
      (c.descend (c.callBound s'.length) c.grammar.start s') := by
  have hrun := descend_of_le (Nat.le_max_left (c.callBound s.length) (c.callBound s'.length))
    (hc.call_ne_exhausted s)
  have hrun' := descend_of_le (Nat.le_max_right (c.callBound s.length) (c.callBound s'.length))
    (hc.call_ne_exhausted s')
  rw [descend_of_parseScan_eq_failed h hkind] at hrun
  rw [← hrun']
  exact hc.keepsFailing_of_failed hnext hkind _ (.nonterminal c.grammar.start) s s' events
    hc.wellFormed.start_lt hagree hrun hplace

/-- **A token is consumed behind the same tokens just if it is accepted** where the parse has
failed. -/
theorem consumed_iff_accepts (h : c.parseScan s = .failed e events) (hkind : e.kind = .parse)
    {consumed again : List Token} {place after : Scan} {next : Token}
    (hscan : s = Scan.prepend consumed place)
    (hconsumed : Event.consumptions events = consumed.map Token.report)
    (hagain : again.map (·.terminal) = consumed.map (·.terminal))
    (hnext : next.terminal < c.grammar.terminals.size) :
    (again ++ [next]).map Token.report <+:
        Event.consumptions (c.parseScan (Scan.prepend again (.token next after))).events ↔
      c.Accepts next.terminal e events := by
  have hjoin : Scan.prepend (again ++ [next]) after = Scan.prepend again (.token next after) := by
    rw [Scan.prepend_append]
    rfl
  have hlength : (Scan.prepend again (.token next after)).length =
      again.length + (after.length + 1) := Scan.length_prepend _ _
  have hplace : s.length = (Event.consumptions events).length + place.length := by
    rw [hscan, Scan.length_prepend, hconsumed, List.length_map]
  have hagree : Scan.AgreeTo place (.token next after) s
      (Scan.prepend again (.token next after)) := by
    rw [hscan]
    exact .of_prepend hagain.symm
  have hkeeps := hc.keepsFailing_of_parseScan h hkind hnext hagree hplace
  rw [← hjoin, hc.report_prefix_parseScan_iff, hjoin, events_parseScan, List.length_append,
    List.length_singleton]
  have hne := hc.call_ne_exhausted (Scan.prepend again (.token next after))
  rcases hkeeps with ⟨haccepts, hconsumes⟩ | ⟨hnot, hrest⟩
  · refine iff_of_true ?_ haccepts
    have hle := hconsumes.resolve_left hne
    omega
  · refine iff_of_false ?_ hnot
    obtain ⟨e', events', hfailed, hfails⟩ := hrest.resolve_left hne
    rw [hfailed, Outcome.events]
    omega

end Coherent

/-- **What a failure asks for would have been accepted.** Where a parse fails on a token or on the
end of the text, something is asked for, each name once and each that of a terminal. If the
consumed tokens come first in a scan, or others of the same terminals, and then a token of that
terminal, all of these tokens are consumed, whatever stands behind them. -/
theorem expectedTokens_sound {engine : PatternEngine} {d : Declarations} {g : Grammar}
    {c : Compiled} (hbuild : d.build engine = .ok g) (hcompile : g.compile = .ok c) {s : Scan}
    {e : ParseError} {events : List Event} (hparse : c.parseScan s = .failed e events)
    (hkind : e.kind = .parse) :
    ∃ consumed place, s = Scan.prepend consumed place ∧
      Event.consumptions events = consumed.map Token.report ∧
      e.expectedTokens ≠ [] ∧ e.expectedTokens.Nodup ∧
      ∀ name ∈ e.expectedTokens, ∃ t, g.terminal? name = some t ∧
        ∀ (again : List Token) (next : Token) (after : Scan),
          again.map (·.terminal) = consumed.map (·.terminal) → next.terminal = t →
          (again ++ [next]).map Token.report <+:
            Event.consumptions (c.parseScan (Scan.prepend again (.token next after))).events := by
  obtain ⟨rfl, hc⟩ := coherent hbuild hcompile
  obtain ⟨consumed, place, hscan, hconsumed⟩ := hc.exists_consumed_of_parseScan s
  rw [hparse, Outcome.events] at hconsumed
  obtain ⟨hne, hterminals⟩ := hc.expected_of_failed hkind (c.callBound s.length)
    (.nonterminal c.grammar.start) s events hc.wellFormed.start_lt
    (descend_of_parseScan_eq_failed hparse hkind)
  refine ⟨consumed, place, hscan, hconsumed, hne, nodup_expectedTokens e, ?_⟩
  intro name hname
  obtain ⟨t, ht, rfl⟩ := hterminals name hname
  refine ⟨t, hc.wellFormed.terminal?_eq_some.mpr (by simp [Grammar.terminalName, ht]), ?_⟩
  rintro again next after hagain rfl
  exact (hc.consumed_iff_accepts hparse hkind hscan hconsumed hagain ht).mpr (.inr hname)

/-- In the example the parse of a frame that has just been opened fails at the end of the text,
where the filling and its item have been entered. -/
theorem exists_parse_frame : ∃ g c e events, Samples.frame.build Pattern.engine = .ok g ∧
    g.compile = .ok c ∧ g.lexicon.scan "(".toList = .token ⟨1, "(", "(", 1⟩ (.done 1) ∧
    c.parse "(" = .failed e events ∧ Event.consumptions events = [("(", "(")] ∧
    Event.pending events = ["Filling", "Item"] ∧ e.kind = .parse ∧ e.expectedTokens = [")"] := by
  have hrun : ((Samples.frame.build Pattern.engine).toOption.bind fun g =>
      g.compile.toOption.bind fun c => match c.parse "(" with
        | .failed e events => some (g.lexicon.scan "(".toList, Event.consumptions events,
            Event.pending events, e.kind, e.expectedTokens)
        | _ => none) = some (.token ⟨1, "(", "(", 1⟩ (.done 1), [("(", "(")],
          ["Filling", "Item"], .parse, [")"]) := by
    decide +kernel
  simp only [Option.bind_eq_some_iff, toOption_eq_some] at hrun
  obtain ⟨g, hbuild, c, hcompile, hrun⟩ := hrun
  cases hparse : c.parse "(" with
  | failed e events =>
    simp only [hparse, Option.some.injEq, Prod.mk.injEq] at hrun
    exact ⟨g, c, e, events, hbuild, hcompile, hrun.1, hparse, hrun.2⟩
  | ok v rest events => simp [hparse] at hrun
  | exhausted => simp [hparse] at hrun

/-- A frame that has been opened asks for the parenthesis that closes it, and this is consumed. -/
theorem expectedTokens_sound_frame : ∃ g c e events, Samples.frame.build Pattern.engine = .ok g ∧
    g.compile = .ok c ∧ c.parse "(" = .failed e events ∧ e.expectedTokens = [")"] ∧
    ∀ after, [("(", "("), (")", ")")] <+: Event.consumptions
      (c.parseScan (.token ⟨1, "(", "(", 1⟩ (.token ⟨2, ")", ")", 1⟩ after))).events := by
  obtain ⟨g, c, e, events, hbuild, hcompile, hscan, hparse, hevents, -, hkind, hexpected⟩ :=
    exists_parse_frame
  have hclosing : ((Samples.frame.build Pattern.engine).toOption.bind (·.terminal? ")")) =
      some 2 := by
    decide +kernel
  rw [hbuild] at hclosing
  obtain ⟨rfl, -⟩ := coherent hbuild hcompile
  obtain ⟨consumed, place, hs, hconsumed, -, -, haccepted⟩ :=
    expectedTokens_sound hbuild hcompile hparse hkind
  have hlength := congrArg List.length (hevents.symm.trans hconsumed)
  obtain rfl := Scan.eq_singleton_of_prepend (hscan.symm.trans hs) (by simpa using hlength.symm)
  refine ⟨_, c, e, events, hbuild, hcompile, hparse, hexpected, ?_⟩
  intro after
  obtain ⟨t, ht, hbehind⟩ := haccepted ")" (by simp [hexpected])
  obtain rfl : 2 = t := Option.some.inj (hclosing.symm.trans ht)
  exact hbehind [⟨1, "(", "(", 1⟩] ⟨2, ")", ")", 1⟩ after rfl rfl

/-- **Which tokens would have been accepted** where a parse fails: those that are asked for, and
those that begin a nonterminal which has been entered since the last token was consumed. -/
theorem accepted_iff {engine : PatternEngine} {d : Declarations} {g : Grammar} {c : Compiled}
    (hbuild : d.build engine = .ok g) (hcompile : g.compile = .ok c) {s : Scan} {e : ParseError}
    {events : List Event} (hparse : c.parseScan s = .failed e events) (hkind : e.kind = .parse) :
    ∃ consumed place, s = Scan.prepend consumed place ∧
      Event.consumptions events = consumed.map Token.report ∧
      ∀ (again : List Token) (next : Token) (after : Scan),
        again.map (·.terminal) = consumed.map (·.terminal) → next.terminal < g.terminals.size →
        ((again ++ [next]).map Token.report <+:
            Event.consumptions (c.parseScan (Scan.prepend again (.token next after))).events ↔
          g.terminalName next.terminal ∈ e.expectedTokens ∨
            ∃ nt < g.nonterminals.size, g.nonterminalName nt ∈ Event.pending events ∧
              next.terminal ∈ (c.analysis.first.nonterminal nt).terminals) := by
  obtain ⟨rfl, hc⟩ := coherent hbuild hcompile
  obtain ⟨consumed, place, hscan, hconsumed⟩ := hc.exists_consumed_of_parseScan s
  rw [hparse, Outcome.events] at hconsumed
  refine ⟨consumed, place, hscan, hconsumed, ?_⟩
  intro again next after hagain hnext
  rw [hc.consumed_iff_accepts hparse hkind hscan hconsumed hagain hnext, Accepts, or_comm]
  simp only [Awaits, hc.begins_nonterminal_iff_mem]

/-- In a frame that has been opened the filling and its item have been entered, so the `a` that
begins them would have been consumed. -/
theorem accepted_iff_frame : ∃ g c e events, Samples.frame.build Pattern.engine = .ok g ∧
    g.compile = .ok c ∧ c.parse "(" = .failed e events ∧ e.expectedTokens = [")"] ∧
    Event.pending events = ["Filling", "Item"] ∧
    ∀ after, [("(", "("), ("a", "a")] <+: Event.consumptions
      (c.parseScan (.token ⟨1, "(", "(", 1⟩ (.token ⟨0, "a", "a", 1⟩ after))).events := by
  obtain ⟨g, c, e, events, hbuild, hcompile, hscan, hparse, hevents, hpending, hkind, hexpected⟩ :=
    exists_parse_frame
  have hfilling : ((Samples.frame.build Pattern.engine).toOption.bind fun g =>
      g.compile.toOption.map fun c => decide (0 < g.terminals.size ∧ 1 < g.nonterminals.size ∧
        g.nonterminalName 1 = "Filling" ∧ 0 ∈ (c.analysis.first.nonterminal 1).terminals)) =
      some true := by
    decide +kernel
  rw [hbuild, Except.toOption, Option.bind_some, hcompile, Except.toOption, Option.map_some,
    Option.some.injEq, decide_eq_true_eq] at hfilling
  obtain ⟨hterminals, hnt, hname, hbegins⟩ := hfilling
  obtain ⟨rfl, -⟩ := coherent hbuild hcompile
  obtain ⟨consumed, place, hs, hconsumed, haccepted⟩ :=
    accepted_iff hbuild hcompile hparse hkind
  have hlength := congrArg List.length (hevents.symm.trans hconsumed)
  obtain rfl := Scan.eq_singleton_of_prepend (hscan.symm.trans hs) (by simpa using hlength.symm)
  refine ⟨_, c, e, events, hbuild, hcompile, hparse, hexpected, hpending, ?_⟩
  intro after
  apply (haccepted [⟨1, "(", "(", 1⟩] ⟨0, "a", "a", 1⟩ after rfl hterminals).mpr
  exact .inr ⟨1, hnt, by simp [hpending, hname], hbegins⟩

/-- **Not every token that would have been accepted is asked for**: a frame that has been opened
asks only for the parenthesis that closes it, but an `a` in its place is consumed. -/
theorem expectedTokens_incomplete_frame : ∃ g c e events,
    Samples.frame.build Pattern.engine = .ok g ∧ g.compile = .ok c ∧
    c.parse "(" = .failed e events ∧ e.kind = .parse ∧
    Event.consumptions events = [("(", "(")] ∧ e.expectedTokens = [")"] ∧
    g.terminal? "a" = some 0 ∧
    Event.consumptions (c.parse "( a").events = [("(", "("), ("a", "a")] := by
  obtain ⟨g, c, e, events, hbuild, hcompile, -, hparse, hevents, -, hkind, hexpected⟩ :=
    exists_parse_frame
  have hbehind : ((Samples.frame.build Pattern.engine).toOption.bind fun g =>
      g.compile.toOption.map fun c =>
        (g.terminal? "a", Event.consumptions (c.parse "( a").events)) =
      some (some 0, [("(", "("), ("a", "a")]) := by
    decide +kernel
  rw [hbuild, Except.toOption, Option.bind_some, hcompile, Except.toOption, Option.map_some,
    Option.some.injEq, Prod.mk.injEq] at hbehind
  exact ⟨g, c, e, events, hbuild, hcompile, hparse, hkind, hevents, hexpected, hbehind⟩

end Compiled

end PredictiveParsing
