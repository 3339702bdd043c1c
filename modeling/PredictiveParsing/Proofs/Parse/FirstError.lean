import PredictiveParsing.Proofs.Analysis.FollowCoverage
import PredictiveParsing.Proofs.Grammar.Reach
import PredictiveParsing.Proofs.Parse.Completeness
import PredictiveParsing.Proofs.Parse.Failure

/-!
# Errors are reported where they are

If the next token decides, a parse that could still reach a place of the scan takes a production
with which it still can. So it does not fail before that place: the tokens up to the first item
that is reported stand at the beginning of a sentential form, and together with that item they do
not.

## Main results

* `Compiled.IsLL1.exists_production?`: a production is taken with which the place can be reached
* `Compiled.IsLL1.canReach_of_ok`, `Compiled.IsLL1.le_of_failed`: calls do not fail before it
* `Compiled.parse_failure`: what a failure of a parse reports, and what it means
-/

namespace PredictiveParsing

open SyntaxTree (yieldAll traceAll)

namespace Compiled

variable {c : Compiled} (hc : c.Coherent)

include hc

/-! ## What reading leaves -/

/-- In a sentential form a nonterminal can be replaced by the body of what it takes. -/
theorem Coherent.sentential_body {nt p : Nat} {next : Option Token} {before after : List Symbol}
    (hform : c.grammar.Sentential (before ++ .nonterminal nt :: after))
    (hp : c.production? nt next = some p) :
    c.grammar.Sentential (before ++ c.grammar.body p ++ after) := by
  obtain ⟨production, hmem, -, rfl, hbody⟩ :=
    hc.wellFormed.exists_production (hc.mem_alternatives_of_select hp)
  have hhead : c.grammar.Sentential (before ++ [.nonterminal production.head] ++ after) := by
    simpa using hform
  rw [hbody]
  exact hhead.replace (.of_production hmem)

/-- What is read is consumed: the rest of the scan is shorter by the number of tokens. -/
theorem Coherent.length_of_readAll {fuel : Nat} {xs : List Symbol} {s s' : Scan}
    {vs : List Value} {events : List Event}
    (h : readAll (c.readSymbol fuel) xs s = .ok vs s' events) :
    s.length = (Event.consumptions events).length + s'.length := by
  obtain ⟨ts, hts, -, rfl, rfl⟩ := (hc.readsTrees fuel).exists_forest h
  rw [Scan.length_prepend, hts.consumptions_traceAll, List.length_map]

theorem Coherent.length_of_readSymbol {fuel : Nat} {x : Symbol} {s s' : Scan} {v : Value}
    {events : List Event} (h : c.readSymbol fuel x s = .ok v s' events) :
    s.length = (Event.consumptions events).length + s'.length := by
  have hsingle : readAll (c.readSymbol fuel) [x] s = .ok [v] s' events := by
    rw [readAll_singleton, h]
    rfl
  exact hc.length_of_readAll hsingle

/-- If symbols leave the place in reach, so do sequences. -/
theorem Coherent.canReach_of_readAll {fuel : Nat}
    (hread : ∀ x s v s' events, c.readSymbol fuel x s = .ok v s' events →
      ∀ before after place, c.grammar.Sentential (before ++ x :: after) →
        place.length < s'.length → c.grammar.CanReach place (x :: after) s →
        c.grammar.CanReach place after s')
    {xs : List Symbol} {s s' : Scan} {vs : List Value} {events : List Event}
    (h : readAll (c.readSymbol fuel) xs s = .ok vs s' events) {before after : List Symbol}
    {place : Scan} (hform : c.grammar.Sentential (before ++ xs ++ after))
    (hlt : place.length < s'.length) (hreach : c.grammar.CanReach place (xs ++ after) s) :
    c.grammar.CanReach place after s' := by
  induction xs generalizing before s vs events with
  | nil =>
    obtain ⟨-, rfl, -⟩ := readAll_nil_eq_ok.mp h
    exact hreach
  | cons x xs ih =>
    obtain ⟨v, r, rest, earlier, later, hx, hxs, -, -⟩ := readAll_cons_eq_ok.mp h
    have hlength := hc.length_of_readAll hxs
    have hreach' := hread x s v r earlier hx before (xs ++ after) place (by simpa using hform)
      (by omega) hreach
    have hform' : c.grammar.Sentential (before ++ [x] ++ xs ++ after) := by simpa using hform
    exact ih hxs hform' hreach'

namespace IsLL1

variable (hll : c.IsLL1)

include hll

/-! ## The production that is taken -/

/-- **A production is taken with which the place can be reached**, if it can be reached at all. -/
theorem exists_production? {nt : Nat} {before after : List Symbol} {place s : Scan}
    (hform : c.grammar.Sentential (before ++ .nonterminal nt :: after))
    (hreach : c.grammar.CanReach place (.nonterminal nt :: after) s)
    (hlt : place.length < s.length) :
    ∃ next p, s.peek = .ok next ∧ c.production? nt next = some p ∧
      c.grammar.CanReach place (c.grammar.body p ++ after) s := by
  cases hreach with
  | here => omega
  | @replace q _ _ hq hreach =>
    obtain ⟨p, hp, -, hbody⟩ := hc.wellFormed.exists_alternative hq
    rw [← hbody] at hreach
    obtain ⟨tokens, α, rfl, hderives⟩ := hreach.exists_derives
    cases tokens with
    | nil => simp at hlt
    | cons t tokens =>
      refine ⟨some t, p, rfl, ?_, hreach⟩
      have hnt : q.head ∈ c.grammar.reachable :=
        hc.wellFormed.mem_reachable_iff.mpr ⟨before, after, hform⟩
      have hnext : c.grammar.Occurs (.terminal t.terminal) := by
        have hhead := ((Grammar.Derives.of_production hq).append_right after).trans
          (by rwa [hbody] at hderives)
        exact ⟨before, _, hform.trans (hhead.append_left before)⟩
      have ht : t.terminal < c.grammar.terminals.size := hc.wellFormed.hasSymbol_of_occurs hnext
      have hmem := FirstSets.mem_bodyFirst_of_canBegin hc.wellFormed hc.firstSets
        (.terminal ht hderives)
      rw [mem_bodyFirst_append (FirstSets.size_symbol hc.wellFormed hc.firstSets)] at hmem
      rcases hmem with ⟨hmem, -⟩ | ⟨hepsilon, hmem⟩
      · exact hll.production?_of_token hc hnt hp ht (hc.production_eq hp ▸ hmem)
      · refine hll.production?_of_epsilon hc hnt hp ?_ ?_
        · rw [LookaheadSet.hasEpsilon_iff, hc.size_production hp, hc.production_eq hp]
          exact hepsilon
        · rintro _ ⟨⟩
          exact (hc.covers_of_sentential hform before _ after rfl).beginning _ hmem (by omega)

/-! ## Calls do not fail before the place -/

/-- **What is read leaves the place in reach.** -/
theorem canReach_of_ok (fuel : Nat) : ∀ x s v s' events,
    c.readSymbol fuel x s = .ok v s' events →
    ∀ before after place, c.grammar.Sentential (before ++ x :: after) →
      place.length < s'.length → c.grammar.CanReach place (x :: after) s →
      c.grammar.CanReach place after s' := by
  refine readSymbol_induction (P := fun x s o => ∀ v s' events, o = .ok v s' events →
    ∀ before after place, c.grammar.Sentential (before ++ x :: after) →
      place.length < s'.length → c.grammar.CanReach place (x :: after) s →
      c.grammar.CanReach place after s') ?_ ?_ ?_ fuel
  · intro t s v s' events h before after place _ hlt hreach
    obtain ⟨token, rfl, rfl, -, -⟩ := consume_eq_ok.mp h
    obtain ⟨_, _, ⟨⟩, -, hrest⟩ := hreach.exists_token (by simp [Scan.length]; omega)
    exact hrest
  · intro nt s v s' events h
    cases h
  · intro fuel nt s ih v s' events h before after place hform hlt hreach
    have hcall : c.readSymbol (fuel + 1) (.nonterminal nt) s = .ok v s' events := h
    have hlength := hc.length_of_readSymbol hcall
    obtain ⟨next, p, vs, later, hpeek, hp, hbody, -, -⟩ := descend_succ_eq_ok.mp h
    obtain ⟨next', p', hpeek', hp', hreach'⟩ := hll.exists_production? hc hform hreach (by omega)
    obtain rfl := Except.ok.inj (hpeek.symm.trans hpeek')
    obtain rfl := Option.some.inj (hp.symm.trans hp')
    exact hc.canReach_of_readAll ih hbody (hc.sentential_body hform hp) hlt hreach'

/-- If symbols do not fail before the place, neither do sequences. -/
theorem le_of_readAll_failed {fuel : Nat}
    (hread : ∀ x s e events, c.readSymbol fuel x s = .failed e events →
      ∀ before after place, c.grammar.Sentential (before ++ x :: after) →
        c.grammar.CanReach place (x :: after) s →
        s.length ≤ place.length + (Event.consumptions events).length)
    {xs : List Symbol} {s : Scan} {e : ParseError} {events : List Event}
    (h : readAll (c.readSymbol fuel) xs s = .failed e events) {before after : List Symbol}
    {place : Scan} (hform : c.grammar.Sentential (before ++ xs ++ after))
    (hreach : c.grammar.CanReach place (xs ++ after) s) :
    s.length ≤ place.length + (Event.consumptions events).length := by
  induction xs generalizing before s events with
  | nil => cases h
  | cons x xs ih =>
    have hform' : c.grammar.Sentential (before ++ x :: (xs ++ after)) := by simpa using hform
    rcases readAll_cons_eq_failed.mp h with hx | ⟨v, r, earlier, later, hx, hxs, rfl⟩
    · exact hread x s e events hx before _ place hform' hreach
    · have hlength := hc.length_of_readSymbol hx
      rw [Event.consumptions_append, List.length_append]
      by_cases hlt : place.length < r.length
      · have hreach' := hll.canReach_of_ok hc fuel x s v r earlier hx before _ place hform' hlt
          hreach
        have hform'' : c.grammar.Sentential (before ++ [x] ++ xs ++ after) := by simpa using hform
        have hle := ih hxs hform'' hreach'
        omega
      · omega

/-- **Calls do not fail before the place.** -/
theorem le_of_failed (fuel : Nat) : ∀ x s e events,
    c.readSymbol fuel x s = .failed e events →
    ∀ before after place, c.grammar.Sentential (before ++ x :: after) →
      c.grammar.CanReach place (x :: after) s →
      s.length ≤ place.length + (Event.consumptions events).length := by
  refine readSymbol_induction (P := fun x s o => ∀ e events, o = .failed e events →
    ∀ before after place, c.grammar.Sentential (before ++ x :: after) →
      c.grammar.CanReach place (x :: after) s →
      s.length ≤ place.length + (Event.consumptions events).length) ?_ ?_ ?_ fuel
  · intro t s e events h before after place _ hreach
    obtain ⟨rfl, ⟨err, rfl, -⟩ | ⟨next, hpeek, hne, -⟩⟩ := consume_eq_failed.mp h
    · exact Nat.zero_le _
    · cases s with
      | token token r =>
        by_contra hlt
        obtain ⟨_, _, ⟨⟩, hterminal, -⟩ := hreach.exists_token (by simpa using hlt)
        exact hne token (Except.ok.inj hpeek).symm hterminal
      | done line => exact Nat.zero_le _
      | stuck err => exact Nat.zero_le _
  · intro nt s e events h
    cases h
  · intro fuel nt s ih e events h before after place hform hreach
    by_contra hlt
    obtain ⟨next, p, hpeek, hp, hreach'⟩ := hll.exists_production? hc hform hreach (by omega)
    rcases descend_succ_eq_failed.mp h with ⟨err, rfl, -, -⟩ |
      ⟨next', hpeek', hnone, -, -⟩ | ⟨next', p', later, hpeek', hp', hbody, rfl⟩
    · cases hpeek
    · obtain rfl := Except.ok.inj (hpeek.symm.trans hpeek')
      simp [hp] at hnone
    · obtain rfl := Except.ok.inj (hpeek.symm.trans hpeek')
      obtain rfl := Option.some.inj (hp.symm.trans hp')
      exact hlt (hll.le_of_readAll_failed hc ih hbody (hc.sentential_body hform hp) hreach')

/-- **A parse does not fail before a place** that the start symbol can reach. -/
theorem parse_le_of_failed {text : String} {e : ParseError} {events : List Event}
    (h : c.parse text = .failed e events) {place : Scan}
    (hreach : c.grammar.CanReach place [.nonterminal c.grammar.start]
      (c.grammar.lexicon.scan text.toList)) :
    (c.grammar.lexicon.scan text.toList).length ≤
      place.length + (Event.consumptions events).length := by
  have hform : c.grammar.Sentential ([] ++ [.nonterminal c.grammar.start]) := .refl _
  rcases parse_eq_failed.mp h with hstart | ⟨v, rest, hstart, hend⟩
  · exact hll.le_of_failed hc _ _ _ _ _ hstart [] [] place hform hreach
  · have hlength := hc.length_of_readSymbol hstart
    by_contra hlt
    -- behind the start symbol nothing can be reached
    have hreach' := hll.canReach_of_ok hc _ _ _ _ _ _ hstart [] [] place hform (by omega) hreach
    generalize hxs : ([] : List Symbol) = xs at hreach'
    cases hreach' with
    | here => omega
    | token => cases hxs
    | replace => cases hxs

end IsLL1

omit hc in
/-- **What a failure of a parse says.** Some tokens of the text have been consumed, and the first
item behind them is the one that is found, with its line. The consumed tokens begin a sentential
form; if the next token decides, then with the token that is found they do not, or at the end of
the text they are not a sentence. -/
theorem parse_failure {engine : PatternEngine} {d : Declarations} {g : Grammar} {c : Compiled}
    (hbuild : d.build engine = .ok g) (hcompile : g.compile = .ok c) {text : String}
    {e : ParseError} {events : List Event} (hparse : c.parse text = .failed e events)
    {found : Found} (hfound : e.found? = some found) :
    ∃ consumed rest next, g.lexicon.scan text.toList = Scan.prepend consumed rest ∧
      Event.consumptions events = consumed.map Token.report ∧
      rest.peek = .ok next ∧ found = .ofToken next ∧ e.line = rest.line ∧
      (∃ α, g.Sentential ((consumed.map fun t => .terminal t.terminal) ++ α)) ∧
      (c.IsLL1 →
        (∀ t, next = some t → ∀ α, ¬ g.Sentential
          ((consumed.map fun t => .terminal t.terminal) ++ .terminal t.terminal :: α)) ∧
        (next = none → ¬ g.Sentential (consumed.map fun t => .terminal t.terminal))) := by
  obtain ⟨rfl, hc⟩ := coherent hbuild hcompile
  obtain ⟨consumed, rest, hscan, hconsumed, hreports, hform⟩ := hc.parse_failsAt hparse
  rw [ParseError.Reports] at hreports
  cases hpeek : rest.peek with
  | error err =>
    obtain rfl : e = .scan err := by simpa [hpeek] using hreports
    cases hfound
  | ok next =>
    simp only [hpeek, hfound, Option.some.injEq] at hreports
    refine ⟨consumed, rest, next, hscan, hconsumed, hpeek, hreports.1, hreports.2, hform,
      fun hll => ⟨?_, ?_⟩⟩
    · rintro t rfl α hα
      obtain ⟨r, rfl⟩ : ∃ r, rest = .token t r := by
        cases rest <;> simp_all [Scan.peek]
      -- otherwise the place behind the token could be reached
      have hreach : c.grammar.CanReach r [.nonterminal c.grammar.start]
          (Scan.prepend (consumed ++ [t]) r) :=
        Grammar.canReach_of_derives (by simpa [Grammar.Sentential] using hα)
      rw [Scan.prepend_append, Scan.prepend_cons, Scan.prepend_nil, ← hscan] at hreach
      have hle := hll.parse_le_of_failed hc hparse hreach
      rw [hscan, Scan.length_prepend, hconsumed, List.length_map, Scan.length] at hle
      omega
    · rintro rfl hα
      obtain ⟨line, rfl⟩ : ∃ line, rest = .done line := by
        cases rest <;> simp_all [Scan.peek]
      -- otherwise the whole text would be parsed
      obtain ⟨tree, htree, rfl⟩ := Grammar.exists_tree_of_derives hα
      have hok := hll.parseScan_eq hc htree line
      rw [← hscan, ← parse, hparse] at hok
      cases hok

omit hc in
/-- In nested lists, `a` can be followed by much, but not by a parenthesis that closes nothing. -/
theorem parse_failure_nested : ∃ g c e events, ∃ (consumed : List Token) (t : Token),
    Samples.nested.build Pattern.engine = .ok g ∧ g.compile = .ok c ∧
    c.parse "a )" = .failed e events ∧ e.found? = some ⟨")", ")"⟩ ∧ e.line = 1 ∧
    consumed.map Token.report = [("a", "a")] ∧ Token.report t = (")", ")") ∧
    (∃ α, g.Sentential ((consumed.map fun t => .terminal t.terminal) ++ α)) ∧
    ∀ α, ¬ g.Sentential
      ((consumed.map fun t => .terminal t.terminal) ++ .terminal t.terminal :: α) := by
  have hrun : ((Samples.nested.build Pattern.engine).toOption.bind fun g =>
      g.compile.toOption.bind fun c => match c.parse "a )" with
        | .failed e events => some (e.found?, e.line, Event.consumptions events, decide c.IsLL1)
        | _ => none) = some (some ⟨")", ")"⟩, 1, [("a", "a")], true) := by
    decide +kernel
  simp only [Option.bind_eq_some_iff, toOption_eq_some] at hrun
  obtain ⟨g, hbuild, c, hcompile, hrun⟩ := hrun
  split at hrun
  · rename_i e events hparse
    simp only [Option.some.injEq, Prod.mk.injEq, decide_eq_true_eq] at hrun
    obtain ⟨hfound, hline, hevents, hll⟩ := hrun
    obtain ⟨consumed, rest, next, -, hconsumed, -, hnext, -, hform, hnot⟩ :=
      parse_failure hbuild hcompile hparse hfound
    cases next with
    | none => simp [Found.ofToken, Found.endName] at hnext
    | some t =>
      obtain ⟨hname, htext⟩ := Found.mk.inj hnext
      exact ⟨g, c, e, events, consumed, t, hbuild, hcompile, hparse, hfound, hline,
        hconsumed ▸ hevents, Prod.ext hname.symm htext.symm, hform, (hnot hll).1 t rfl⟩
  · cases hrun

end Compiled

end PredictiveParsing
