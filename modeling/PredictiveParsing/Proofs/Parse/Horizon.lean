import PredictiveParsing.Proofs.Lexicon.TokenStream
import PredictiveParsing.Proofs.Parse.Failure
import PredictiveParsing.Samples

/-!
# One token ahead

A parse that has consumed some tokens has seen these and one item more: the next token, the end of
the text, or the failure to scan what stands there. So another text whose scan agrees that far is
parsed with the same result and the same events, whatever comes further on. In particular, a failure
to scan is reported just if all tokens before it have been consumed.

The two runs are compared by induction on the nested calls. What is assumed of the scans before a
stretch depends on what the stretch consumes: they agree for the tokens that are consumed and for
at least one item more, and afterwards they agree for the items that are left.

## Main definitions

* `Sight`, `Scan.sights`: what can be told of the items of a scan
* `Scan.AgreeFor`: two scans agree for a number of items
* `Outcome.RepeatedBy`: a stretch comes to the same on a scan that agrees far enough

## Main results

* `Outcome.RepeatedBy.bind`: one stretch after another
* `Compiled.repeatedBy_readSymbol`, `Compiled.Coherent.repeatedBy_parseScan`: calls and parses
* `Compiled.parse_one_ahead`: both, for texts
-/

namespace PredictiveParsing

/-! ## Scans that agree for a number of items -/

/-- **What can be told of an item** of a scan. -/
inductive Sight where
  /-- A token, by its terminal, its text and its line. -/
  | token (terminal : Nat) (text : String) (line : Nat)
  /-- The end of the text, with the last line. -/
  | ending (line : Nat)
  /-- A failure. -/
  | failure (e : ScanError)
deriving DecidableEq

namespace Scan

/-- **The items of a scan**, the end or the failure behind the tokens included. -/
def sights : Scan → List Sight
  | token t rest => .token t.terminal t.text t.line :: rest.sights
  | done line => [.ending line]
  | stuck e => [.failure e]

/-- **Two scans agree for a number of items**, or to their end. -/
inductive AgreeFor : Nat → Scan → Scan → Prop
  | zero (s s' : Scan) : AgreeFor 0 s s'
  | token {n : Nat} (t : Token) {s s' : Scan} (h : AgreeFor n s s') :
      AgreeFor (n + 1) (.token t s) (.token t s')
  | done (n line : Nat) : AgreeFor (n + 1) (.done line) (.done line)
  | stuck (n : Nat) (e : ScanError) : AgreeFor (n + 1) (.stuck e) (.stuck e)

namespace AgreeFor

variable {n m : Nat} {s s' : Scan}

theorem mono (h : AgreeFor n s s') (hle : m ≤ n) : AgreeFor m s s' := by
  induction h generalizing m with
  | zero s s' =>
    obtain rfl := Nat.le_zero.mp hle
    exact .zero s s'
  | token t _ ih =>
    cases m with
    | zero => exact .zero _ _
    | succ m => exact .token t (ih (Nat.le_of_succ_le_succ hle))
  | done n line =>
    cases m with
    | zero => exact .zero _ _
    | succ m => exact .done m line
  | stuck n e =>
    cases m with
    | zero => exact .zero _ _
    | succ m => exact .stuck m e

/-- Scans that agree for an item have the same next item. -/
theorem peek_eq (h : AgreeFor 1 s s') : s.peek = s'.peek := by
  cases h <;> rfl

theorem line_eq (h : AgreeFor 1 s s') : s.line = s'.line := by
  cases h <;> rfl

/-- A scan that agrees with an ended one for an item is the same. -/
theorem eq_of_done {line : Nat} (h : AgreeFor 1 (.done line) s') : s' = .done line := by
  cases h
  rfl

end AgreeFor

end Scan

/-- A token of a grammar is known by its terminal, its text and its line. -/
theorem Grammar.HasToken.eq {g : Grammar} {t t' : Token} (ht : g.HasToken t) (ht' : g.HasToken t')
    (hterminal : t.terminal = t'.terminal) (htext : t.text = t'.text) (hline : t.line = t'.line) :
    t = t' := by
  have hname : t.name = t'.name := by rw [ht.name, ht'.name, hterminal]
  cases t
  cases t'
  simp_all

/-- The tokens of a scan belong to the grammar. -/
theorem Grammar.WellFormed.hasToken_of_mem_tokens {g : Grammar} (wf : g.WellFormed) {line : Nat}
    {text : List Char} {t : Token} (h : t ∈ (g.lexicon.scanFrom line text).tokens) :
    g.HasToken t := by
  fun_induction Lexicon.scanFrom g.lexicon line text with
  | case1 => cases h
  | case2 => cases h
  | case3 line text t' hitem ih =>
    rcases List.mem_cons.mp h with rfl | h
    · exact wf.hasToken_of_next hitem
    · exact ih h

/-- **Scans of one grammar agree** as far as the same can be told of their items. -/
theorem Scan.agreeFor_of_sights {g : Grammar} {n : Nat} {s s' : Scan}
    (hs : ∀ t ∈ s.tokens, g.HasToken t) (hs' : ∀ t ∈ s'.tokens, g.HasToken t)
    (h : s'.sights.take n = s.sights.take n) : s.AgreeFor n s' := by
  induction n generalizing s s' with
  | zero => exact .zero s s'
  | succ n ih =>
    cases s with
    | token t rest =>
      cases s' with
      | token t' rest' =>
        obtain ⟨hsight, hsights⟩ := List.cons.inj h
        obtain ⟨hterminal, htext, hline⟩ := Sight.token.inj hsight
        obtain ⟨ht, hrest⟩ := List.forall_mem_cons.mp hs
        obtain ⟨ht', hrest'⟩ := List.forall_mem_cons.mp hs'
        obtain rfl := ht'.eq ht hterminal htext hline
        exact .token t' (ih hrest hrest' hsights)
      | done line => cases h
      | stuck e => cases h
    | done line =>
      cases s' with
      | token t' rest' => cases h
      | done line' =>
        obtain ⟨⟩ := Sight.ending.inj (List.cons.inj h).1
        exact .done n line
      | stuck e => cases h
    | stuck e =>
      cases s' with
      | token t' rest' => cases h
      | done line => cases h
      | stuck e' =>
        obtain ⟨⟩ := Sight.failure.inj (List.cons.inj h).1
        exact .stuck n e

/-- The tokens before a place are known by their number. -/
theorem Scan.prepend_inj {tokens tokens' : List Token} {s s' : Scan}
    (h : prepend tokens s = prepend tokens' s') (hlength : tokens.length = tokens'.length) :
    tokens = tokens' ∧ s = s' := by
  induction tokens generalizing tokens' with
  | nil =>
    obtain rfl := List.length_eq_zero_iff.mp hlength.symm
    exact ⟨rfl, h⟩
  | cons t tokens ih =>
    obtain ⟨t', tokens', rfl⟩ := List.exists_cons_of_length_eq_add_one hlength.symm
    obtain ⟨rfl, hrest⟩ := Scan.token.inj h
    obtain ⟨rfl, rfl⟩ := ih hrest (Nat.succ.inj hlength)
    exact ⟨rfl, rfl⟩

/-! ## Stretches that are repeated -/

namespace Outcome

variable {α β : Type} {s s' : Scan} {o o' : Outcome Scan ParseError α}

/-- **A stretch is repeated** on a scan that agrees with its own for the tokens that it consumes
and one item more: it fails alike, or it succeeds alike, and then the scans still agree for the
items that are left of those for which they did. -/
def RepeatedBy (s s' : Scan) (o o' : Outcome Scan ParseError α) : Prop :=
  match o with
  | ok v r events => ∀ n, s.AgreeFor ((Event.consumptions events).length + (n + 1)) s' →
      ∃ r', o' = ok v r' events ∧ r.AgreeFor (n + 1) r'
  | failed e events => s.AgreeFor ((Event.consumptions events).length + 1) s' →
      o' = failed e events
  | exhausted => True

namespace RepeatedBy

/-- In any case the scans may be assumed to agree for one item. -/
theorem of_agreeFor (h : s.AgreeFor 1 s' → RepeatedBy s s' o o') : RepeatedBy s s' o o' := by
  cases o with
  | ok v r events =>
    intro n hagree
    exact h (hagree.mono (by omega)) n hagree
  | failed e events =>
    intro hagree
    exact h (hagree.mono (by omega)) hagree
  | exhausted => trivial

/-- **One stretch after another**: what the first one leaves agrees far enough for the second. -/
theorem bind (h : RepeatedBy s s' o o') {next : α → Scan → Outcome Scan ParseError β}
    (hnext : ∀ v r r', RepeatedBy r r' (next v r) (next v r')) :
    RepeatedBy s s' (o.bind next) (o'.bind next) := by
  cases o with
  | failed e events =>
    intro hagree
    rw [h hagree]
    rfl
  | exhausted => trivial
  | ok v r before =>
    cases hlater : next v r with
    | ok w q after =>
      simp only [Outcome.bind, hlater, Outcome.after]
      intro n hagree
      rw [Event.consumptions_append, List.length_append, Nat.add_assoc] at hagree
      obtain ⟨r', rfl, hr⟩ := h ((Event.consumptions after).length + n) hagree
      have hsecond := hnext v r r'
      rw [hlater] at hsecond
      obtain ⟨q', hq', hq⟩ := hsecond n hr
      exact ⟨q', by simp only [hq'], hq⟩
    | failed e after =>
      simp only [Outcome.bind, hlater, Outcome.after]
      intro hagree
      rw [Event.consumptions_append, List.length_append, Nat.add_assoc] at hagree
      obtain ⟨r', rfl, hr⟩ := h (Event.consumptions after).length hagree
      have hsecond := hnext v r r'
      rw [hlater] at hsecond
      simp only [hsecond hr]
    | exhausted =>
      simp only [Outcome.bind, hlater, Outcome.after]
      trivial

theorem map (h : RepeatedBy s s' o o') (f : α → β) : RepeatedBy s s' (o.map f) (o'.map f) := by
  cases o with
  | ok v r events =>
    intro n hagree
    obtain ⟨r', rfl, hr⟩ := h n hagree
    exact ⟨r', rfl, hr⟩
  | failed e events =>
    intro hagree
    rw [h hagree]
    rfl
  | exhausted => trivial

/-- An entry consumes nothing. -/
theorem enter (h : RepeatedBy s s' o o') (name : String) (line : Nat) :
    RepeatedBy s s' (o.after [.enter name line]) (o'.after [.enter name line]) := by
  cases o with
  | ok v r events =>
    intro n hagree
    obtain ⟨r', rfl, hr⟩ := h n hagree
    exact ⟨r', rfl, hr⟩
  | failed e events =>
    intro hagree
    rw [h hagree]
    rfl
  | exhausted => trivial

end RepeatedBy

end Outcome

open Outcome (RepeatedBy)

/-- If symbols are read alike, so are sequences of symbols. -/
theorem repeatedBy_readAll {read : Symbol → Reading Value}
    (hread : ∀ x s s', RepeatedBy s s' (read x s) (read x s')) (xs : List Symbol) (s s' : Scan) :
    RepeatedBy s s' (readAll read xs s) (readAll read xs s') := by
  induction xs generalizing s s' with
  | nil =>
    intro n hagree
    exact ⟨s', rfl, hagree.mono (Nat.le_add_left _ _)⟩
  | cons x xs ih => exact (hread x s s').bind fun v r r' => (ih r r').map (v :: ·)

theorem repeatedBy_readEnd (v : Value) (s s' : Scan) :
    RepeatedBy s s' (readEnd v s) (readEnd v s') := by
  cases s with
  | token t rest =>
    intro hagree
    cases hagree
    rfl
  | done line =>
    intro n hagree
    rw [(hagree.mono (by omega)).eq_of_done]
    exact ⟨.done line, rfl, .done n line⟩
  | stuck e =>
    intro hagree
    cases hagree
    rfl

namespace Compiled

/-! ## Calls and parses -/

section Calls

variable {c : Compiled}

theorem repeatedBy_consume (t : Nat) (s s' : Scan) :
    RepeatedBy s s' (c.consume t s) (c.consume t s') := by
  cases s with
  | token token rest =>
    by_cases ht : token.terminal = t
    · -- one item less has to agree afterwards, and one token more has been consumed
      subst ht
      rw [consume_token]
      intro n hagree
      rw [Event.consumptions_consume, List.length_cons, Nat.add_right_comm] at hagree
      cases hagree with
      | token _ hrest => exact ⟨_, consume_token, hrest.mono (Nat.le_add_left _ _)⟩
    · refine .of_agreeFor fun hagree => ?_
      cases hagree
      simp only [consume, if_neg ht]
      exact fun _ => rfl
  | done line =>
    intro hagree
    cases hagree
    rfl
  | stuck e =>
    intro hagree
    cases hagree
    rfl

/-- **A symbol is read alike** from scans that agree for what is consumed and one item more. -/
theorem repeatedBy_readSymbol (fuel : Nat) (x : Symbol) (s s' : Scan) :
    RepeatedBy s s' (c.readSymbol fuel x s) (c.readSymbol fuel x s') := by
  -- Induction on the nested calls. A call looks at the next item, which is the same in both scans,
  -- so it takes the same production.
  induction fuel generalizing x s s' with
  | zero =>
    cases x with
    | terminal t => exact repeatedBy_consume t s s'
    | nonterminal nt => trivial
  | succ fuel ih =>
    cases x with
    | terminal t => exact repeatedBy_consume t s s'
    | nonterminal nt =>
      refine .of_agreeFor fun hagree => ?_
      rw [readSymbol, descend_succ, descend_succ, ← hagree.peek_eq, ← hagree.line_eq]
      cases s.peek with
      | error e => exact fun _ => rfl
      | ok next =>
        refine RepeatedBy.enter ?_ _ _
        cases c.production? nt next with
        | none => exact fun _ => rfl
        | some p => exact (repeatedBy_readAll (fun y r r' => ih y r r') _ s s').map _

end Calls

namespace Coherent

variable {c : Compiled} (hc : c.Coherent)

include hc

/-- **A parse is repeated** on a scan that agrees far enough. -/
theorem repeatedBy_parseScan (s s' : Scan) :
    RepeatedBy s s' (c.parseScan s) (c.parseScan s') := by
  have hcalls {r : Scan} (hle : c.callBound r.length ≤
      max (c.callBound s.length) (c.callBound s'.length)) :
      c.parseScan r = (c.readSymbol (max (c.callBound s.length) (c.callBound s'.length))
        (.nonterminal c.grammar.start) r).bind readEnd := by
    rw [parseScan, ← descend_of_le hle (hc.call_ne_exhausted r)]
    rfl
  rw [hcalls (Nat.le_max_left _ _), hcalls (Nat.le_max_right _ _)]
  exact (repeatedBy_readSymbol _ _ s s').bind fun v r r' => repeatedBy_readEnd v r r'

/-- A parse of a scan that agrees far enough comes to the same. -/
theorem parseScan_eq_of_agreeFor {s s' : Scan} (h : s.AgreeFor
    ((Event.consumptions (c.parseScan s).events).length + 1) s') :
    c.parseScan s' = c.parseScan s := by
  have hrepeated := hc.repeatedBy_parseScan s s'
  cases hparse : c.parseScan s with
  | exhausted => exact absurd hparse (hc.parseScan_ne_exhausted s)
  | failed e events =>
    rw [hparse] at h hrepeated
    exact hrepeated h
  | ok v r events =>
    obtain ⟨line, rfl⟩ : ∃ line, r = .done line := by
      obtain ⟨w, r', before, after, -, hend, -⟩ := Outcome.bind_eq_ok.mp hparse
      obtain ⟨line, rfl, -, rfl, -⟩ := readEnd_eq_ok.mp hend
      exact ⟨line, rfl⟩
    rw [hparse] at h hrepeated
    obtain ⟨r', hr', hagree⟩ := hrepeated 0 h
    rw [hr', hagree.eq_of_done]

/-- Texts whose scans agree far enough are parsed alike. -/
theorem parse_eq_of_sights {text text' : String}
    (h : (c.grammar.lexicon.scan text'.toList).sights.take
        ((Event.consumptions (c.parse text).events).length + 1) =
      (c.grammar.lexicon.scan text.toList).sights.take
        ((Event.consumptions (c.parse text).events).length + 1)) :
    c.parse text' = c.parse text := by
  apply hc.parseScan_eq_of_agreeFor
  refine Scan.agreeFor_of_sights (g := c.grammar) ?_ ?_ h
  · exact fun t ht => hc.wellFormed.hasToken_of_mem_tokens ht
  · exact fun t ht => hc.wellFormed.hasToken_of_mem_tokens ht

/-- **A failure to scan is reported** just if all tokens before it have been consumed. -/
theorem parse_eq_scan_iff {text : String} {tokens : List Token} {e : ScanError}
    (hscan : c.grammar.lexicon.scan text.toList = Scan.prepend tokens (.stuck e)) :
    (∃ events, c.parse text = .failed (.scan e) events) ↔
      Event.consumptions (c.parse text).events = tokens.map Token.report := by
  constructor
  · rintro ⟨events, hparse⟩
    obtain ⟨consumed, rest, hfails⟩ := hc.parse_failsAt hparse
    rw [hparse, Outcome.events, hfails.consumptions_eq]
    have hreports := hfails.reports
    cases hpeek : rest.peek with
    | ok next =>
      rw [ParseError.Reports, hpeek] at hreports
      cases hreports.1
    | error err =>
      obtain rfl := Scan.eq_stuck_of_peek hpeek
      have htokens := congrArg Scan.tokens (hscan.symm.trans hfails.scan_eq)
      rw [Scan.tokens_prepend, Scan.tokens_prepend] at htokens
      simp only [Scan.tokens, List.append_nil] at htokens
      rw [htokens]
  · intro hconsumed
    cases hparse : c.parse text with
    | exhausted => exact absurd hparse (hc.parseScan_ne_exhausted _)
    | ok v rest events =>
      -- a text is parsed to its end, but the scan has none
      obtain ⟨line, rfl, hstart⟩ := parse_eq_ok.mp hparse
      obtain ⟨tree, -, -, htree, -⟩ := hc.readsTrees _ _ _ _ _ _ hstart
      have hsame := hscan.symm.trans htree
      have hlength := congrArg Scan.length hsame
      rw [Scan.length_prepend, Scan.length_prepend] at hlength
      cases (Scan.prepend_inj hsame hlength).2
    | failed e' events =>
      obtain ⟨consumed, rest, hfails⟩ := hc.parse_failsAt hparse
      rw [hparse, Outcome.events, hfails.consumptions_eq] at hconsumed
      have hlength : tokens.length = consumed.length := by
        simpa using (congrArg List.length hconsumed).symm
      obtain ⟨-, rfl⟩ := Scan.prepend_inj (hscan.symm.trans hfails.scan_eq) hlength
      obtain rfl : e' = .scan e := hfails.reports
      exact ⟨events, rfl⟩

end Coherent

/-- **A parse sees one item more than it consumes.** Two texts whose scans agree for the tokens that
the parse of the first one consumes, and for one item more, are parsed with the same result and the
same events. So a failure to scan cannot be seen early: where the scan of a text fails, the failure
is reported just if all tokens before it have been consumed. -/
theorem parse_one_ahead {engine : PatternEngine} {d : Declarations} {g : Grammar} {c : Compiled}
    (hbuild : d.build engine = .ok g) (hcompile : g.compile = .ok c) :
    (∀ text text' : String,
      (g.lexicon.scan text'.toList).sights.take
          ((Event.consumptions (c.parse text).events).length + 1) =
        (g.lexicon.scan text.toList).sights.take
          ((Event.consumptions (c.parse text).events).length + 1) →
      c.parse text' = c.parse text) ∧
    ∀ (text : String) (tokens : List Token) (e : ScanError),
      g.lexicon.scan text.toList = Scan.prepend tokens (.stuck e) →
      ((∃ events, c.parse text = .failed (.scan e) events) ↔
        Event.consumptions (c.parse text).events = tokens.map Token.report) := by
  obtain ⟨rfl, hc⟩ := coherent hbuild hcompile
  refine ⟨?_, ?_⟩
  · intro text text' h
    exact hc.parse_eq_of_sights h
  · intro text tokens e hscan
    exact hc.parse_eq_scan_iff hscan

/-- A list that ends before a parenthesis fails there, whatever comes behind it; a sign that is no
token is reported when the letter before it has been consumed. -/
theorem parse_one_ahead_nested : ∃ g c, Samples.nested.build Pattern.engine = .ok g ∧
    g.compile = .ok c ∧
    (g.lexicon.scan "a ) ?".toList).sights.take 2 = (g.lexicon.scan "a )".toList).sights.take 2 ∧
    c.parse "a ) ?" = c.parse "a )" ∧
    g.lexicon.scan "a ?".toList = Scan.prepend [⟨0, "a", "a", 1⟩] (.stuck ⟨1, "?"⟩) ∧
    ∃ events, c.parse "a ?" = .failed (.scan ⟨1, "?"⟩) events := by
  have hrun : ((Samples.nested.build Pattern.engine).toOption.bind fun g =>
      g.compile.toOption.map fun c => decide (
        (g.lexicon.scan "a ) ?".toList).sights.take 2 =
          (g.lexicon.scan "a )".toList).sights.take 2 ∧
        (Event.consumptions (c.parse "a )").events).length = 1 ∧
        g.lexicon.scan "a ?".toList = Scan.prepend [⟨0, "a", "a", 1⟩] (.stuck ⟨1, "?"⟩) ∧
        Event.consumptions (c.parse "a ?").events = [("a", "a")])) = some true := by
    decide +kernel
  simp only [Option.bind_eq_some_iff, Option.map_eq_some_iff, toOption_eq_some,
    decide_eq_true_eq] at hrun
  obtain ⟨g, hbuild, c, hcompile, hsights, hlength, hscan, hconsumed⟩ := hrun
  obtain ⟨hsame, hreported⟩ := parse_one_ahead hbuild hcompile
  refine ⟨g, c, hbuild, hcompile, hsights, hsame "a )" "a ) ?" ?_, hscan, ?_⟩
  · rw [hlength]
    exact hsights
  · exact (hreported "a ?" _ _ hscan).mpr hconsumed

end Compiled

end PredictiveParsing
