import PredictiveParsing.Proofs.Analysis.FollowEquations
import PredictiveParsing.Proofs.Parse.Termination

/-!
# What is derived is parsed

If alternatives never clash, and if no nonterminal that can vanish begins with a token that can
come after it, then the next token decides between the alternatives: an alternative with tokens is
the only one that begins with the first of them, and an alternative without tokens is the only
one that can vanish, while the token that comes next is in FOLLOW and so begins no alternative.
Hence the parser takes the production that a syntax tree has at the place, whatever tree it is.
So it reads each tree, and no text has two.

## Main definitions

* `Compiled.IsLL1`: the next token decides
* `Compiled.CanPrecede`: a symbol can stand before what is left of a scan
* `Compiled.Admits`: so can all symbols of a sequence

## Main results

* `Compiled.IsLL1.production?_eq`: the production of a tree is the one that is taken
* `Compiled.IsLL1.readAll_eq`: every forest is read
* `Compiled.IsLL1.forest_unique`: no tokens have two forests
* `Compiled.IsLL1.parseScan_eq`: every tree of the start symbol is parsed
* `Compiled.parse_complete`: a derived text is parsed, and its tree is unique
-/

namespace PredictiveParsing

open SyntaxTree (yieldAll values traceAll)

/-! ## Alternatives without clashes -/

/-- If no two members of a list pass a test, the one that does is found. -/
theorem find?_eq_some_of_pairwise {α : Type} (test : α → Bool) {l : List α}
    (h : l.Pairwise fun a b => ¬ (test a = true ∧ test b = true)) {a : α} (ha : a ∈ l)
    (htest : test a = true) : l.find? test = some a := by
  induction l with
  | nil => exact absurd ha List.not_mem_nil
  | cons b l ih =>
    obtain ⟨hb, hl⟩ := List.pairwise_cons.mp h
    rcases List.mem_cons.mp ha with rfl | ha
    · rw [List.find?_cons_of_pos htest]
    · rw [List.find?_cons_of_neg fun hbtest => hb a ha ⟨hbtest, htest⟩]
      exact ih hl ha

namespace Prediction

variable {first : Nat → LookaheadSet} {nt : Nat} {alternatives : List Nat}

/-- Alternatives without clashes have no terminal in common, and at most one can vanish. -/
theorem pairwise_of_conflictsOf (h : conflictsOf first nt alternatives = []) :
    alternatives.Pairwise fun p q =>
      ((first p).inter (first q)).terminals = [] ∧
        ((first p).inter (first q)).hasEpsilon = false := by
  induction alternatives with
  | nil => exact .nil
  | cons p later ih =>
    rw [conflictsOf, List.append_eq_nil_iff, List.flatMap_eq_nil_iff] at h
    refine List.pairwise_cons.mpr ⟨fun q hq => ?_, ih h.2⟩
    have hclashes := h.1 q hq
    rw [clashes, List.append_eq_nil_iff, List.map_eq_nil_iff] at hclashes
    refine ⟨hclashes.1, ?_⟩
    cases heps : ((first p).inter (first q)).hasEpsilon with
    | false => rfl
    | true => simp [heps] at hclashes

end Prediction

namespace Compiled

/-- **The next token decides**: alternatives never clash, and a nonterminal that can vanish does
not begin with a token that can come after it. -/
structure IsLL1 (c : Compiled) : Prop where
  /-- No two alternatives accept the same. -/
  conflicts : c.prediction.conflicts = []
  /-- What can vanish begins with nothing that can come after it. -/
  disjoint : ∀ nt ∈ c.analysis.reachable, (c.analysis.first.nonterminal nt).hasEpsilon = true →
    ∀ t ∈ (c.analysis.first.nonterminal nt).terminals,
      t ∉ (c.analysis.follow c.grammar (.nonterminal nt)).terminals

instance (c : Compiled) : Decidable c.IsLL1 :=
  decidable_of_iff (c.prediction.conflicts = [] ∧ ∀ nt ∈ c.analysis.reachable,
      (c.analysis.first.nonterminal nt).hasEpsilon = true →
        ∀ t ∈ (c.analysis.first.nonterminal nt).terminals,
          t ∉ (c.analysis.follow c.grammar (.nonterminal nt)).terminals)
    ⟨fun h => ⟨h.1, h.2⟩, fun h => ⟨h.conflicts, h.disjoint⟩⟩

/-- **A symbol can stand before what is left of a scan**: there is no error, and a token that
comes next is in FOLLOW. -/
def CanPrecede (c : Compiled) (x : Symbol) : Scan → Prop
  | .token t _ => t.terminal ∈ (c.analysis.follow c.grammar x).slots
  | .done _ => True
  | .stuck _ => False

/-- **All symbols of a sequence can stand where they do**: the nonterminals are reachable, and each
symbol can stand before the tokens of the symbols behind it. -/
def Admits (c : Compiled) : List Symbol → (after : Scan) → Prop
  | [], _ => True
  | x :: xs, after => (∀ nt, x = .nonterminal nt → nt ∈ c.grammar.reachable) ∧
      (∀ ts, c.grammar.IsForest xs ts → c.CanPrecede x (Scan.prepend (yieldAll ts) after)) ∧
      c.Admits xs after

variable {c : Compiled} (hc : c.Coherent)

include hc

namespace Coherent

/-! ## The places of symbols -/

/-- The first token of a forest is one that the symbols can begin with. -/
theorem mem_bodyFirst_of_yield {xs : List Symbol} {ts : List SyntaxTree} {t : Token}
    {tokens : List Token} (hxs : ∀ x ∈ xs, c.grammar.HasSymbol x) (hts : c.grammar.IsForest xs ts)
    (hyield : yieldAll ts = t :: tokens) :
    t.terminal < c.grammar.terminals.size ∧ t.terminal ∈
      (bodyFirst c.grammar.terminals.size c.analysis.first.symbol xs).slots := by
  have hderives := hts.derives
  rw [hyield, List.map_cons] at hderives
  have hlt : t.terminal < c.grammar.terminals.size :=
    (hderives.hasSymbol hc.wellFormed List.mem_cons_self).elim id (hxs _)
  exact ⟨hlt, FirstSets.mem_bodyFirst_of_canBegin hc.wellFormed hc.firstSets
    (.terminal hlt hderives)⟩

/-- **The symbols of a body can stand where they do** if the head can. -/
theorem admits_of_body {nt p : Nat} {after : Scan} (hnt : nt ∈ c.grammar.reachable)
    (hp : p ∈ c.grammar.alternatives nt) (hafter : c.CanPrecede (.nonterminal nt) after)
    (before : List Symbol) {xs : List Symbol} (hbody : c.grammar.body p = before ++ xs) :
    c.Admits xs after := by
  induction xs generalizing before with
  | nil => trivial
  | cons x xs ih =>
    refine ⟨?_, fun ts hts => ?_, ih (before ++ [x]) (by simp [hbody])⟩
    · rintro m rfl
      exact hc.wellFormed.mem_reachable_of_mem_body hnt hp (by simp [hbody])
    · cases hyield : yieldAll ts with
      | nil =>
        -- the rest of the body vanishes, so what comes next comes after the head
        have hnull := hc.nullable_of_yield hts hyield
        cases after with
        | token t rest => exact hc.mem_follow_of_vanishing hnt hp hbody hnull hafter
        | done line => trivial
        | stuck e => exact hafter
      | cons t tokens =>
        obtain ⟨hlt, hmem⟩ := hc.mem_bodyFirst_of_yield (fun y hy =>
          hc.wellFormed.hasSymbol_of_mem_body hp (by simp [hbody, hy])) hts hyield
        exact hc.mem_follow_of_mem_bodyFirst hnt hp hbody hmem (by omega)

/-- The start symbol can stand before the end of the text. -/
theorem admits_start (line : Nat) : c.Admits [.nonterminal c.grammar.start] (.done line) := by
  refine ⟨?_, fun ts hts => ?_, trivial⟩
  · rintro nt ⟨⟩
    exact hc.wellFormed.start_mem_reachable
  · cases hts
    trivial

end Coherent

/-! ## The production that is taken -/

namespace IsLL1

variable (hll : c.IsLL1)

include hll

theorem pairwise_alternatives {nt : Nat} (hnt : nt ∈ c.grammar.reachable) :
    (c.grammar.alternatives nt).Pairwise fun p q =>
      ((c.analysis.first.production p).inter (c.analysis.first.production q)).terminals = [] ∧
        ((c.analysis.first.production p).inter
          (c.analysis.first.production q)).hasEpsilon = false := by
  have hconflicts := hll.conflicts
  rw [hc.prediction, Prediction.ofAnalysis, List.flatMap_eq_nil_iff] at hconflicts
  exact Prediction.pairwise_of_conflictsOf (hconflicts nt (hc.reachable ▸ hnt))

/-- An alternative that can begin with a token is taken before it. -/
theorem production?_of_token {nt p : Nat} {t : Token} (hnt : nt ∈ c.grammar.reachable)
    (hp : p ∈ c.grammar.alternatives nt) (hlt : t.terminal < c.grammar.terminals.size)
    (hmem : t.terminal ∈ (c.analysis.first.production p).slots) :
    c.production? nt (some t) = some p := by
  have htest {q : Nat} (hq : q ∈ c.grammar.alternatives nt) :
      (c.analysis.first.production q).withoutEpsilon.hasTerminal t.terminal = true ↔
        t.terminal ∈ (c.analysis.first.production q).slots := by
    rw [LookaheadSet.hasTerminal_iff, LookaheadSet.mem_slots_withoutEpsilon, hc.size_production hq]
    exact and_iff_left (by omega)
  have hfind := find?_eq_some_of_pairwise (fun q =>
    (c.analysis.first.production q).withoutEpsilon.hasTerminal t.terminal)
    ((hll.pairwise_alternatives hc hnt).imp_of_mem fun {q r} hq hr hqr => ?_) hp
    ((htest hp).mpr hmem)
  · have hselect := Choice.select_eq_alternative.mpr ⟨t.terminal, rfl, hfind⟩
    simp [production?, hc.choice_eq, hselect, Selection.production?]
  · -- two alternatives that begin with the token would clash
    rintro ⟨hq', hr'⟩
    have hcommon : t.terminal ∈ ((c.analysis.first.production q).inter
        (c.analysis.first.production r)).terminals := by
      rw [LookaheadSet.mem_terminals, LookaheadSet.mem_slots_inter, LookaheadSet.size_inter,
        hc.size_production hq]
      exact ⟨⟨(htest hq).mp hq', (htest hr).mp hr'⟩, hlt⟩
    rw [hqr.1] at hcommon
    exact List.not_mem_nil hcommon

/-- An alternative that can vanish is taken before what can come after the nonterminal. -/
theorem production?_of_epsilon {nt p : Nat} {next : Option Token} (hnt : nt ∈ c.grammar.reachable)
    (hp : p ∈ c.grammar.alternatives nt)
    (hepsilon : (c.analysis.first.production p).hasEpsilon = true)
    (hnext : ∀ t, next = some t →
      t.terminal ∈ (c.analysis.follow c.grammar (.nonterminal nt)).slots) :
    c.production? nt next = some p := by
  have hntsize : (c.analysis.first.nonterminal nt).size = c.grammar.terminals.size :=
    FirstSets.size_symbol hc.wellFormed hc.firstSets (.nonterminal nt)
  have hvanish : (c.analysis.first.nonterminal nt).hasEpsilon = true := by
    rw [LookaheadSet.hasEpsilon_iff, hc.size_production hp] at hepsilon
    rw [LookaheadSet.hasEpsilon_iff, hntsize]
    exact hc.mem_nonterminal_of_mem_production hp hepsilon
  -- the token comes after a nonterminal that can vanish, so no alternative begins with it
  have hnone : ∀ u, next.map (·.terminal) = some u → ∀ q ∈ c.grammar.alternatives nt,
      (c.analysis.first.production q).withoutEpsilon.hasTerminal u = false := by
    intro u hu q hq
    obtain ⟨t, rfl, rfl⟩ := Option.map_eq_some_iff.mp hu
    rw [Bool.eq_false_iff, ne_eq, LookaheadSet.hasTerminal_iff,
      LookaheadSet.mem_slots_withoutEpsilon, hc.size_production hq]
    rintro ⟨hslot, hne⟩
    have hfirst := hc.mem_nonterminal_of_mem_production hq hslot
    have hlt : t.terminal < c.grammar.terminals.size :=
      (FirstSets.canBegin_of_mem_symbol (s := .nonterminal nt) hc.wellFormed hc.firstSets
        (Grammar.lt_of_mem_alternatives hq) hfirst).lt_or_eq.resolve_right hne
    refine hll.disjoint nt (hc.reachable ▸ hnt) hvanish t.terminal
      (LookaheadSet.mem_terminals.mpr ⟨hfirst, hntsize ▸ hlt⟩)
      (LookaheadSet.mem_terminals.mpr ⟨hnext t rfl, hc.size_follow _ ▸ hlt⟩)
  have hfind := find?_eq_some_of_pairwise (fun q =>
    (c.analysis.first.production q).hasEpsilon)
    ((hll.pairwise_alternatives hc hnt).imp_of_mem fun {q r} hq hr hqr => ?_) hp hepsilon
  · have hselect := Choice.select_eq_epsilon.mpr ⟨hnone, hfind⟩
    simp [production?, hc.choice_eq, hselect, Selection.production?]
  · -- two alternatives that can vanish would clash
    rintro ⟨hq', hr'⟩
    have hboth := hqr.2
    rw [LookaheadSet.hasEpsilon_iff, hc.size_production hq] at hq'
    rw [LookaheadSet.hasEpsilon_iff, hc.size_production hr] at hr'
    rw [Bool.eq_false_iff, ne_eq, LookaheadSet.hasEpsilon_iff, LookaheadSet.size_inter,
      hc.size_production hq, LookaheadSet.mem_slots_inter] at hboth
    exact hboth ⟨hq', hr'⟩

/-- **The production of a tree is the one that is taken** before the tokens of the tree. -/
theorem production?_eq {nt p : Nat} {children : List SyntaxTree} {after : Scan}
    (hnt : nt ∈ c.grammar.reachable) (hp : p ∈ c.grammar.alternatives nt)
    (hchildren : c.grammar.IsForest (c.grammar.body p) children)
    (hafter : c.CanPrecede (.nonterminal nt) after) :
    ∃ next, (Scan.prepend (yieldAll children) after).peek = .ok next ∧
      c.production? nt next = some p := by
  have hproduction := hc.production_eq hp
  cases hyield : yieldAll children with
  | nil =>
    have hepsilon : (c.analysis.first.production p).hasEpsilon = true := by
      rw [hproduction, LookaheadSet.hasEpsilon_iff,
        size_bodyFirst (FirstSets.size_symbol hc.wellFormed hc.firstSets)]
      exact FirstSets.mem_bodyFirst_of_canBegin hc.wellFormed hc.firstSets
        (.epsilon (hchildren.derives_nil hyield))
    cases after with
    | token t rest =>
      refine ⟨some t, rfl, hll.production?_of_epsilon hc hnt hp hepsilon ?_⟩
      rintro u ⟨⟩
      exact hafter
    | done line => exact ⟨none, rfl, hll.production?_of_epsilon hc hnt hp hepsilon (by simp)⟩
    | stuck e => exact hafter.elim
  | cons t tokens =>
    obtain ⟨hlt, hmem⟩ := hc.mem_bodyFirst_of_yield
      (fun x hx => hc.wellFormed.hasSymbol_of_mem_body hp hx) hchildren hyield
    exact ⟨some t, rfl, hll.production?_of_token hc hnt hp hlt (hproduction ▸ hmem)⟩

/-! ## Every tree is read, and there is one -/

/-- **Every forest is read**, unless more nested calls would be needed. -/
theorem readAll_eq (fuel : Nat) {xs : List Symbol} {ts : List SyntaxTree} {after : Scan}
    (hts : c.grammar.IsForest xs ts) (hxs : c.Admits xs after) :
    readAll (c.readSymbol fuel) xs (Scan.prepend (yieldAll ts) after) = .exhausted ∨
      readAll (c.readSymbol fuel) xs (Scan.prepend (yieldAll ts) after) =
        .ok (values c.shapes ts) after (traceAll c.grammar ts after) := by
  -- Induction on the forest: a node takes one nested call, and its body is read with one less.
  induction hts generalizing fuel after with
  | nil => exact .inr rfl
  | leaf t _ ih => exact readAll_cons_of_or (.inr consume_token) (ih fuel hxs.2.2)
  | @node xs ts children p production hp hinner hrest ihinner ihrest =>
    cases fuel with
    | zero => exact .inl rfl
    | succ fuel =>
      have hnt := hxs.1 _ rfl
      have hpalt := (hc.wellFormed.mem_alternatives production.head p).mpr ⟨_, hp, rfl⟩
      have hbody := Grammar.body_of_getElem? hp
      have hplace := hxs.2.1 ts hrest
      obtain ⟨next, hpeek, htaken⟩ := hll.production?_eq hc hnt hpalt (hbody ▸ hinner) hplace
      have hcall := ihinner fuel
        (hc.admits_of_body hnt hpalt hplace [] hbody)
      simp only [yieldAll, SyntaxTree.yield, Scan.prepend_append]
      refine readAll_cons_of_or ?_ (ihrest _ hxs.2.2)
      rw [readSymbol, descend_succ, hpeek]
      simp only [htaken, hbody]
      refine hcall.imp (fun h => by rw [h]; rfl) fun h => ?_
      rw [h]
      simp [Outcome.map, Outcome.after, SyntaxTree.value, SyntaxTree.trace, hp]

/-- Every tree of a symbol is read, unless more nested calls would be needed. -/
theorem readSymbol_eq (fuel : Nat) {x : Symbol} {t : SyntaxTree} {after : Scan}
    (ht : c.grammar.IsTree x t) (hx : c.Admits [x] after) :
    c.readSymbol fuel x (Scan.prepend t.yield after) = .exhausted ∨
      c.readSymbol fuel x (Scan.prepend t.yield after) =
        .ok (t.value c.shapes) after (t.trace c.grammar after) := by
  have hread := hll.readAll_eq hc fuel ht hx
  simp only [readAll_singleton, Outcome.map_eq_exhausted, Outcome.map_eq_ok, yieldAll, values,
    traceAll, List.append_nil, Scan.prepend_nil, List.cons.injEq, and_true] at hread
  refine hread.imp id ?_
  rintro ⟨v, hv, rfl⟩
  exact hv

/-- A scan of the tokens of a tree of the start symbol is parsed. -/
theorem parseScan_eq {tree : SyntaxTree}
    (htree : c.grammar.IsTree (.nonterminal c.grammar.start) tree) (line : Nat) :
    c.parseScan (Scan.prepend tree.yield (.done line)) =
      .ok (tree.value c.shapes) (.done line) (tree.trace c.grammar (.done line)) := by
  have hread := hll.readSymbol_eq hc (c.callBound (Scan.prepend tree.yield (.done line)).length)
    htree (hc.admits_start line)
  rw [parseScan, Outcome.bind_eq_ok]
  exact ⟨_, _, _, [], hread.resolve_left (hc.call_ne_exhausted _), rfl, by simp⟩

/-- **No tokens have two forests**, whatever comes after them. -/
theorem forest_unique {xs : List Symbol} {ts us : List SyntaxTree} {after after' : Scan}
    (hts : c.grammar.IsForest xs ts) (hus : c.grammar.IsForest xs us) (hxs : c.Admits xs after)
    (hxs' : c.Admits xs after')
    (heq : Scan.prepend (yieldAll ts) after = Scan.prepend (yieldAll us) after') :
    ts = us ∧ after = after' := by
  induction hts generalizing us after after' with
  | nil =>
    cases hus
    exact ⟨rfl, heq⟩
  | leaf t _ ih =>
    obtain ⟨u, us, rfl, -, hrest⟩ := Grammar.IsForest.terminal_cons_iff.mp hus
    simp only [yieldAll, SyntaxTree.yield, Scan.prepend_append, Scan.prepend_cons,
      Scan.prepend_nil, Scan.token.injEq] at heq
    obtain ⟨rfl, heq⟩ := heq
    obtain ⟨rfl, rfl⟩ := ih hrest hxs.2.2 hxs'.2.2 heq
    exact ⟨rfl, rfl⟩
  | @node xs ts children p production hp hinner hrest ihinner ihrest =>
    obtain ⟨q, production', children', us, rfl, hq, hhead, hinner', hrest'⟩ :=
      Grammar.IsForest.nonterminal_cons_iff.mp hus
    simp only [yieldAll, SyntaxTree.yield, Scan.prepend_append] at heq
    have hnt := hxs.1 _ rfl
    have hpalt := (hc.wellFormed.mem_alternatives production.head p).mpr ⟨_, hp, rfl⟩
    have hqalt := (hc.wellFormed.mem_alternatives production.head q).mpr ⟨_, hq, hhead⟩
    have hpbody := Grammar.body_of_getElem? hp
    have hqbody := Grammar.body_of_getElem? hq
    have hplace := hxs.2.1 ts hrest
    have hplace' := hxs'.2.1 us hrest'
    obtain ⟨next, hpeek, htaken⟩ := hll.production?_eq hc hnt hpalt (hpbody ▸ hinner) hplace
    obtain ⟨next', hpeek', htaken'⟩ := hll.production?_eq hc hnt hqalt (hqbody ▸ hinner') hplace'
    rw [heq, hpeek'] at hpeek
    obtain rfl := Except.ok.inj hpeek
    obtain rfl : p = q := Option.some.inj (htaken.symm.trans htaken')
    obtain rfl := Option.some.inj (hp.symm.trans hq)
    obtain ⟨rfl, hafter⟩ := ihinner hinner' (hc.admits_of_body hnt hpalt hplace [] hpbody)
      (hc.admits_of_body hnt hpalt hplace' [] hpbody) heq
    obtain ⟨rfl, rfl⟩ := ihrest hrest' hxs.2.2 hxs'.2.2 hafter
    exact ⟨rfl, rfl⟩

end IsLL1

end Compiled

/-! ## Derived texts -/

namespace Compiled

/-- **A derived text is parsed.** If the next token decides, a text whose tokens are derived from
the start symbol has just one syntax tree, and its parse yields the value and the events of it. -/
theorem parse_complete {engine : PatternEngine} {d : Declarations} {g : Grammar} {c : Compiled}
    (hbuild : d.build engine = .ok g) (hcompile : g.compile = .ok c) (hll : c.IsLL1)
    {text : String} {tokens : List Token} {line : Nat}
    (hscan : g.lexicon.scan text.toList = Scan.prepend tokens (.done line))
    (hderives : g.Derives [.nonterminal g.start] (tokens.map fun t => .terminal t.terminal)) :
    ∃ tree, (g.IsTree (.nonterminal g.start) tree ∧ tree.yield = tokens) ∧
      (∀ tree', g.IsTree (.nonterminal g.start) tree' → tree'.yield = tokens → tree' = tree) ∧
      c.parse text = .ok (tree.value c.shapes) (.done line) (tree.trace g (.done line)) := by
  obtain ⟨rfl, hc⟩ := coherent hbuild hcompile
  obtain ⟨ts, hts, hyield⟩ := Grammar.exists_forest_of_derives hderives
  obtain ⟨tree, us, rfl, htree, hus⟩ := Grammar.IsForest.cons_iff.mp hts
  cases hus
  obtain rfl : tree.yield = tokens := by simpa [yieldAll] using hyield
  have hadmits := hc.admits_start line
  refine ⟨tree, ⟨htree, rfl⟩, fun tree' htree' hyield' => ?_, ?_⟩
  · have heq := (hll.forest_unique hc htree' htree hadmits hadmits
      (by simp [yieldAll, hyield'])).1
    exact (List.cons.inj heq).1
  · have hread := hll.readSymbol_eq hc (c.callBound (c.grammar.lexicon.scan text.toList).length)
      htree hadmits
    rw [← hscan] at hread
    exact parse_eq_ok.mpr ⟨line, rfl, hread.resolve_left (hc.call_ne_exhausted _)⟩

/-- The next token decides for nested lists, so a letter and a list in parentheses are parsed. -/
theorem parse_complete_nested : ∃ (g : Grammar) (c : Compiled) (tree : SyntaxTree),
    Samples.nested.build Pattern.engine = .ok g ∧
    g.compile = .ok c ∧ c.IsLL1 ∧ tree.yield.map (·.text) = ["a", "(", "a", ")"] ∧
    c.parse "a ( a )" = .ok (tree.value c.shapes) (.done 1) (tree.trace g (.done 1)) := by
  have hrun : ((Samples.nested.build Pattern.engine).toOption.bind fun g =>
      g.compile.toOption.bind fun c => match c.parse "a ( a )" with
        | .ok _ rest _ => some (rest, decide c.IsLL1,
            (g.lexicon.scan "a ( a )".toList).tokens.map (·.text))
        | _ => none) = some (.done 1, true, ["a", "(", "a", ")"]) := by
    decide +kernel
  simp only [Option.bind_eq_some_iff, toOption_eq_some] at hrun
  obtain ⟨g, hbuild, c, hcompile, hrun⟩ := hrun
  obtain ⟨rfl, hc⟩ := coherent hbuild hcompile
  split at hrun
  · rename_i v rest events hparse
    simp only [Option.some.injEq, Prod.mk.injEq, decide_eq_true_eq] at hrun
    obtain ⟨rfl, hll, htexts⟩ := hrun
    obtain ⟨tree, line, htree, hscan, ⟨⟩, -⟩ := hc.exists_tree_of_parse hparse
    obtain ⟨tree', ⟨-, hyield⟩, -, hparse'⟩ :=
      parse_complete hbuild hcompile hll hscan htree.derives
    refine ⟨_, c, tree', hbuild, hcompile, hll, ?_, hparse'⟩
    rwa [hscan, Scan.tokens_prepend, Scan.tokens, List.append_nil, ← hyield] at htexts
  · cases hrun

end Compiled

end PredictiveParsing
