import Mathlib.Data.List.Chain
import PredictiveParsing.Proofs.Parse.Termination
import PredictiveParsing.Samples

/-!
# Nested calls

While a nonterminal reads its body it calls the nonterminals in it, and these call others in turn.
A call that is made before a token has been consumed is one of a nonterminal with which the caller
begins. So no nonterminal occurs twice among nested calls as long as no token is consumed, and
there are no more of them than nonterminals.

## Main definitions

* `Compiled.Calls`: one call makes another

## Main results

* `Compiled.descend_eq_exhausted_iff`: a call needs more nested calls than it is given
  just if it makes that many, one within the other
* `Compiled.Coherent.calls_nodup`: before a token is consumed no nonterminal is called twice
* `Compiled.Coherent.descend_ne_exhausted_of_callBound`: how many nested calls are enough for any
  nonterminal
* `Compiled.parse_terminates`: parses come to an end, with nested calls as few as that
-/

namespace PredictiveParsing

open SyntaxTree (yieldAll)

namespace Compiled

/-- **One call makes another.** A call is a nonterminal with what is left of the scan when it is
entered: the caller takes a production, reads the symbols before a nonterminal of its body, and
calls that one with what they leave. -/
inductive Calls (c : Compiled) : Nat × Scan → Nat × Scan → Prop
  | nested {nt p m fuel : Nat} {s s' : Scan} {next : Option Token} {before after : List Symbol}
      {vs : List Value} {events : List Event} (hpeek : s.peek = .ok next)
      (hp : c.production? nt next = some p)
      (hbody : c.grammar.body p = before ++ .nonterminal m :: after)
      (hread : readAll (c.readSymbol fuel) before s = .ok vs s' events) : Calls c (nt, s) (m, s')

variable {c : Compiled} {fuel nt : Nat} {s : Scan}

/-- Reading symbols needs more nested calls just if a nonterminal does, behind symbols that have
been read. -/
theorem readAll_eq_exhausted {xs : List Symbol} :
    readAll (c.readSymbol fuel) xs s = .exhausted ↔
      ∃ before m after vs s' events, xs = before ++ .nonterminal m :: after ∧
        readAll (c.readSymbol fuel) before s = .ok vs s' events ∧
        c.descend fuel m s' = .exhausted := by
  induction xs generalizing s with
  | nil => simp [readAll]
  | cons x xs ih =>
    constructor
    · intro h
      unfold readAll at h
      cases hx : c.readSymbol fuel x s with
      | ok v r events =>
        simp only [hx, Outcome.bind, Outcome.after_eq_exhausted, Outcome.map_eq_exhausted] at h
        obtain ⟨before, m, after, vs, s', later, rfl, hbefore, hm⟩ := ih.mp h
        exact ⟨x :: before, m, after, _, s', _, rfl,
          readAll_cons_eq_ok.mpr ⟨_, _, _, _, _, hx, hbefore, rfl, rfl⟩, hm⟩
      | failed e events => simp [hx, Outcome.bind] at h
      | exhausted =>
        cases x with
        | terminal t => exact absurd hx consume_ne_exhausted
        | nonterminal m => exact ⟨[], m, xs, [], s, [], rfl, rfl, hx⟩
    · rintro ⟨before, m, after, vs, s', events, heq, hbefore, hm⟩
      unfold readAll
      cases before with
      | nil =>
        obtain ⟨rfl, rfl⟩ := List.cons.inj heq
        obtain ⟨rfl, rfl, rfl⟩ := readAll_nil_eq_ok.mp hbefore
        rw [readSymbol, hm]
        rfl
      | cons y before =>
        obtain ⟨rfl, rfl⟩ := List.cons.inj heq
        obtain ⟨v, r, rest, earlier, later, hx, hrest, rfl, rfl⟩ := readAll_cons_eq_ok.mp hbefore
        rw [hx]
        simp only [Outcome.bind, Outcome.after_eq_exhausted, Outcome.map_eq_exhausted]
        exact ih.mpr ⟨before, m, after, rest, s', later, rfl, hrest, hm⟩

/-- More nested calls than needed change nothing in the reading of a sequence. -/
theorem readAll_of_le {fuel' : Nat} {xs : List Symbol} (hle : fuel ≤ fuel')
    (h : readAll (c.readSymbol fuel) xs s ≠ .exhausted) :
    readAll (c.readSymbol fuel') xs s = readAll (c.readSymbol fuel) xs s := by
  refine readAll_congr (fun x r hx => ?_) h
  cases x with
  | terminal t => rfl
  | nonterminal m => exact descend_of_le hle hx

/-- A sequence that is read with some number of nested calls is read so with any number, unless
that is too small. -/
theorem readAll_eq_ok_or (fuel : Nat) {fuel' : Nat} {xs : List Symbol} {vs : List Value} {s' : Scan}
    {events : List Event} (h : readAll (c.readSymbol fuel') xs s = .ok vs s' events) :
    readAll (c.readSymbol fuel) xs s = .exhausted ∨
      readAll (c.readSymbol fuel) xs s = .ok vs s' events := by
  by_cases hex : readAll (c.readSymbol fuel) xs s = .exhausted
  · exact .inl hex
  · right
    rw [← h, ← readAll_of_le (Nat.le_max_left fuel fuel') hex]
    exact readAll_of_le (Nat.le_max_right fuel fuel') (by simp [h])

/-- **A call needs more nested calls** than it is given just if there are that many, each made by
the one before it. -/
theorem descend_eq_exhausted_iff : c.descend fuel nt s = .exhausted ↔
    ∃ chain : List (Nat × Scan), chain.length = fuel ∧ ((nt, s) :: chain).IsChain c.Calls := by
  -- Induction on the calls that are given: the first nested call is given one less.
  induction fuel generalizing nt s with
  | zero =>
    constructor
    · intro _
      exact ⟨[], rfl, .singleton _⟩
    · intro _
      rfl
  | succ fuel ih =>
    constructor
    · intro h
      rw [descend_succ] at h
      cases hpeek : s.peek with
      | error e => simp [hpeek] at h
      | ok next =>
        simp only [hpeek, Outcome.after_eq_exhausted] at h
        cases hp : c.production? nt next with
        | none => simp [hp] at h
        | some p =>
          rw [hp, Outcome.map_eq_exhausted] at h
          obtain ⟨before, m, after, vs, s', events, hbody, hread, hm⟩ := readAll_eq_exhausted.mp h
          obtain ⟨chain, rfl, hchain⟩ := ih.mp hm
          exact ⟨(m, s') :: chain, rfl,
            List.isChain_cons_cons.mpr ⟨.nested hpeek hp hbody hread, hchain⟩⟩
    · rintro ⟨chain, hlength, hchain⟩
      obtain ⟨call, chain, rfl⟩ := List.exists_cons_of_length_eq_add_one hlength
      obtain ⟨hcall, hrest⟩ := List.isChain_cons_cons.mp hchain
      obtain ⟨m, s'⟩ := call
      have hm := ih.mpr ⟨chain, by simpa using hlength, hrest⟩
      cases hcall with
      | @nested _ p _ enough _ _ next before after vs events hpeek hp hbody hread =>
        rw [descend_succ]
        simp only [hpeek, hp, Outcome.after_eq_exhausted, Outcome.map_eq_exhausted]
        rcases readAll_eq_ok_or fuel hread with hex | hread
        · -- there are not even enough for the symbols before the nested call
          obtain ⟨earlier, n, between, us, r, later, rfl, hearlier, hn⟩ :=
            readAll_eq_exhausted.mp hex
          exact readAll_eq_exhausted.mpr
            ⟨earlier, n, between ++ .nonterminal m :: after, us, r, later, by simp [hbody],
              hearlier, hn⟩
        · exact readAll_eq_exhausted.mpr ⟨before, m, after, vs, s', events, hbody, hread, hm⟩

/-! ## Calls before a token is consumed -/

namespace Coherent

variable (hc : c.Coherent)

include hc

/-- A nonterminal that makes a call has alternatives, and one that is called stands in a body. -/
theorem lt_of_calls {call call' : Nat × Scan} (h : c.Calls call call') :
    call.1 < c.grammar.nonterminals.size ∧ call'.1 < c.grammar.nonterminals.size := by
  obtain ⟨hpeek, hp, hbody, -⟩ := h
  have halt := hc.mem_alternatives_of_select hp
  exact ⟨Grammar.lt_of_mem_alternatives halt,
    hc.wellFormed.hasSymbol_of_mem_body halt (x := .nonterminal _) (by simp [hbody])⟩

/-- **The caller begins with what it calls** before a token has been consumed. -/
theorem beginsWith_of_calls {m : Nat} (h : c.Calls (nt, s) (m, s)) :
    c.grammar.BeginsWith c.analysis.first.nullable nt m := by
  cases h with
  | @nested _ p _ fuel _ _ next before after vs events hpeek hp hbody hread =>
    have halt := hc.mem_alternatives_of_select hp
    obtain ⟨production, hmem, -, hhead, hproduction⟩ := hc.wellFormed.exists_production halt
    refine ⟨production, hmem, hhead, before, after, hproduction ▸ hbody, ?_⟩
    obtain ⟨ts, hts, -, hs, -⟩ := (hc.readsTrees fuel).exists_forest hread
    have hlength := congrArg Scan.length hs
    rw [Scan.length_prepend] at hlength
    exact hc.nullable_of_yield hts (List.length_eq_zero_iff.mp (by omega))

/-- **Before a token is consumed no nonterminal is called twice**, one call within the other. -/
theorem calls_nodup {chain : List (Nat × Scan)} (hchain : chain.IsChain c.Calls)
    (hs : ∀ call ∈ chain, call.2 = s) : (chain.map (·.1)).Nodup := by
  have horder : ((chain.map (·.1)).map c.analysis.first.order.idxOf).IsChain (· > ·) := by
    rw [List.map_map, List.isChain_map]
    refine hchain.imp_of_mem_imp fun call call' hcall hcall' h => ?_
    obtain ⟨nt, r⟩ := call
    obtain ⟨m, r'⟩ := call'
    obtain rfl : r = s := hs _ hcall
    obtain rfl : r' = r := hs _ hcall'
    exact FirstSets.order_lt_of_beginsWith hc.wellFormed hc.firstSets (hc.beginsWith_of_calls h)
  exact List.Nodup.of_map _ (horder.pairwise.imp fun h => Nat.ne_of_gt h)

theorem lt_of_mem_calls {call call' : Nat × Scan} {chain : List (Nat × Scan)}
    (hchain : (call :: call' :: chain).IsChain c.Calls) :
    ∀ nt ∈ (call :: call' :: chain).map (·.1), nt < c.grammar.nonterminals.size := by
  induction chain generalizing call call' with
  | nil =>
    have hlt := hc.lt_of_calls (List.isChain_cons_cons.mp hchain).1
    simpa using hlt
  | cons call'' chain ih =>
    obtain ⟨hcall, hrest⟩ := List.isChain_cons_cons.mp hchain
    intro nt hnt
    rcases List.mem_cons.mp hnt with rfl | hnt
    · exact (hc.lt_of_calls hcall).1
    · exact ih hrest nt hnt

/-- So there are no more of these calls than nonterminals. -/
theorem length_calls_le {chain : List (Nat × Scan)} (hchain : chain.IsChain c.Calls)
    (hs : ∀ call ∈ chain, call.2 = s) : chain.length ≤ c.grammar.nonterminals.size := by
  match chain with
  | [] => exact Nat.zero_le _
  | [_] => exact Nat.lt_of_le_of_lt (Nat.zero_le _) hc.wellFormed.start_lt
  | call :: call' :: chain =>
    have hsub : (call :: call' :: chain).map (·.1) ⊆ List.range c.grammar.nonterminals.size :=
      fun nt hnt => List.mem_range.mpr (hc.lt_of_mem_calls hchain nt hnt)
    simpa using ((hc.calls_nodup hchain hs).subperm hsub).length_le

/-! ## Calls in general -/

/-- The scan of a nested call is the caller's, unless a token has been consumed. -/
theorem scan_of_calls {call call' : Nat × Scan} (h : c.Calls call call') :
    call'.2 = call.2 ∨ call'.2.length < call.2.length := by
  obtain @⟨nt, p, m, fuel, s, s', next, before, after, vs, events, -, -, -, hread⟩ := h
  obtain ⟨ts, -, -, rfl, -⟩ := (hc.readsTrees fuel).exists_forest hread
  by_cases hyield : yieldAll ts = []
  · exact .inl (by rw [hyield, Scan.prepend_nil])
  · have hpos := List.length_pos_iff.mpr hyield
    exact .inr (by simpa using hpos)

/-- Nested calls are made before a token is consumed, up to one that is made behind a token. -/
theorem exists_of_calls {call : Nat × Scan} {chain : List (Nat × Scan)}
    (hchain : (call :: chain).IsChain c.Calls) : ∃ same others, call :: chain = same ++ others ∧
      (∀ call' ∈ same, call'.2 = call.2) ∧
      ∀ call' ∈ others.head?, call'.2.length < call.2.length := by
  induction chain generalizing call with
  | nil => exact ⟨[call], [], rfl, by simp, by simp⟩
  | cons call' chain ih =>
    obtain ⟨hcall, hrest⟩ := List.isChain_cons_cons.mp hchain
    rcases hc.scan_of_calls hcall with hsame | hlt
    · obtain ⟨same, others, heq, hscan, hothers⟩ := ih hrest
      rw [hsame] at hscan hothers
      exact ⟨call :: same, others, by rw [heq, List.cons_append], by simpa using hscan, hothers⟩
    · exact ⟨[call], call' :: chain, rfl, by simp, by simpa using hlt⟩

/-- **Between two tokens there are no more calls than nonterminals**, so altogether there are no
more than the tokens that are left allow. -/
theorem length_calls_le_mul (n : Nat) {chain : List (Nat × Scan)} (hchain : chain.IsChain c.Calls)
    (hn : ∀ call ∈ chain.head?, call.2.length < n) :
    chain.length ≤ n * c.grammar.nonterminals.size := by
  induction n generalizing chain with
  | zero =>
    cases chain with
    | nil => exact Nat.zero_le _
    | cons call chain => exact absurd (hn call rfl) (Nat.not_lt_zero _)
  | succ n ih =>
    cases chain with
    | nil => exact Nat.zero_le _
    | cons call chain =>
      obtain ⟨same, others, heq, hscan, hothers⟩ := hc.exists_of_calls hchain
      rw [heq] at hchain ⊢
      obtain ⟨hsame, hrest, -⟩ := List.isChain_append.mp hchain
      have hlt := hn call rfl
      have hle := hc.length_calls_le hsame hscan
      have hle' := ih hrest fun call' hcall' => by have := hothers call' hcall'; omega
      rw [List.length_append, Nat.succ_mul]
      omega

/-- **A bound on the nested calls** of any nonterminal, reachable or not. -/
theorem descend_ne_exhausted_of_callBound (hfuel : c.callBound s.length ≤ fuel) :
    c.descend fuel nt s ≠ .exhausted := by
  intro hex
  obtain ⟨chain, hlength, hchain⟩ := descend_eq_exhausted_iff.mp hex
  have hle := hc.length_calls_le_mul (s.length + 1) hchain
    (by rintro _ ⟨⟩; exact Nat.lt_succ_self _)
  rw [List.length_cons, hlength] at hle
  rw [callBound, Nat.mul_succ] at hfuel
  omega

/-- So no sequence of symbols needs more either. -/
theorem readAll_ne_exhausted_of_callBound {xs : List Symbol}
    (hfuel : c.callBound s.length ≤ fuel) : readAll (c.readSymbol fuel) xs s ≠ .exhausted := by
  intro hex
  obtain ⟨before, m, after, vs, s', events, -, hbefore, hm⟩ := readAll_eq_exhausted.mp hex
  obtain ⟨ts, -, -, rfl, -⟩ := (hc.readsTrees fuel).exists_forest hbefore
  refine hc.descend_ne_exhausted_of_callBound (Nat.le_trans ?_ hfuel) hm
  rw [Scan.length_prepend]
  exact Nat.mul_le_mul_right _ (by omega)

end Coherent

/-- **Parses come to an end.** Every text is parsed or fails, and no number of nested calls beyond
the bound changes that. Calls nest as deep as there are calls each made by the one before it;
among those that are entered without a token consumed between them no nonterminal occurs twice,
so there are no more of them than nonterminals. -/
theorem parse_terminates {engine : PatternEngine} {d : Declarations} {g : Grammar} {c : Compiled}
    (hbuild : d.build engine = .ok g) (hcompile : g.compile = .ok c) :
    (∀ text, c.parse text ≠ .exhausted ∧
      ∀ fuel, c.callBound (g.lexicon.scan text.toList).length ≤ fuel →
        (c.descend fuel g.start (g.lexicon.scan text.toList)).bind readEnd = c.parse text) ∧
    (∀ fuel nt s, c.descend fuel nt s = .exhausted ↔
      ∃ chain : List (Nat × Scan), chain.length = fuel ∧ ((nt, s) :: chain).IsChain c.Calls) ∧
    ∀ (chain : List (Nat × Scan)) (s : Scan), chain.IsChain c.Calls →
      (∀ call ∈ chain, call.2 = s) →
      (chain.map (·.1)).Nodup ∧ chain.length ≤ g.nonterminals.size := by
  obtain ⟨rfl, hc⟩ := coherent hbuild hcompile
  refine ⟨fun text => ⟨hc.parseScan_ne_exhausted _, fun fuel hfuel => ?_⟩,
    fun fuel nt s => descend_eq_exhausted_iff,
    fun chain s hchain hs => ⟨hc.calls_nodup hchain hs, hc.length_calls_le hchain hs⟩⟩
  rw [descend_of_le hfuel (hc.call_ne_exhausted _)]
  rfl

/-- A list begins with an item, so the list calls the item before a token is consumed. -/
theorem parse_terminates_nested : ∃ g c s, Samples.nested.build Pattern.engine = .ok g ∧
    g.compile = .ok c ∧ s = g.lexicon.scan "( a".toList ∧ c.parse "( a" ≠ .exhausted ∧
    [(0, s), (1, s)].IsChain c.Calls ∧ ([(0, s), (1, s)].map (·.1)).Nodup ∧
    [(0, s), (1, s)].length ≤ g.nonterminals.size := by
  have hrun : ((Samples.nested.build Pattern.engine).toOption.bind fun g =>
      g.compile.toOption.bind fun c => match (g.lexicon.scan "( a".toList).peek with
        | .ok next => some (c.production? 0 next, c.grammar.body 0)
        | .error _ => none) = some (some 0, [.nonterminal 1, .nonterminal 0]) := by
    decide +kernel
  simp only [Option.bind_eq_some_iff, toOption_eq_some] at hrun
  obtain ⟨g, hbuild, c, hcompile, hrun⟩ := hrun
  obtain ⟨hparse, -, hcalls⟩ := parse_terminates hbuild hcompile
  split at hrun
  · rename_i next hpeek
    obtain ⟨hp, hbody⟩ := Prod.mk.inj (Option.some.inj hrun)
    have hbefore : c.grammar.body 0 = [] ++ .nonterminal 1 :: [.nonterminal 0] := hbody
    have hread : readAll (c.readSymbol 0) [] (g.lexicon.scan "( a".toList) =
        .ok [] (g.lexicon.scan "( a".toList) [] := rfl
    have hchain : [(0, g.lexicon.scan "( a".toList), (1, g.lexicon.scan "( a".toList)].IsChain
        c.Calls :=
      List.isChain_cons_cons.mpr ⟨.nested hpeek hp hbefore hread, .singleton _⟩
    exact ⟨g, c, _, hbuild, hcompile, rfl, (hparse _).1, hchain,
      hcalls _ (g.lexicon.scan "( a".toList) hchain (by simp)⟩
  · cases hrun

end Compiled

end PredictiveParsing
