import Mathlib.Data.Finset.Card
import PredictiveParsing.Proofs.Analysis.Reachable
import PredictiveParsing.Proofs.Parse.Soundness

/-!
# Parses terminate

A nonterminal that is called before a token has been consumed is one that the caller begins with,
so it was finished earlier when FIRST was found. Between two tokens the calls therefore descend
in that order, and there are no more of them than reachable nonterminals. So the number of nested
calls that a parse is given is enough, and every parse succeeds or fails.

## Main definitions

* `Compiled.rank`: how many reachable nonterminals can be called below one before a token

## Main results

* `Compiled.Coherent.rank_lt_of_beginsWith`: the rank decreases as long as no token is consumed
* `Compiled.Coherent.descend_ne_exhausted`: a bound on the nested calls
* `Compiled.Coherent.parseScan_ne_exhausted`: a parse is given enough of them
-/

namespace PredictiveParsing

namespace Compiled

/-- **How many reachable nonterminals** were finished before one when FIRST was found. -/
def rank (c : Compiled) (nt : Nat) : Nat :=
  (c.grammar.reachable.toFinset.filter fun m =>
    c.analysis.first.order.idxOf m < c.analysis.first.order.idxOf nt).card

variable {c : Compiled}

theorem rank_lt {nt : Nat} (hnt : nt ∈ c.grammar.reachable) :
    c.rank nt < c.grammar.reachable.length := by
  -- the nonterminal itself is reachable, but was not finished before itself
  have hlt : c.rank nt < c.grammar.reachable.toFinset.card := by
    refine Finset.card_lt_card (Finset.filter_ssubset.mpr ⟨nt, ?_, Nat.lt_irrefl _⟩)
    exact List.mem_toFinset.mpr hnt
  exact Nat.lt_of_lt_of_le hlt (List.toFinset_card_le _)

namespace Coherent

variable (hc : c.Coherent)

include hc

/-- The symbols of a forest without tokens can vanish. -/
theorem nullable_of_yield {xs : List Symbol} {ts : List SyntaxTree}
    (hts : c.grammar.IsForest xs ts) (hyield : SyntaxTree.yieldAll ts = []) :
    ∀ x ∈ xs, c.analysis.first.nullable x = true := by
  have hmem := FirstSets.mem_bodyFirst_of_canBegin hc.wellFormed hc.firstSets
    (.epsilon (hts.derives_nil hyield))
  exact (epsilon_mem_bodyFirst (FirstSets.size_symbol hc.wellFormed hc.firstSets)).mp hmem

/-- **The rank decreases** on the way to a nonterminal that another one begins with. -/
theorem rank_lt_of_beginsWith {nt m : Nat} (hm : m ∈ c.grammar.reachable)
    (hb : c.grammar.BeginsWith c.analysis.first.nullable nt m) : c.rank m < c.rank nt := by
  have hlt := FirstSets.order_lt_of_beginsWith hc.wellFormed hc.firstSets hb
  refine Finset.card_lt_card (Finset.ssubset_iff_of_subset ?_ |>.mpr ⟨m, ?_, ?_⟩)
  · exact Finset.monotone_filter_right _ fun n _ hn => Nat.lt_trans hn hlt
  · simp [hm, hlt]
  · simp

/-- **Reading a body needs no more calls** than its nonterminals do, each with as many tokens as
are left. As long as no token has been consumed, all symbols read can vanish. -/
theorem readAll_ne_exhausted {fuel nt p : Nat} (hnt : nt ∈ c.grammar.reachable)
    (hp : p ∈ c.grammar.alternatives nt) (s₀ : Scan)
    (hcall : ∀ m s, m ∈ c.grammar.reachable → (s.length < s₀.length ∨ s.length = s₀.length ∧
      c.grammar.BeginsWith c.analysis.first.nullable nt m) → c.descend fuel m s ≠ .exhausted)
    (before : List Symbol) {xs : List Symbol} (hbody : c.grammar.body p = before ++ xs) {s : Scan}
    (hs : s.length < s₀.length ∨
      s.length = s₀.length ∧ ∀ x ∈ before, c.analysis.first.nullable x = true) :
    readAll (c.readSymbol fuel) xs s ≠ .exhausted := by
  induction xs generalizing before s with
  | nil => simp [readAll]
  | cons x xs ih =>
    have hx : x ∈ c.grammar.body p := by simp [hbody]
    refine Outcome.bind_ne_exhausted ?_ fun v r events hread => ?_
    · cases x with
      | terminal t => exact consume_ne_exhausted
      | nonterminal m =>
        refine hcall m s (hc.wellFormed.mem_reachable_of_mem_body hnt hp hx) (hs.imp id ?_)
        rintro ⟨hlen, hbefore⟩
        obtain ⟨production, hmem, -, hhead, hproduction⟩ := hc.wellFormed.exists_production hp
        exact ⟨hlen, production, hmem, hhead, before, xs, hproduction ▸ hbody, hbefore⟩
    · rw [ne_eq, Outcome.map_eq_exhausted]
      refine ih (before ++ [x]) (by simp [hbody]) ?_
      obtain ⟨tree, htree, -, rfl, -⟩ := hc.readsTrees fuel x s v r events hread
      rw [Scan.length_prepend] at hs
      rcases hs with hlt | ⟨hlen, hbefore⟩
      · exact .inl (by omega)
      · by_cases hyield : tree.yield = []
        · have hnull : c.analysis.first.nullable x = true :=
            (FirstSets.nullable_iff hc.wellFormed hc.firstSets
              (hc.wellFormed.hasSymbol_of_mem_body hp hx)).mpr
              (htree.derives_nil (by simp [SyntaxTree.yieldAll, hyield]))
          refine .inr ⟨by simpa [hyield] using hlen, fun y hy => ?_⟩
          rcases List.mem_append.mp hy with hy | hy
          · exact hbefore y hy
          · exact List.mem_singleton.mp hy ▸ hnull
        · have hpos := List.length_pos_iff.mpr hyield
          exact .inl (by omega)

/-- **A bound on the nested calls**: for each token that is left, and for what is read before the
next one, as many as there are reachable nonterminals. -/
theorem descend_ne_exhausted {fuel nt : Nat} {s : Scan} (hnt : nt ∈ c.grammar.reachable)
    (hfuel : s.length * c.grammar.reachable.length + c.rank nt < fuel) :
    c.descend fuel nt s ≠ .exhausted := by
  -- Induction on the calls: before a token the rank decreases, and after it a whole round of
  -- ranks has been saved.
  induction fuel generalizing nt s with
  | zero => omega
  | succ fuel ih =>
    rw [descend_succ]
    cases s.peek with
    | error e => simp
    | ok next =>
      rw [ne_eq, Outcome.after_eq_exhausted]
      cases hp : c.production? nt next with
      | none => simp
      | some p =>
        rw [Outcome.map_eq_exhausted]
        refine hc.readAll_ne_exhausted hnt (hc.mem_alternatives_of_select hp) s
          (fun m r hm h => ih hm ?_) [] rfl (.inr ⟨rfl, by simp⟩)
        rcases h with hlt | ⟨hlen, hbegins⟩
        · have hrank := rank_lt hm
          have hmul := Nat.mul_le_mul_right c.grammar.reachable.length (Nat.succ_le_of_lt hlt)
          rw [Nat.succ_mul] at hmul
          omega
        · have hrank := hc.rank_lt_of_beginsWith hm hbegins
          rw [hlen]
          omega

/-- The start symbol needs no more calls than this. -/
theorem start_ne_exhausted {fuel : Nat} {s : Scan}
    (hfuel : (s.length + 1) * c.grammar.reachable.length ≤ fuel) :
    c.descend fuel c.grammar.start s ≠ .exhausted := by
  have hstart := hc.wellFormed.start_mem_reachable
  have hrank := rank_lt hstart
  rw [Nat.succ_mul] at hfuel
  exact hc.descend_ne_exhausted hstart (by omega)

/-- A parse is given enough nested calls. -/
theorem call_ne_exhausted (s : Scan) :
    c.descend (c.callBound s.length) c.grammar.start s ≠ .exhausted :=
  hc.start_ne_exhausted
    (Nat.mul_le_mul_left _ (Nat.le_succ_of_le hc.wellFormed.length_reachable_le))

/-- **A parse succeeds or fails.** -/
theorem parseScan_ne_exhausted (s : Scan) : c.parseScan s ≠ .exhausted := by
  refine Outcome.bind_ne_exhausted (hc.call_ne_exhausted s) fun v s' events _ => ?_
  cases s' <;> simp [readEnd]

end Coherent

end Compiled

end PredictiveParsing
