import PredictiveParsing.Proofs.Grammar.WellFormed

/-!
# What a scan is made of

Rules are numbered by their place, and rule `t + 1` is the one of terminal `t`. So each token of a
scan carries the number of a terminal together with its name. No token is empty, so there are no
more tokens than characters.

## Main definitions

* `Lexicon.Reads`: a token is what its rule finds
* `Grammar.HasToken`: a token with the number and the name of a terminal

## Main results

* `Lexicon.reads_of_mem_tokens`: the tokens of a scan have been read by their rules
* `Grammar.WellFormed.hasToken_of_next`: the tokens that are met belong to the grammar
* `Lexicon.length_scanFrom_le`: there are no more tokens than characters
-/

namespace PredictiveParsing

namespace Lexicon

variable {lexicon : Lexicon}

/-- The rule that reads a piece has its number and its name, and finds it. -/
theorem exists_rule_of_firstPiece? {text : List Char} {number : Nat} {rules : List LexRule}
    {piece : Piece} (h : firstPiece? text number rules = some piece) :
    ∃ i rule, rules[i]? = some rule ∧ piece.rule = number + i ∧ piece.name = rule.name ∧
      ∃ n, rule.find text = some n ∧ piece.text = text.take n := by
  induction rules generalizing number with
  | nil => cases h
  | cons rule rules ih =>
    unfold firstPiece? at h
    have hlater (h : firstPiece? text (number + 1) rules = some piece) :
        ∃ i rule', (rule :: rules)[i]? = some rule' ∧ piece.rule = number + i ∧
          piece.name = rule'.name ∧ ∃ n, rule'.find text = some n ∧ piece.text = text.take n := by
      obtain ⟨i, rule', hrule, hnumber, hreads⟩ := ih h
      exact ⟨i + 1, rule', by simpa using hrule, by omega, hreads⟩
    split at h
    · rename_i n hfind
      split at h
      · exact hlater h
      · cases h
        exact ⟨0, rule, rfl, rfl, rfl, n, hfind, rfl⟩
    · exact hlater h

theorem exists_rule_of_piece? {text : List Char} {piece : Piece}
    (h : lexicon.piece? text = some piece) :
    ∃ rule, lexicon.rules[piece.rule]? = some rule ∧ piece.name = rule.name ∧
      ∃ n, rule.find text = some n ∧ piece.text = text.take n := by
  obtain ⟨i, rule, hrule, hnumber, hreads⟩ := exists_rule_of_firstPiece? h
  exact ⟨rule, by rwa [hnumber, Nat.zero_add], hreads⟩

/-- **A token has been read by its rule**: it is what the rule finds at the start of some text. -/
def Reads (lexicon : Lexicon) (t : Token) : Prop :=
  ∃ rule text n, lexicon.rules[t.terminal + 1]? = some rule ∧ rule.find text = some n ∧
    t.text = String.ofList (text.take n)

theorem reads_of_next {line : Nat} {text : List Char} {t : Token}
    (h : (lexicon.next line text).item = .ok (some t)) : lexicon.Reads t := by
  fun_induction next lexicon line text with
  | case1 => cases h
  | case2 => cases h
  | case3 line c l piece hpiece hrule ih => exact ih h
  | case4 line c l piece hpiece terminal hrule =>
    cases h
    obtain ⟨rule, hget, -, n, hfind, htext⟩ := exists_rule_of_piece? hpiece
    rw [hrule] at hget
    exact ⟨rule, c :: l, n, hget, hfind, by rw [htext]⟩

/-- **The tokens of a scan have been read by their rules.** -/
theorem reads_of_mem_tokens {line : Nat} {text : List Char} {t : Token}
    (h : t ∈ (lexicon.scanFrom line text).tokens) : lexicon.Reads t := by
  fun_induction scanFrom lexicon line text with
  | case1 => cases h
  | case2 => cases h
  | case3 line text t' hitem ih =>
    rcases List.mem_cons.mp h with rfl | h
    · exact reads_of_next hitem
    · exact ih h

/-- The line that is reached is that of the token, or of the place without one. -/
theorem line_of_next (lexicon : Lexicon) (line : Nat) (text : List Char) :
    match (lexicon.next line text).item with
    | .ok (some t) => t.line = (lexicon.next line text).line
    | .ok none => (lexicon.next line text).rest = []
    | .error e => e.line = (lexicon.next line text).line := by
  fun_induction next lexicon line text with
  | case1 => rfl
  | case2 => rfl
  | case3 line c l piece hpiece hrule ih => exact ih
  | case4 => rfl

/-- **There are no more tokens than characters.** -/
theorem length_scanFrom_le (line : Nat) (text : List Char) :
    (lexicon.scanFrom line text).length ≤ text.length := by
  fun_induction scanFrom lexicon line text with
  | case1 => exact Nat.zero_le _
  | case2 => exact Nat.zero_le _
  | case3 line text t hitem ih =>
    have hlt := length_rest_next_lt hitem
    rw [Scan.length]
    omega

end Lexicon

/-! ## The tokens of a grammar -/

/-- **A token of a grammar** has the number and the name of a terminal. -/
structure Grammar.HasToken (g : Grammar) (t : Token) : Prop where
  /-- The number is that of a terminal. -/
  lt : t.terminal < g.terminals.size
  /-- The name is that of the terminal. -/
  name : t.name = g.terminalName t.terminal

namespace Grammar.WellFormed

variable {g : Grammar} (wf : g.WellFormed)

include wf

/-- Rule `t + 1` is the one of terminal `t`. -/
theorem rule_succ {t : Nat} {rule : LexRule} (h : g.lexicon.rules[t + 1]? = some rule) :
    t < g.terminals.size ∧ rule.name = g.terminalName t := by
  have hrules := congrArg (·[t + 1]?) wf.tokenRules
  simp only [List.getElem?_map, h, Option.map_some, List.getElem?_cons_succ] at hrules
  rw [eq_comm, Option.map_eq_some_iff] at hrules
  obtain ⟨terminal, hterminal, hname⟩ := hrules
  rw [Array.getElem?_toList] at hterminal
  obtain ⟨hlt, rfl⟩ := Array.getElem?_eq_some_iff.mp hterminal
  refine ⟨hlt, (Prod.mk.inj hname).1.symm.trans ?_⟩
  simp [terminalName, hlt]

/-- **The tokens that are met belong to the grammar.** -/
theorem hasToken_of_next {line : Nat} {text : List Char} {t : Token}
    (h : (g.lexicon.next line text).item = .ok (some t)) : g.HasToken t := by
  fun_induction Lexicon.next g.lexicon line text with
  | case1 => cases h
  | case2 => cases h
  | case3 line c l piece hpiece hrule ih => exact ih h
  | case4 line c l piece hpiece terminal hrule =>
    cases h
    obtain ⟨rule, hget, hname, -⟩ := Lexicon.exists_rule_of_piece? hpiece
    rw [hrule] at hget
    obtain ⟨hlt, hterminal⟩ := wf.rule_succ hget
    exact ⟨hlt, hname.trans hterminal⟩

end Grammar.WellFormed

end PredictiveParsing
