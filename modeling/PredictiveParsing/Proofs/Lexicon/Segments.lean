import PredictiveParsing.Proofs.Lexicon.TokenStream

/-!
# How a text is split

A run of a token stream splits its text. Each segment is read by the first rule that reads at least
one character where the segment begins; segments of rule 0 are white space, and all others are
tokens. The run ends where no rule reads anything: at the end of the text, or at a place that is
reported as an error. Lines are counted by the line feeds in segments of white space.

## Main definitions

* `Segment`: the characters that one rule reads
* `Lexicon.RuleReads`, `Lexicon.ReadsFirst`: which rule reads a segment
* `Lexicon.Splits`: the segments of a text, and the rest that is not read
* `Lexicon.tokensOf`, `Lexicon.endOf`: the tokens of segments, and how a run over them ends

## Main results

* `Lexicon.ReadsFirst.piece?_eq`: the piece at the start of a text is the segment there
* `Lexicon.Splits.scanFrom_eq`: the scan of a text consists of the tokens of its segments
* `TokenStream.run_of_splits`: a run over segments yields their tokens and the ending
* `TokenStream.run_splits`: every text is split, and a run yields the tokens of its segments
-/

namespace PredictiveParsing

/-- **A segment of a text**: the characters that one rule reads. -/
structure Segment where
  /-- The number of the rule. -/
  rule : Nat
  /-- The characters. -/
  text : List Char
deriving DecidableEq

namespace Lexicon

variable {lexicon : Lexicon}

/-! ## The rule that reads a segment -/

/-- **A rule reads a segment** at the start of a text: the segment is what the rule finds there,
and it is not empty. -/
def RuleReads (lexicon : Lexicon) (text : List Char) (s : Segment) : Prop :=
  ∃ rule n, lexicon.rules[s.rule]? = some rule ∧ rule.find text = some n ∧
    s.text = text.take n ∧ s.text ≠ []

/-- **The first rule that reads anything** at the start of a text reads a segment there. -/
def ReadsFirst (lexicon : Lexicon) (text : List Char) (s : Segment) : Prop :=
  lexicon.RuleReads text s ∧ ∀ s', lexicon.RuleReads text s' → s.rule ≤ s'.rule

/-- A rule that is passed over reads nothing: one before the rule of the piece, or any rule if there
is no piece. -/
theorem take_eq_nil_of_firstPiece? {text : List Char} {number i n : Nat} {rules : List LexRule}
    {rule : LexRule}
    (hpassed : ∀ piece, firstPiece? text number rules = some piece → number + i < piece.rule)
    (hrule : rules[i]? = some rule) (hfind : rule.find text = some n) : text.take n = [] := by
  induction rules generalizing number i with
  | nil => cases hrule
  | cons first rules ih =>
    unfold firstPiece? at hpassed
    cases i with
    | zero =>
      obtain rfl : first = rule := Option.some.inj hrule
      simp only [hfind] at hpassed
      by_cases hempty : (text.take n).isEmpty = true
      · exact List.isEmpty_iff.mp hempty
      · rw [if_neg hempty] at hpassed
        exact absurd (hpassed _ rfl) (Nat.lt_irrefl _)
    | succ i =>
      have hlater (h : ∀ piece, firstPiece? text (number + 1) rules = some piece →
          number + (i + 1) < piece.rule) : text.take n = [] := by
        have hpassed' (piece : Piece) (hpiece : firstPiece? text (number + 1) rules = some piece) :
            number + 1 + i < piece.rule := by
          have := h piece hpiece
          omega
        exact ih hpassed' hrule
      split at hpassed
      · split at hpassed
        · exact hlater hpassed
        · exact absurd (hpassed _ rfl) (by simp)
      · exact hlater hpassed

/-- A rule that is passed over at the start of a text reads nothing there. -/
theorem take_eq_nil_of_piece? {text : List Char} {i n : Nat} {rule : LexRule}
    (hpassed : ∀ piece, lexicon.piece? text = some piece → i < piece.rule)
    (hrule : lexicon.rules[i]? = some rule) (hfind : rule.find text = some n) :
    text.take n = [] := by
  have hpassed' (piece : Piece) (hpiece : firstPiece? text 0 lexicon.rules = some piece) :
      0 + i < piece.rule := by
    rw [Nat.zero_add]
    exact hpassed piece hpiece
  exact take_eq_nil_of_firstPiece? hpassed' hrule hfind

/-- No rule reads anything where there is no piece. -/
theorem not_ruleReads_of_piece? {text : List Char} (h : lexicon.piece? text = none)
    (s : Segment) : ¬ lexicon.RuleReads text s := by
  rintro ⟨rule, n, hrule, hfind, htext, hne⟩
  refine hne (htext.trans (take_eq_nil_of_piece? (fun piece hpiece => ?_) hrule hfind))
  rw [hpiece] at h
  cases h

/-- **A piece is read by the first rule that reads anything.** -/
theorem readsFirst_of_piece? {text : List Char} {piece : Piece}
    (h : lexicon.piece? text = some piece) : lexicon.ReadsFirst text ⟨piece.rule, piece.text⟩ := by
  constructor
  · obtain ⟨rule, hrule, -, n, hfind, htext⟩ := exists_rule_of_piece? h
    exact ⟨rule, n, hrule, hfind, htext, (append_of_firstPiece? h).2⟩
  · rintro s ⟨rule, n, hrule, hfind, htext, hne⟩
    -- were its number smaller, the rule would have been passed over
    by_contra hlt
    refine hne (htext.trans (take_eq_nil_of_piece? (fun piece' hpiece' => ?_) hrule hfind))
    obtain rfl : piece' = piece := Option.some.inj (hpiece'.symm.trans h)
    exact Nat.lt_of_not_le hlt

/-- A text has no more than one first segment. -/
theorem ReadsFirst.unique {text : List Char} {s s' : Segment} (h : lexicon.ReadsFirst text s)
    (h' : lexicon.ReadsFirst text s') : s = s' := by
  have hnumber : s.rule = s'.rule := Nat.le_antisymm (h.2 s' h'.1) (h'.2 s h.1)
  obtain ⟨rule, n, hrule, hfind, htext, -⟩ := h.1
  obtain ⟨rule', n', hrule', hfind', htext', -⟩ := h'.1
  rw [hnumber, hrule'] at hrule
  obtain rfl : rule' = rule := Option.some.inj hrule
  rw [hfind'] at hfind
  obtain rfl : n' = n := Option.some.inj hfind
  cases s
  cases s'
  simp_all

/-- The name of the rule that reads a segment. -/
def nameOf (lexicon : Lexicon) (s : Segment) : String :=
  (lexicon.rules[s.rule]?.map (·.name)).getD ""

/-- **The piece at the start of a text is the segment there.** -/
theorem ReadsFirst.piece?_eq {s : Segment} {rest : List Char}
    (h : lexicon.ReadsFirst (s.text ++ rest) s) :
    lexicon.piece? (s.text ++ rest) = some ⟨s.rule, lexicon.nameOf s, s.text, rest⟩ := by
  match hpiece : lexicon.piece? (s.text ++ rest) with
  | none => exact absurd h.1 (not_ruleReads_of_piece? hpiece s)
  | some piece =>
    obtain rfl : s = ⟨piece.rule, piece.text⟩ := h.unique (readsFirst_of_piece? hpiece)
    obtain ⟨rule, hrule, hname, -⟩ := exists_rule_of_piece? hpiece
    have hrest : piece.rest = rest := List.append_cancel_left (append_of_piece? hpiece)
    rw [nameOf, hrule, Option.map_some, Option.getD_some, ← hname, ← hrest]

/-! ## Segments one after the other -/

/-- **How a text is split** into segments, each of them read by the first rule that reads anything
there, and a rest of which no rule reads anything. -/
inductive Splits (lexicon : Lexicon) : List Char → List Segment → List Char → Prop
  | unread {text : List Char} (h : ∀ s, ¬ lexicon.RuleReads text s) : Splits lexicon text [] text
  | segment {s : Segment} {rest unread : List Char} {segments : List Segment}
      (hs : lexicon.ReadsFirst (s.text ++ rest) s) (h : Splits lexicon rest segments unread) :
      Splits lexicon (s.text ++ rest) (s :: segments) unread

/-- **Every text is split.** -/
theorem exists_splits (lexicon : Lexicon) (text : List Char) :
    ∃ segments unread, lexicon.Splits text segments unread := by
  match h : lexicon.piece? text with
  | none => exact ⟨[], text, .unread (not_ruleReads_of_piece? h)⟩
  | some piece =>
    have hlt := length_rest_lt h
    obtain ⟨segments, unread, hrest⟩ := exists_splits lexicon piece.rest
    have hfirst := readsFirst_of_piece? h
    have happend := append_of_piece? h
    rw [← happend] at hfirst ⊢
    exact ⟨⟨piece.rule, piece.text⟩ :: segments, unread, .segment hfirst hrest⟩
termination_by text.length

namespace Splits

variable {text unread : List Char} {segments : List Segment}

/-- Segments and the unread rest make up the text. -/
theorem append_eq (h : lexicon.Splits text segments unread) :
    segments.flatMap Segment.text ++ unread = text := by
  induction h with
  | unread => rfl
  | segment _ _ ih => rw [List.flatMap_cons, List.append_assoc, ih]

/-- No segment is empty. -/
theorem text_ne_nil (h : lexicon.Splits text segments unread) {s : Segment} (hs : s ∈ segments) :
    s.text ≠ [] := by
  induction h with
  | unread => cases hs
  | segment hfirst _ ih =>
    rcases List.mem_cons.mp hs with rfl | hs
    · obtain ⟨_, _, _, _, _, hne⟩ := hfirst.1
      exact hne
    · exact ih hs

/-- **Each segment is read by the first rule that reads anything** where it begins. -/
theorem readsFirst (h : lexicon.Splits text segments unread) {before after : List Segment}
    {s : Segment} (hs : segments = before ++ s :: after) :
    lexicon.ReadsFirst (s.text ++ (after.flatMap Segment.text ++ unread)) s := by
  induction h generalizing before with
  | unread => simp at hs
  | segment hfirst hrest ih =>
    cases before with
    | nil =>
      obtain ⟨rfl, rfl⟩ := List.cons.inj hs
      rw [hrest.append_eq]
      exact hfirst
    | cons s' before => exact ih (List.cons.inj hs).2

/-- Nothing is read of the unread rest. -/
theorem not_ruleReads (h : lexicon.Splits text segments unread) (s : Segment) :
    ¬ lexicon.RuleReads unread s := by
  induction h with
  | unread h => exact h s
  | segment _ _ ih => exact ih

end Splits

/-! ## The tokens of segments -/

/-- **The line behind some segments**, the first of which begins on line 1. Line feeds count in
white space only. -/
def lineBehind (segments : List Segment) : Nat :=
  1 + lineFeeds ((segments.filter (·.rule == 0)).flatMap Segment.text)

/-- The token of a segment behind some others. White space is no token, and rule `t + 1` reads
terminal `t`. -/
def tokenOf? (lexicon : Lexicon) (before : List Segment) (s : Segment) : Option Token :=
  match s.rule with
  | 0 => none
  | terminal + 1 =>
    some ⟨terminal, lexicon.nameOf s, String.ofList s.text, lineBehind before⟩

/-- The tokens of segments behind some others. -/
def tokensBehind (lexicon : Lexicon) (before : List Segment) : List Segment → List Token
  | [] => []
  | s :: rest => (lexicon.tokenOf? before s).toList ++ lexicon.tokensBehind (before ++ [s]) rest

/-- **The tokens of the segments of a text.** -/
def tokensOf (lexicon : Lexicon) (segments : List Segment) : List Token :=
  lexicon.tokensBehind [] segments

/-- **How a run over segments ends**: with the text, or with an error that shows the first
characters of what is not read. -/
def endOf (segments : List Segment) (unread : List Char) : Scan :=
  if unread = [] then .done (lineBehind segments)
  else .stuck ⟨lineBehind segments, String.ofList (unread.take 50)⟩

@[simp] theorem lineBehind_append (before : List Segment) (s : Segment) :
    lineBehind (before ++ [s]) =
      lineBehind before + if s.rule = 0 then lineFeeds s.text else 0 := by
  by_cases h : s.rule = 0 <;> simp [lineBehind, lineFeeds, h, Nat.add_assoc]

/-! ## Runs over segments -/

/-- What is met first at a place with a piece: what is behind it if it is white space, and otherwise
the piece itself. -/
theorem next_of_piece? {line : Nat} {text : List Char} {piece : Piece}
    (h : lexicon.piece? text = some piece) : lexicon.next line text = match piece.rule with
      | 0 => lexicon.next (line + lineFeeds piece.text) piece.rest
      | terminal + 1 =>
        ⟨.ok (some ⟨terminal, piece.name, String.ofList piece.text, line⟩), line, piece.rest⟩ := by
  cases text with
  | nil =>
    obtain ⟨happend, hne⟩ := append_of_firstPiece? h
    exact absurd (List.append_eq_nil_iff.mp happend).1 hne
  | cons c l =>
    rw [next]
    split
    · simp_all
    · rename_i piece' hpiece'
      obtain rfl : piece = piece' := Option.some.inj (h.symm.trans hpiece')
      rfl

/-- Where nothing is read a run ends. -/
theorem next_of_not_ruleReads {text : List Char} (h : ∀ s, ¬ lexicon.RuleReads text s)
    (segments : List Segment) : lexicon.next (lineBehind segments) text =
      ⟨(endOf segments text).peek, lineBehind segments, text⟩ := by
  cases text with
  | nil => rw [next]; rfl
  | cons c l =>
    rw [next]
    split
    · rfl
    · rename_i piece hpiece
      exact absurd (readsFirst_of_piece? hpiece).1 (h _)

section

variable {before : List Segment} {s : Segment} {rest : List Char}

/-- White space is passed, and its line feeds are counted. -/
theorem ReadsFirst.next_gap (h : lexicon.ReadsFirst (s.text ++ rest) s)
    (hs : lexicon.tokenOf? before s = none) :
    lexicon.next (lineBehind before) (s.text ++ rest) =
      lexicon.next (lineBehind (before ++ [s])) rest := by
  rw [next_of_piece? h.piece?_eq, lineBehind_append]
  unfold tokenOf? at hs
  split at hs
  · rename_i hrule
    simp [hrule]
  · cases hs

/-- A segment that is no white space is met as a token. -/
theorem ReadsFirst.next_token (h : lexicon.ReadsFirst (s.text ++ rest) s) {t : Token}
    (ht : lexicon.tokenOf? before s = some t) :
    lexicon.next (lineBehind before) (s.text ++ rest) =
      ⟨.ok (some t), lineBehind (before ++ [s]), rest⟩ := by
  rw [next_of_piece? h.piece?_eq, lineBehind_append]
  unfold tokenOf? at ht
  split at ht
  · cases ht
  · rename_i terminal hrule
    cases ht
    simp [hrule]

end

/-- A scan depends on what is met first only. -/
theorem scanFrom_congr {line line' : Nat} {text text' : List Char}
    (h : lexicon.next line text = lexicon.next line' text') :
    lexicon.scanFrom line text = lexicon.scanFrom line' text' := by
  match hitem : (lexicon.next line' text').item with
  | .error e => rw [scanFrom_of_error hitem, scanFrom_of_error (h ▸ hitem)]
  | .ok none => rw [scanFrom_of_end hitem, scanFrom_of_end (h ▸ hitem), h]
  | .ok (some t) => rw [scanFrom_of_token hitem, scanFrom_of_token (h ▸ hitem), h]

/-- **The scan of a text consists of the tokens of its segments.** -/
theorem Splits.scanFrom_eq {text unread : List Char} {segments : List Segment}
    (h : lexicon.Splits text segments unread) (before : List Segment) :
    lexicon.scanFrom (lineBehind before) text =
      Scan.prepend (lexicon.tokensBehind before segments) (endOf (before ++ segments) unread) := by
  induction h generalizing before with
  | @unread text h =>
    have hnext := next_of_not_ruleReads h before
    rw [List.append_nil, tokensBehind, Scan.prepend]
    by_cases hnil : text = []
    · rw [endOf, if_pos hnil] at hnext ⊢
      rw [scanFrom_of_end (by rw [hnext]; rfl), hnext]
    · rw [endOf, if_neg hnil] at hnext ⊢
      exact scanFrom_of_error (by rw [hnext]; rfl)
  | @segment s rest unread segments hfirst _ ih =>
    have hrest := ih (before ++ [s])
    rw [List.append_assoc, List.singleton_append] at hrest
    rw [tokensBehind, Scan.prepend_append, ← hrest]
    match htoken : lexicon.tokenOf? before s with
    | none => exact scanFrom_congr (hfirst.next_gap htoken)
    | some t =>
      have hnext := hfirst.next_token htoken
      rw [scanFrom_of_token (by rw [hnext]), hnext]
      rfl

end Lexicon

namespace TokenStream

variable {lexicon : Lexicon} {q : Query}

/-- The answer to a question that wants the next token. -/
def Query.answer (item : Except ScanError (Option Token)) : Query → Answer
  | .advance => .step (.ofItem item)
  | _ => .item item

/-- Whether a question marks a failure. -/
def Query.marks (item : Except ScanError (Option Token)) : Query → Bool
  | .advance => item.toOption.isNone
  | _ => false

/-- **A question that takes the next token** moves the cursor behind what is met first. -/
theorem ask_of_next (hq : q = .take ∨ q = .advance) (line : Nat) (text : List Char) :
    ask ⟨lexicon, text, line, none, false⟩ q =
      (q.answer (lexicon.next line text).item, ⟨lexicon, (lexicon.next line text).rest,
        (lexicon.next line text).line, none, q.marks (lexicon.next line text).item⟩) := by
  rcases hq with rfl | rfl
  · rw [ask, Prod.map, take_fst, take_snd]
    rfl
  · rw [ask, Prod.map, advance_fst rfl, advance_snd rfl, take_fst, take_snd]
    rfl

/-- A stream whose cursor stands behind some segments. -/
def behind (lexicon : Lexicon) (before : List Segment) (text : List Char) : TokenStream :=
  ⟨lexicon, text, Lexicon.lineBehind before, none, false⟩

section

variable {before : List Segment} {s : Segment} {rest : List Char}

/-- It makes no difference whether the cursor stands before white space or behind it. -/
theorem ask_behind_gap (hq : q = .take ∨ q = .advance)
    (h : lexicon.ReadsFirst (s.text ++ rest) s) (hs : lexicon.tokenOf? before s = none) :
    (behind lexicon before (s.text ++ rest)).ask q =
      (behind lexicon (before ++ [s]) rest).ask q := by
  rw [behind, behind, ask_of_next hq, ask_of_next hq, h.next_gap hs]

/-- A token is taken, and the cursor stands behind its segment. -/
theorem ask_behind_token (hq : q = .take ∨ q = .advance)
    (h : lexicon.ReadsFirst (s.text ++ rest) s) {t : Token}
    (ht : lexicon.tokenOf? before s = some t) :
    (behind lexicon before (s.text ++ rest)).ask q =
      (q.answer (.ok (some t)), behind lexicon (before ++ [s]) rest) := by
  rw [behind, ask_of_next hq, h.next_token ht]
  rcases hq with rfl | rfl <;> rfl

/-- Where nothing is read the run is over, and the cursor stays. -/
theorem ask_behind_unread (hq : q = .take ∨ q = .advance)
    (h : ∀ s, ¬ lexicon.RuleReads rest s) :
    (behind lexicon before rest).ask q = (q.answer (Lexicon.endOf before rest).peek,
      { behind lexicon before rest with failed := q.marks (Lexicon.endOf before rest).peek }) := by
  rw [behind, ask_of_next hq, Lexicon.next_of_not_ruleReads h]

end

/-- The answers of a run: tokens, and how it ends. -/
def answersOf (q : Query) (tokens : List Token) (ending : Scan) : List Answer :=
  ((tokens.map fun t => Except.ok (some t)) ++ [ending.peek]).map q.answer

/-- **A run over segments** yields their tokens and how they end, and it leaves the unread rest. -/
theorem run_of_splits {text unread : List Char} {segments : List Segment}
    (hq : q = .take ∨ q = .advance) (h : lexicon.Splits text segments unread)
    (before : List Segment) :
    let tokens := lexicon.tokensBehind before segments
    let ending := Lexicon.endOf (before ++ segments) unread
    let run := List.replicate (tokens.length + 1) q
    (behind lexicon before text).askAll run = answersOf q tokens ending ∧
      (behind lexicon before text).after run =
        { behind lexicon (before ++ segments) unread with failed := q.marks ending.peek } := by
  induction h generalizing before with
  | @unread text h =>
    have hask : (behind lexicon before text).ask q = _ := ask_behind_unread hq h
    rw [List.append_nil, Lexicon.tokensBehind]
    show [((behind lexicon before text).ask q).1] = _ ∧ ((behind lexicon before text).ask q).2 = _
    rw [hask]
    exact ⟨rfl, rfl⟩
  | @segment s rest unread segments hfirst _ ih =>
    have hrest := ih (before ++ [s])
    rw [List.append_assoc, List.singleton_append] at hrest
    rw [Lexicon.tokensBehind]
    match htoken : lexicon.tokenOf? before s with
    | none =>
      intro tokens ending run
      simp only [run, List.replicate_succ, askAll, after, ask_behind_gap hq hfirst htoken]
      exact hrest
    | some t =>
      intro tokens ending run
      simp only [run, List.replicate_succ, askAll, after, ask_behind_token hq hfirst htoken]
      exact ⟨congrArg (q.answer (.ok (some t)) :: ·) hrest.1, hrest.2⟩

/-- **A run splits the text** into segments that are not empty, one after the other, and an unread
rest. Each segment is read, where it begins, by the first of all rules that read at least one
character there, and nothing is read of the rest. The tokens of the scan are those of the segments
that are no white space, each with the number of its rule less one and with the line that the line
feeds in the white space before it add up to; the scan ends with the text if the rest is empty, and
with an error that shows the first characters of the rest if it is not.

A cursor that takes or advances once for each token and once more answers with just these tokens and
this ending. It stops before the unread rest, on the line behind all segments. What the patterns of
the rules find is left open: each finds some first part of the text, or nothing. -/
theorem run_splits (lexicon : Lexicon) (text : List Char) : ∃ segments unread,
    segments.flatMap Segment.text ++ unread = text ∧
    (∀ s ∈ segments, s.text ≠ []) ∧
    (∀ before s after, segments = before ++ s :: after →
      lexicon.ReadsFirst (s.text ++ (after.flatMap Segment.text ++ unread)) s) ∧
    (∀ s, ¬ lexicon.RuleReads unread s) ∧
    let tokens := lexicon.tokensOf segments
    let ending := Lexicon.endOf segments unread
    lexicon.scan text = Scan.prepend tokens ending ∧
    ∀ q, q = .take ∨ q = .advance →
      let run := List.replicate (tokens.length + 1) q
      (ofText lexicon text).askAll run = answersOf q tokens ending ∧
      ((ofText lexicon text).after run).rest = unread ∧
      ((ofText lexicon text).after run).line = Lexicon.lineBehind segments := by
  obtain ⟨segments, unread, h⟩ := lexicon.exists_splits text
  refine ⟨segments, unread, h.append_eq, fun s hs => h.text_ne_nil hs,
    fun before s after hs => h.readsFirst hs, h.not_ruleReads, h.scanFrom_eq [], ?_⟩
  intro q hq run
  obtain ⟨hanswers, hafter⟩ := run_of_splits hq h []
  refine ⟨hanswers, ?_, ?_⟩
  · exact congrArg TokenStream.rest hafter
  · exact congrArg TokenStream.line hafter

end TokenStream

end PredictiveParsing
