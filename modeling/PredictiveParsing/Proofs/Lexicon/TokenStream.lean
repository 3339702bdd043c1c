import PredictiveParsing.Lexicon.TokenStream
import PredictiveParsing.Proofs.Grammar.SyntaxTree
import PredictiveParsing.Proofs.Lexicon.Scan

/-!
# Token streams are cursors on scans

What a token stream has ahead of it is a scan: the token that was looked at, if there is one, and
the scan of the text behind the cursor. A question changes the scan ahead only by the token that
it takes, so the answers to any questions are read off the one scan of the whole text. White space
is passed whenever the next token is wanted, and this moves the line and the rest even where no
token follows; asking again from there meets the same end or the same failure.

## Main definitions

* `Scan.item`: the items of a scan, of which the last one is repeated for ever
* `TokenStream.ahead`: the scan that a stream has ahead of it
* `TokenStream.after`: the stream after several questions
* `TokenStream.History`: what questions and their answers amount to so far
* `TokenStream.Tracks`: a history tells where a stream stands
* `TokenStream.Answers`: the answers of a faithful cursor

## Main results

* `TokenStream.ahead_peek`, `TokenStream.ahead_take`: only taking a token changes what is ahead
* `TokenStream.Tracks.ask`, `TokenStream.Tracks.after`: what one question and any questions
  preserve
* `TokenStream.isCursor`: whatever is asked, a stream is a faithful cursor on the scan of its text
-/

namespace PredictiveParsing

/-! ## Items of a scan -/

namespace Scan

/-- **The items of a scan**: its tokens in order, and then again and again the end of the text or
the error. -/
def item : Scan → Nat → Except ScanError (Option Token)
  | token t _, 0 => .ok (some t)
  | token _ rest, i + 1 => rest.item i
  | done _, _ => .ok none
  | stuck e, _ => .error e

theorem item_zero (s : Scan) : s.item 0 = s.peek := by
  cases s <;> rfl

theorem item_prepend (tokens : List Token) (s : Scan) :
    (prepend tokens s).item tokens.length = s.peek := by
  induction tokens with
  | nil => exact item_zero s
  | cons t tokens ih => exact ih

theorem item_of_length_le {s : Scan} {i : Nat} (h : s.length ≤ i) : s.item i = s.item s.length := by
  induction s generalizing i with
  | token t rest ih =>
    cases i with
    | zero => simp [length] at h
    | succ i => exact ih (Nat.le_of_succ_le_succ h)
  | done line => rfl
  | stuck e => rfl

theorem eq_stuck_of_peek {s : Scan} {e : ScanError} (h : s.peek = .error e) : s = .stuck e := by
  cases s with
  | token t rest => cases h
  | done line => cases h
  | stuck e' => cases h; rfl

/-- Nothing can be taken off a scan that is stuck. -/
theorem eq_stuck_of_prepend {tokens : List Token} {s : Scan} {e : ScanError}
    (h : prepend tokens s = .stuck e) : s = .stuck e := by
  cases tokens with
  | nil => exact h
  | cons t tokens => cases h

end Scan

/-- The characters of a token, if there is one. -/
def charsOf (t : Option Token) : List Char := t.elim [] fun t => t.text.toList

/-! ## White space -/

namespace Lexicon

variable {lexicon : Lexicon}

/-- **The white space at the start of a text**: the pieces of rule 0 there. -/
def gap (lexicon : Lexicon) (text : List Char) : List Char :=
  match text with
  | [] => []
  | c :: l =>
    match _h : lexicon.piece? (c :: l) with
    | none => []
    | some piece =>
      match piece.rule with
      | 0 => piece.text ++ gap lexicon piece.rest
      | _ + 1 => []
termination_by text.length
decreasing_by exact length_rest_lt _h

/-- White space, the token behind it and the text behind the token make up the text. -/
theorem gap_append_next (lexicon : Lexicon) (line : Nat) (text : List Char) :
    lexicon.gap text ++ charsOf (lexicon.next line text).item.toOption.join ++
      (lexicon.next line text).rest = text := by
  -- The gap and the token are looked for along the same pieces.
  fun_induction next lexicon line text with
  | case1 line => rw [gap]; rfl
  | case2 line c l hpiece =>
    rw [gap]
    split
    · rfl
    · simp_all
  | case3 line c l piece hpiece hrule ih =>
    rw [gap]
    split
    · simp_all
    · rename_i piece' hpiece'
      obtain rfl : piece = piece' := by simpa [hpiece] using hpiece'
      rw [hrule]
      show piece.text ++ lexicon.gap piece.rest ++ _ ++ _ = _
      rw [List.append_assoc piece.text, List.append_assoc piece.text, ih]
      exact append_of_piece? hpiece
  | case4 line c l piece hpiece terminal hrule =>
    rw [gap]
    split
    · simp_all
    · rename_i piece' hpiece'
      obtain rfl : piece = piece' := by simpa [hpiece] using hpiece'
      rw [hrule]
      show (String.ofList piece.text).toList ++ piece.rest = _
      rw [String.toList_ofList]
      exact append_of_piece? hpiece

/-- Where no token was met, looking again from the place that was reached meets the same. -/
theorem next_next (line : Nat) (text : List Char)
    (h : (lexicon.next line text).item.toOption.join = none) :
    lexicon.next (lexicon.next line text).line (lexicon.next line text).rest =
      lexicon.next line text := by
  fun_induction next lexicon line text with
  | case1 line => rw [next]
  | case2 line c l hpiece =>
    rw [next]
    split
    · rfl
    · simp_all
  | case3 line c l piece hpiece hrule ih => exact ih h
  | case4 line c l piece hpiece terminal hrule => cases h

section

variable {line : Nat} {text : List Char}

theorem scanFrom_of_error {e : ScanError} (h : (lexicon.next line text).item = .error e) :
    lexicon.scanFrom line text = .stuck e := by
  rw [scanFrom]
  split <;> simp_all

theorem scanFrom_of_end (h : (lexicon.next line text).item = .ok none) :
    lexicon.scanFrom line text = .done (lexicon.next line text).line := by
  rw [scanFrom]
  split <;> simp_all

theorem scanFrom_of_token {t : Token} (h : (lexicon.next line text).item = .ok (some t)) :
    lexicon.scanFrom line text = .token t
      (lexicon.scanFrom (lexicon.next line text).line (lexicon.next line text).rest) := by
  rw [scanFrom]
  split <;> simp_all

/-- The first item of a scan is what is met first. -/
theorem peek_scanFrom (lexicon : Lexicon) (line : Nat) (text : List Char) :
    (lexicon.scanFrom line text).peek = (lexicon.next line text).item := by
  match h : (lexicon.next line text).item with
  | .error e => rw [scanFrom_of_error h]; rfl
  | .ok none => rw [scanFrom_of_end h]; rfl
  | .ok (some t) => rw [scanFrom_of_token h]; rfl

/-- A scan is what is met first, and the scan from there. -/
theorem scanFrom_eq_prepend (lexicon : Lexicon) (line : Nat) (text : List Char) :
    lexicon.scanFrom line text =
      Scan.prepend (lexicon.next line text).item.toOption.join.toList
        (lexicon.scanFrom (lexicon.next line text).line (lexicon.next line text).rest) := by
  match h : (lexicon.next line text).item with
  | .ok (some t) => exact scanFrom_of_token h
  | .ok none =>
    have hagain := next_next line text (by rw [h]; rfl)
    show _ = lexicon.scanFrom _ _
    rw [scanFrom_of_end h, scanFrom_of_end (by rw [hagain]; exact h), hagain]
  | .error e =>
    have hagain := next_next line text (by rw [h]; rfl)
    show _ = lexicon.scanFrom _ _
    rw [scanFrom_of_error h, scanFrom_of_error (by rw [hagain]; exact h)]

end

end Lexicon

/-! ## What a stream has ahead of it -/

namespace TokenStream

variable {s : TokenStream} {q : Query}

/-- **The scan ahead of a stream**: the token that was looked at, and the scan behind the
cursor. -/
def ahead (s : TokenStream) : Scan :=
  Scan.prepend s.lookahead.toList (s.lexicon.scanFrom s.line s.rest)

/-- The text that is not taken yet: the token that was looked at, and the text behind the
cursor. -/
def unread (s : TokenStream) : List Char := charsOf s.lookahead ++ s.rest

/-- The white space that is passed when the next token is wanted. -/
def gapAhead (s : TokenStream) : List Char :=
  match s.lookahead with
  | none => s.lexicon.gap s.rest
  | some _ => []

/-- **The white space that a question passes.** Only a wanted token makes the cursor move. -/
def skipped (s : TokenStream) : Query → List Char
  | .peek => s.gapAhead
  | .take => s.gapAhead
  | .advance => if s.failed then [] else s.gapAhead
  | .line => []
  | .remaining => []

/-- The stream after questions that are asked one after the other. -/
def after (s : TokenStream) : List Query → TokenStream
  | [] => s
  | q :: queries => (s.ask q).2.after queries

theorem askAll_append (s : TokenStream) (queries more : List Query) :
    s.askAll (queries ++ more) = s.askAll queries ++ (s.after queries).askAll more := by
  induction queries generalizing s with
  | nil => rfl
  | cons q queries ih => exact congrArg ((s.ask q).1 :: ·) (ih (s.ask q).2)

/-! ### Looking at the next token -/

/-- A look shows the first item ahead. -/
theorem peek_fst (s : TokenStream) : s.peek.1 = s.ahead.peek := by
  rcases s with ⟨lexicon, rest, line, _ | t, failed⟩
  · exact (Lexicon.peek_scanFrom lexicon line rest).symm
  · rfl

theorem lookahead_peek (s : TokenStream) : s.peek.2.lookahead = s.peek.1.toOption.join := by
  rcases s with ⟨lexicon, rest, line, _ | t, failed⟩ <;> rfl

theorem failed_peek (s : TokenStream) : s.peek.2.failed = s.failed := by
  rcases s with ⟨lexicon, rest, line, _ | t, failed⟩ <;> rfl

/-- **A look changes nothing ahead.** -/
theorem ahead_peek (s : TokenStream) : s.peek.2.ahead = s.ahead := by
  rcases s with ⟨lexicon, rest, line, _ | t, failed⟩
  · exact (Lexicon.scanFrom_eq_prepend lexicon line rest).symm
  · rfl

/-- A look leaves white space behind. -/
theorem unread_peek (s : TokenStream) : s.unread = s.gapAhead ++ s.peek.2.unread := by
  rcases s with ⟨lexicon, rest, line, _ | t, failed⟩
  · show rest = lexicon.gap rest ++ (_ ++ _)
    rw [← List.append_assoc]
    exact (Lexicon.gap_append_next lexicon line rest).symm
  · rfl

/-! ### Taking the next token -/

theorem take_fst (s : TokenStream) : s.take.1 = s.peek.1 := by
  rw [take]
  split <;> rename_i h <;> rw [h]

/-- A token is taken by looking at it and forgetting that. -/
theorem take_snd (s : TokenStream) : s.take.2 = { s.peek.2 with lookahead := none } := by
  have hlookahead := s.lookahead_peek
  rw [take]
  split <;> rename_i h <;> rw [h] at hlookahead ⊢
  rename_i e s'
  rcases s' with ⟨lexicon, rest, line, lookahead, failed⟩
  cases hlookahead
  rfl

/-- **Taking leaves all but the token ahead.** -/
theorem ahead_take (s : TokenStream) :
    s.ahead = Scan.prepend s.take.1.toOption.join.toList s.take.2.ahead := by
  rw [take_fst, take_snd, ← lookahead_peek, ← ahead_peek]
  rfl

theorem unread_take (s : TokenStream) :
    s.unread = s.gapAhead ++ charsOf s.take.1.toOption.join ++ s.take.2.unread := by
  rw [take_fst, take_snd, ← lookahead_peek, unread_peek, List.append_assoc]
  rfl

/-! ### Iterating -/

/-- What an iteration yields for an item. -/
def Step.ofItem : Except ScanError (Option Token) → Step
  | .ok (some t) => .token t
  | .ok none => .over
  | .error e => .failure e

/-- The token of a step. -/
def Step.token? : Step → Option Token
  | .token t => some t
  | .failure _ => none
  | .over => none

/-- Whether a step is a failure. -/
def Step.isFailure : Step → Bool
  | .token _ => false
  | .failure _ => true
  | .over => false

@[simp] theorem Step.token?_ofItem (item : Except ScanError (Option Token)) :
    (ofItem item).token? = item.toOption.join := by
  rcases item with e | _ | t <;> rfl

@[simp] theorem Step.isFailure_ofItem (item : Except ScanError (Option Token)) :
    (ofItem item).isFailure = item.toOption.isNone := by
  rcases item with e | _ | t <;> rfl

theorem advance_of_failed (h : s.failed = true) : s.advance = (.over, s) := if_pos h

/-- An iteration that has not met a failure takes the next token. -/
theorem advance_fst (h : s.failed = false) : s.advance.1 = .ofItem s.take.1 := by
  rw [advance, if_neg (by simp [h])]
  split <;> rename_i htake <;> rw [htake] <;> rfl

theorem advance_snd (h : s.failed = false) :
    s.advance.2 = { s.take.2 with failed := s.take.2.failed || s.take.1.toOption.isNone } := by
  rw [advance, if_neg (by simp [h])]
  split <;> rename_i htake <;> rw [htake] <;> simp [Except.toOption]

/-! ## What was asked so far -/

/-- **What questions and their answers amount to so far.** -/
structure History where
  /-- The tokens that were taken, in order. -/
  taken : List Token
  /-- The white space that was passed and the tokens that were taken, in order. -/
  past : List Char
  /-- The token that was looked at and not taken. -/
  looked : Option Token
  /-- Whether an iteration yielded a failure. -/
  failed : Bool

/-- Nothing was asked. -/
def History.start : History := ⟨[], [], none, false⟩

/-- **One more question and its answer**, and the white space that was passed. -/
def History.record (h : History) (skipped : List Char) : Query → Answer → History
  | .peek, .item item =>
    { h with past := h.past ++ skipped, looked := item.toOption.join }
  | .take, .item item =>
    { h with
      taken := h.taken ++ item.toOption.join.toList
      past := h.past ++ skipped ++ charsOf item.toOption.join
      looked := none }
  | .advance, .step step =>
    { taken := h.taken ++ step.token?.toList
      past := h.past ++ skipped ++ charsOf step.token?
      looked := none
      failed := h.failed || step.isFailure }
  | _, _ => h

/-- The history of a stream after questions that are asked one after the other. -/
def historyFrom (s : TokenStream) (h : History) : List Query → History
  | [] => h
  | q :: queries => (s.ask q).2.historyFrom (h.record (s.skipped q) q (s.ask q).1) queries

/-- **What only grows**: tokens that were taken stay taken, and a failure is not forgotten. -/
def History.Grows (h h' : History) : Prop :=
  h.taken <+: h'.taken ∧ (h.failed = true → h'.failed = true)

theorem History.grows_record (h : History) (skipped : List Char) (q : Query) (answer : Answer) :
    h.Grows (h.record skipped q answer) := by
  unfold record
  split
  · exact ⟨List.prefix_rfl, id⟩
  · exact ⟨List.prefix_append _ _, id⟩
  · exact ⟨List.prefix_append _ _, fun hfailed => by simp [hfailed]⟩
  · exact ⟨List.prefix_rfl, id⟩

theorem grows_historyFrom (s : TokenStream) (h : History) (queries : List Query) :
    h.Grows (s.historyFrom h queries) := by
  induction queries generalizing s h with
  | nil => exact ⟨List.prefix_rfl, id⟩
  | cons q queries ih =>
    obtain ⟨htaken, hfailed⟩ := h.grows_record (s.skipped q) q (s.ask q).1
    obtain ⟨htaken', hfailed'⟩ := ih (s.ask q).2 (h.record (s.skipped q) q (s.ask q).1)
    exact ⟨htaken.trans htaken', hfailed' ∘ hfailed⟩

variable {items : Scan} {text : List Char} {h : History}

/-- Once all tokens are taken, the item to come stays the same. -/
theorem item_historyFrom (s : TokenStream) (hend : items.length ≤ h.taken.length)
    (queries : List Query) :
    items.item (s.historyFrom h queries).taken.length = items.item h.taken.length := by
  have hgrown := (grows_historyFrom s h queries).1.length_le
  rw [Scan.item_of_length_le hend, Scan.item_of_length_le (Nat.le_trans hend hgrown)]

/-- **A history tells where a stream stands** in the items of a text. -/
structure Tracks (items : Scan) (text : List Char) (h : History) (s : TokenStream) : Prop where
  /-- The tokens that were taken are the items before those ahead. -/
  items_eq : items = Scan.prepend h.taken s.ahead
  /-- What was left behind and what is not taken yet make up the text. -/
  text_eq : h.past ++ s.unread = text
  /-- The token that was looked at is kept. -/
  looked_eq : h.looked = s.lookahead
  /-- A failure of an iteration is kept in mind. -/
  failed_eq : h.failed = s.failed
  /-- The cursor is on the line of the token that was looked at. -/
  line_eq : ∀ t, s.lookahead = some t → t.line = s.line
  /-- After a failure nothing but the error is ahead. -/
  stuck : s.failed = true → ∃ e, s.ahead = .stuck e

theorem Tracks.ofText (lexicon : Lexicon) (text : List Char) :
    Tracks (lexicon.scan text) text .start (ofText lexicon text) where
  items_eq := rfl
  text_eq := rfl
  looked_eq := rfl
  failed_eq := rfl
  line_eq _ h := nomatch h
  stuck h := nomatch h

/-- The line of the cursor after a look is that of the token that is shown. -/
theorem line_peek (hline : ∀ t, s.lookahead = some t → t.line = s.line) {t : Token}
    (h : s.peek.2.lookahead = some t) : t.line = s.peek.2.line := by
  rcases s with ⟨lexicon, rest, line, _ | t', failed⟩
  · have hnext := Lexicon.line_of_next lexicon line rest
    replace h : (lexicon.next line rest).item.toOption.join = some t := h
    split at hnext <;> rename_i hitem <;> rw [hitem] at h <;> cases h
    exact hnext
  · exact hline t h

namespace Tracks

theorem peek (ht : Tracks items text h s) :
    Tracks items text (h.record s.gapAhead .peek (.item s.peek.1)) s.peek.2 where
  items_eq := by rw [ahead_peek]; exact ht.items_eq
  text_eq := by
    show h.past ++ s.gapAhead ++ s.peek.2.unread = text
    rw [List.append_assoc, ← unread_peek]
    exact ht.text_eq
  looked_eq := s.lookahead_peek.symm
  failed_eq := ht.failed_eq.trans s.failed_peek.symm
  line_eq _ hlooked := line_peek ht.line_eq hlooked
  stuck hfailed := by
    rw [ahead_peek]
    exact ht.stuck (s.failed_peek.symm.trans hfailed)

theorem take (ht : Tracks items text h s) :
    Tracks items text (h.record s.gapAhead .take (.item s.take.1)) s.take.2 where
  items_eq := by
    show items = Scan.prepend (h.taken ++ s.take.1.toOption.join.toList) _
    rw [Scan.prepend_append, ← ahead_take]
    exact ht.items_eq
  text_eq := by
    show h.past ++ s.gapAhead ++ charsOf s.take.1.toOption.join ++ s.take.2.unread = text
    rw [List.append_assoc, List.append_assoc, ← List.append_assoc s.gapAhead, ← unread_take]
    exact ht.text_eq
  looked_eq := by rw [take_snd]; rfl
  failed_eq := by
    rw [take_snd]
    exact ht.failed_eq.trans s.failed_peek.symm
  line_eq t hlooked := by
    rw [take_snd] at hlooked
    cases hlooked
  stuck hfailed := by
    rw [take_snd] at hfailed
    obtain ⟨e, he⟩ := ht.stuck (s.failed_peek.symm.trans hfailed)
    rw [ahead_take] at he
    exact ⟨e, Scan.eq_stuck_of_prepend he⟩

/-- An iteration that met no failure yet takes the next token, or meets a failure now. -/
theorem advance (ht : Tracks items text h s) (hfailed : s.failed = false) :
    Tracks items text (h.record s.gapAhead .advance (.step s.advance.1)) s.advance.2 := by
  rw [advance_fst hfailed, advance_snd hfailed, History.record, Step.token?_ofItem,
    Step.isFailure_ofItem]
  have htake := ht.take
  refine ⟨htake.items_eq, htake.text_eq, htake.looked_eq, ?_, htake.line_eq, ?_⟩
  · exact congrArg (· || s.take.1.toOption.isNone) htake.failed_eq
  · intro hmark
    rcases (Bool.or_eq_true _ _).mp hmark with hmark | hmark
    · exact htake.stuck hmark
    · match hitem : s.take.1 with
      | .ok t => rw [hitem] at hmark; cases hmark
      | .error e =>
        rw [take_fst, peek_fst] at hitem
        have hstuck := Scan.eq_stuck_of_peek hitem
        rw [ahead_take] at hstuck
        exact ⟨e, Scan.eq_stuck_of_prepend hstuck⟩

/-- An iteration that met a failure changes nothing. -/
theorem advance_over (ht : Tracks items text h s) (hfailed : s.failed = true) :
    h.record [] .advance (.step .over) = h := by
  obtain ⟨e, he⟩ := ht.stuck hfailed
  have hlooked : h.looked = none := by
    rw [ht.looked_eq]
    match hlook : s.lookahead with
    | none => rfl
    | some t => rw [ahead, hlook] at he; cases he
  rcases h with ⟨taken, past, looked, failed⟩
  cases hlooked
  simp [History.record, Step.token?, Step.isFailure, charsOf]

/-- **What one question preserves.** -/
theorem ask (ht : Tracks items text h s) (q : Query) :
    Tracks items text (h.record (s.skipped q) q (s.ask q).1) (s.ask q).2 := by
  cases q with
  | peek => exact ht.peek
  | take => exact ht.take
  | advance =>
    by_cases hfailed : s.failed = true
    · rw [skipped, if_pos hfailed, TokenStream.ask, advance_of_failed hfailed]
      show Tracks items text (h.record [] .advance (.step .over)) s
      rw [ht.advance_over hfailed]
      exact ht
    · rw [skipped, if_neg hfailed]
      exact ht.advance (by simpa using hfailed)
  | line => exact ht
  | remaining => exact ht

/-- **What any questions preserve.** -/
theorem after (ht : Tracks items text h s) (queries : List Query) :
    Tracks items text (s.historyFrom h queries) (s.after queries) := by
  induction queries generalizing s h with
  | nil => exact ht
  | cons q queries ih => exact ih (ht.ask q)

/-! ## What the answers are -/

theorem item_eq (ht : Tracks items text h s) : items.item h.taken.length = s.ahead.peek := by
  rw [ht.items_eq, Scan.item_prepend]

theorem ask_peek (ht : Tracks items text h s) :
    (s.ask .peek).1 = .item (items.item h.taken.length) := by
  show Answer.item s.peek.1 = _
  rw [peek_fst, ht.item_eq]

theorem ask_take (ht : Tracks items text h s) :
    (s.ask .take).1 = .item (items.item h.taken.length) := by
  show Answer.item s.take.1 = _
  rw [take_fst, peek_fst, ht.item_eq]

theorem ask_advance (ht : Tracks items text h s) :
    (s.ask .advance).1 =
      .step (if h.failed then .over else .ofItem (items.item h.taken.length)) := by
  show Answer.step s.advance.1 = _
  rw [ht.failed_eq]
  by_cases hfailed : s.failed = true
  · rw [advance_of_failed hfailed, if_pos hfailed]
  · rw [advance_fst (by simpa using hfailed), if_neg hfailed, take_fst, peek_fst, ht.item_eq]

/-- A failure that an iteration yields is its last step. -/
theorem ask_advance_after (ht : Tracks items text h s) {e : ScanError}
    (hfailure : (s.ask .advance).1 = .step (.failure e)) (queries : List Query) :
    ((s.after (.advance :: queries)).ask .advance).1 = .step .over := by
  have hfailed : (h.record (s.skipped .advance) .advance (s.ask .advance).1).failed = true := by
    rw [hfailure]
    exact Bool.or_true h.failed
  have hkept := (grows_historyFrom (s.ask .advance).2 _ queries).2 hfailed
  rw [(ht.after (.advance :: queries)).ask_advance, historyFrom, hkept]
  rfl

end Tracks

/-- **The answers of a faithful cursor** on the items of a text, after a history of questions. -/
structure Answers (items : Scan) (text : List Char) (h : History) (s : TokenStream) : Prop where
  /-- The tokens that were taken are the first items. -/
  taken : h.taken <+: items.tokens
  /-- A look shows the item behind them. -/
  peek : (s.ask .peek).1 = .item (items.item h.taken.length)
  /-- This item is the next one to be taken. -/
  take : (s.ask .take).1 = .item (items.item h.taken.length)
  /-- A look before makes no difference. -/
  take_peek : ((s.ask .peek).2.ask .take).1 = .item (items.item h.taken.length)
  /-- An iteration takes this item, too, if it is not over by a failure. -/
  advance : (s.ask .advance).1 =
    .step (if h.failed then .over else .ofItem (items.item h.taken.length))
  /-- A token that was looked at is this item, and its line is the one that is told. -/
  line : ∀ t, h.looked = some t →
    items.item h.taken.length = .ok (some t) ∧ (s.ask .line).1 = .line t.line
  /-- Nothing of the text gets lost. -/
  remaining : ∃ rest, (s.ask .remaining).1 = .text (String.ofList rest) ∧
    h.past ++ charsOf h.looked ++ rest = text

theorem Tracks.answers (ht : Tracks items text h s) : Answers items text h s where
  taken := by
    rw [ht.items_eq, Scan.tokens_prepend]
    exact List.prefix_append _ _
  peek := ht.ask_peek
  take := ht.ask_take
  take_peek := ht.peek.ask_take
  advance := ht.ask_advance
  line t hlooked := by
    rw [ht.looked_eq] at hlooked
    refine ⟨?_, congrArg Answer.line (ht.line_eq t hlooked).symm⟩
    rw [ht.item_eq, ahead, hlooked]
    rfl
  remaining := by
    refine ⟨s.rest, rfl, ?_⟩
    rw [ht.looked_eq, List.append_assoc]
    exact ht.text_eq

/-- **A stream is a faithful cursor**, whatever is asked in which order. There is one list of
items, the scan of the text, that all answers are read off. Once its end is reached, looks and
takes keep giving the end or the error; and an iteration yields an error at most once. -/
theorem isCursor (lexicon : Lexicon) (text : List Char) (queries : List Query) :
    let items := lexicon.scan text
    let start := ofText lexicon text
    let s := start.after queries
    let h := start.historyFrom .start queries
    (∀ q, start.askAll (queries ++ [q]) = start.askAll queries ++ [(s.ask q).1]) ∧
    Answers items text h s ∧
    (items.length ≤ h.taken.length → ∀ more,
      ((s.after more).ask .peek).1 = (s.ask .peek).1 ∧
      ((s.after more).ask .take).1 = (s.ask .take).1) ∧
    (∀ e, (s.ask .advance).1 = .step (.failure e) → ∀ more,
      ((s.after (.advance :: more)).ask .advance).1 = .step .over) := by
  intro items start s h
  have ht : Tracks items text h s := (Tracks.ofText lexicon text).after queries
  refine ⟨fun q => start.askAll_append queries [q], ht.answers, ?_, ?_⟩
  · intro hend more
    have hafter := ht.after more
    rw [hafter.ask_peek, hafter.ask_take, item_historyFrom s hend more]
    exact ⟨ht.ask_peek.symm, ht.ask_take.symm⟩
  · intro e hfailure more
    exact ht.ask_advance_after hfailure more

end TokenStream

end PredictiveParsing
