import PredictiveParsing.Emission.Run
import PredictiveParsing.Parse.Driver
import PredictiveParsing.Proofs.Lexicon.Scan
import PredictiveParsing.Proofs.Result

/-!
# Cursors and scans

A cursor reads tokens as they are asked for, where a scan has them all; and it knows a token by
its name, where a scan has the number of its terminal. A cursor shows a scan if what it has read
and what it can still read is what the scan consists of.

## Main definitions

* `Cursor.Shows`, `Cursor.HasPeeked`: a cursor at the start of a scan, and after a look at it
* `ParseError.failure`: a failure as an emitted parser reports it
* `Outcome.Agrees`: two stretches that come to the same

## Main results

* `Cursor.read_eq`: reading a token is what scanning does first
* `Cursor.Shows.peek`: what a look shows
* `Outcome.Agrees.bind`: one stretch after another
-/

namespace PredictiveParsing

/-- A failure as an emitted parser reports it. -/
def ParseError.failure (e : ParseError) : ParserFailure := ⟨e.kind, e.line, e.message⟩

/-- A token as an emitted parser sees it. -/
def Token.named (t : Token) : NamedToken := ⟨t.name, t.text⟩

theorem ScanError.message_eq (e : ScanError) : e.message = "Lexer Error, line " ++
    toString e.line ++ ": No matching token found. Remaining input: " ++ e.preview ++ " ...." :=
  rfl

namespace Cursor

variable {g : Grammar} {cursor : Cursor} {s : Scan}

theorem scanFailure_eq (line : Nat) (rest : List Char) : scanFailure line rest =
    (ParseError.scan ⟨line, String.ofList (rest.take ScanError.previewLength)⟩).failure :=
  congrArg (ParserFailure.mk .scan line)
    (ScanError.message_eq ⟨line, String.ofList (rest.take ScanError.previewLength)⟩).symm

/-- **Reading a token is what scanning does first.** -/
theorem read_eq (lexicon : Lexicon) (text : List Char) (line : Nat) :
    read lexicon text line = match (lexicon.next line text).item with
      | .error e => .failed (ParseError.scan e).failure []
      | .ok none => .ok none ⟨[], (lexicon.next line text).line, none⟩ []
      | .ok (some t) =>
        .ok (some t.named) ⟨(lexicon.next line text).rest, t.line, some t.named⟩ [] := by
  -- Both skip white space piece by piece, so the induction is that of scanning.
  fun_induction Lexicon.next lexicon line text with
  | case1 line => rw [read]
  | case2 line c l hpiece =>
    rw [read]
    split
    · exact congrArg (Outcome.failed · []) (scanFailure_eq line (c :: l))
    · simp_all
  | case3 line c l piece hpiece hrule ih =>
    rw [read]
    split
    · simp_all
    · rename_i piece' hpiece'
      obtain rfl : piece = piece' := by simpa [hpiece] using hpiece'
      rw [if_pos hrule]
      exact ih
  | case4 line c l piece hpiece terminal hrule =>
    rw [read]
    split
    · simp_all
    · rename_i piece' hpiece'
      obtain rfl : piece = piece' := by simpa [hpiece] using hpiece'
      rw [if_neg (by omega)]
      rfl

/-! ## What a cursor shows -/

/-- **A cursor shows a scan.** Either nothing has been read of it, or just its first token. -/
inductive Shows (g : Grammar) : Cursor → Scan → Prop
  | unread (rest : List Char) (line : Nat) :
    Shows g ⟨rest, line, none⟩ (g.lexicon.scanFrom line rest)
  | peeked {t : Token} (ht : g.HasToken t) (rest : List Char) :
    Shows g ⟨rest, t.line, some t.named⟩ (.token t (g.lexicon.scanFrom t.line rest))

/-- **A cursor after a look** at the first item of a scan, which is not an error. -/
inductive HasPeeked (g : Grammar) : Cursor → Option Token → Scan → Prop
  | token {t : Token} (ht : g.HasToken t) (rest : List Char) :
    HasPeeked g ⟨rest, t.line, some t.named⟩ (some t) (.token t (g.lexicon.scanFrom t.line rest))
  | done (line : Nat) : HasPeeked g ⟨[], line, none⟩ none (.done line)

theorem scanFrom_nil (lexicon : Lexicon) (line : Nat) : lexicon.scanFrom line [] = .done line := by
  have hnext : lexicon.next line [] = ⟨.ok none, line, []⟩ := by rw [Lexicon.next]
  rw [Lexicon.scanFrom]
  split <;> simp_all

theorem HasPeeked.shows {next : Option Token} (h : cursor.HasPeeked g next s) :
    cursor.Shows g s := by
  cases h with
  | token ht rest => exact .peeked ht rest
  | done line => exact scanFrom_nil g.lexicon line ▸ .unread [] line

theorem HasPeeked.peek_eq {next : Option Token} (h : cursor.HasPeeked g next s) :
    s.peek = .ok next := by
  cases h <;> rfl

theorem HasPeeked.line_eq {next : Option Token} (h : cursor.HasPeeked g next s) :
    cursor.line = s.line := by
  cases h <;> rfl

theorem HasPeeked.lookahead_eq {next : Option Token} (h : cursor.HasPeeked g next s) :
    cursor.lookahead = next.map Token.named := by
  cases h <;> rfl

theorem HasPeeked.hasToken {t : Token} (h : cursor.HasPeeked g (some t) s) : g.HasToken t := by
  cases h with
  | token ht => exact ht

/-- **What a look shows**: the first item of the scan. -/
theorem Shows.peek (wf : g.WellFormed) (h : cursor.Shows g s) :
    (∃ e, s = .stuck e ∧ cursor.peek g.lexicon = .failed (ParseError.scan e).failure []) ∨
      ∃ next cursor', cursor.peek g.lexicon = .ok (next.map Token.named) cursor' [] ∧
        cursor'.HasPeeked g next s := by
  cases h with
  | peeked ht rest => exact .inr ⟨some _, _, rfl, .token ht rest⟩
  | unread rest line =>
    have hline := Lexicon.line_of_next g.lexicon line rest
    rw [Lexicon.scanFrom]
    show _ ∨ ∃ next cursor', read g.lexicon rest line = _ ∧ _
    have hread := read_eq g.lexicon rest line
    split
    · rename_i e hitem
      rw [hitem] at hread
      exact .inl ⟨e, rfl, hread⟩
    · rename_i hitem
      rw [hitem] at hread
      exact .inr ⟨none, _, hread, .done _⟩
    · rename_i t hitem
      rw [hitem] at hread hline
      rw [← hline]
      exact .inr ⟨some t, _, hread, .token (wf.hasToken_of_next hitem) _⟩

/-- An entry is reported with the line of the item that is looked at. -/
theorem enter_eq {lexicon : Lexicon} {cursor' : Cursor} {next : Option Token} {nonterminal : String}
    (h : cursor.peek lexicon = .ok (next.map Token.named) cursor' []) :
    cursor.enter lexicon nonterminal =
      .ok (next.map (·.name)) cursor' [.enter nonterminal cursor'.line] := by
  rw [enter, h, Outcome.bind, Option.map_map]
  rfl

end Cursor

/-! ## Stretches that come to the same -/

namespace Outcome

variable {g : Grammar} {α α' β β' : Type}

/-- **Two stretches come to the same**: both yield related values and are at the same place, or
both fail in the same way, or both would need more nested calls. They report the same events. -/
inductive Agrees (g : Grammar) (R : α → β → Prop) :
    Outcome Scan ParseError α → Outcome Cursor ParserFailure β → Prop
  | ok {v w s cursor} (events : List Event) (hvw : R v w) (hs : cursor.Shows g s) :
    Agrees g R (.ok v s events) (.ok w cursor events)
  | failed (e : ParseError) (events : List Event) :
    Agrees g R (.failed e events) (.failed e.failure events)
  | exhausted : Agrees g R .exhausted .exhausted

namespace Agrees

variable {R : α → β → Prop} {R' : α' → β' → Prop} {o : Outcome Scan ParseError α}
  {o' : Outcome Cursor ParserFailure β}

theorem after (h : Agrees g R o o') (earlier : List Event) :
    Agrees g R (o.after earlier) (o'.after earlier) := by
  cases h with
  | ok events hvw hs => exact .ok _ hvw hs
  | failed e events => exact .failed e _
  | exhausted => exact .exhausted

theorem map {f : α → α'} {f' : β → β'} (h : Agrees g R o o')
    (hf : ∀ v w, R v w → R' (f v) (f' w)) : Agrees g R' (o.map f) (o'.map f') := by
  cases h with
  | ok events hvw hs => exact .ok events (hf _ _ hvw) hs
  | failed e events => exact .failed e events
  | exhausted => exact .exhausted

/-- Stretches that are given enough nested calls both succeed or both fail. -/
theorem ok_or_failed (h : Agrees g R o o') (hne : o ≠ .exhausted) :
    (∃ v w s cursor events, o = .ok v s events ∧ o' = .ok w cursor events ∧ R v w) ∨
      ∃ e events, o = .failed e events ∧ o' = .failed e.failure events := by
  cases h with
  | ok events hvw => exact .inl ⟨_, _, _, _, events, rfl, rfl, hvw⟩
  | failed e events => exact .inr ⟨e, events, rfl, rfl⟩
  | exhausted => exact absurd rfl hne

/-- **One stretch after another**: what comes next agrees where the first stretches lead. -/
theorem bind {next : α → Scan → Outcome Scan ParseError α'}
    {next' : β → Cursor → Outcome Cursor ParserFailure β'} (h : Agrees g R o o')
    (hnext : ∀ v w s cursor, R v w → cursor.Shows g s → Agrees g R' (next v s) (next' w cursor)) :
    Agrees g R' (o.bind next) (o'.bind next') := by
  cases h with
  | ok events hvw hs => exact (hnext _ _ _ _ hvw hs).after events
  | failed e events => exact .failed e events
  | exhausted => exact .exhausted

end Agrees

end Outcome

end PredictiveParsing
