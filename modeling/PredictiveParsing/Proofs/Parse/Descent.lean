import PredictiveParsing.Parse.Driver
import PredictiveParsing.Proofs.Prediction

/-!
# One call of a nonterminal

Reading a nonterminal is peeking at the next token, choosing a production, and reading its body.
The lemmas here say so for a call and for its parts, and that a call that is given more nested
calls than it needs comes to the same.

## Main definitions

* `Compiled.readSymbol`: reading a terminal or a nonterminal
* `Compiled.production?`: the production that a nonterminal takes

## Main results

* `Compiled.descend_succ`: a call, in terms of its parts
* `Compiled.descend_succ_eq_ok`, `Compiled.consume_eq_ok`, `readAll_cons_eq_ok`: what a success
  consists of
* `Compiled.readSymbol_induction`: induction on the nested calls
* `Compiled.descend_of_le`: more nested calls than needed change nothing
-/

namespace PredictiveParsing

/-! ## Sequences of symbols -/

section ReadAll

variable {read read' : Symbol → Reading Value} {x : Symbol} {xs : List Symbol} {s s' : Scan}
  {vs : List Value} {events : List Event}

theorem readAll_nil_eq_ok : readAll read [] s = .ok vs s' events ↔
    vs = [] ∧ s' = s ∧ events = [] := by
  simp [readAll, eq_comm]

theorem readAll_singleton : readAll read [x] s = (read x s).map ([·]) := by
  cases h : read x s <;> simp [readAll, h, Outcome.bind, Outcome.map, Outcome.after]

theorem readAll_cons_eq_ok : readAll read (x :: xs) s = .ok vs s' events ↔
    ∃ v r rest before after, read x s = .ok v r before ∧ readAll read xs r = .ok rest s' after ∧
      vs = v :: rest ∧ events = before ++ after := by
  simp only [readAll, Outcome.bind_eq_ok, Outcome.map_eq_ok]
  constructor
  · rintro ⟨v, r, before, after, hv, ⟨rest, hrest, rfl⟩, rfl⟩
    exact ⟨v, r, rest, before, after, hv, hrest, rfl, rfl⟩
  · rintro ⟨v, r, rest, before, after, hv, hrest, rfl, rfl⟩
    exact ⟨v, r, before, after, hv, ⟨rest, hrest, rfl⟩, rfl⟩

theorem readAll_cons_eq_failed {e : ParseError} : readAll read (x :: xs) s = .failed e events ↔
    read x s = .failed e events ∨ ∃ v r before after, read x s = .ok v r before ∧
      readAll read xs r = .failed e after ∧ events = before ++ after := by
  simp only [readAll, Outcome.bind_eq_failed, Outcome.map_eq_failed]

theorem readAll_cons_eq_exhausted : readAll read (x :: xs) s = .exhausted ↔
    read x s = .exhausted ∨ ∃ v r before, read x s = .ok v r before ∧
      readAll read xs r = .exhausted := by
  cases h : read x s <;> simp [readAll, h, Outcome.bind]

/-- A symbol and the symbols behind it are read one after the other, if there are enough nested
calls for both. -/
theorem readAll_cons_of_or {v : Value} {r : Scan} {before after : List Event}
    (hx : read x s = .exhausted ∨ read x s = .ok v r before)
    (hxs : readAll read xs r = .exhausted ∨ readAll read xs r = .ok vs s' after) :
    readAll read (x :: xs) s = .exhausted ∨
      readAll read (x :: xs) s = .ok (v :: vs) s' (before ++ after) := by
  unfold readAll
  rcases hx with hx | hx
  · exact .inl (by rw [hx]; rfl)
  · rcases hxs with hxs | hxs
    · exact .inl (by rw [hx, Outcome.bind, hxs]; rfl)
    · exact .inr (by rw [hx, Outcome.bind, hxs]; rfl)

/-- What is read depends on how symbols are read only where that is enough. -/
theorem readAll_congr (h : ∀ x s, read x s ≠ .exhausted → read' x s = read x s)
    (hs : readAll read xs s ≠ .exhausted) : readAll read' xs s = readAll read xs s := by
  induction xs generalizing s with
  | nil => rfl
  | cons x xs ih =>
    unfold readAll at hs ⊢
    cases hx : read x s with
    | ok v r before =>
      rw [h x s (by simp [hx]), hx]
      simp only [hx, Outcome.bind, ne_eq, Outcome.after_eq_exhausted,
        Outcome.map_eq_exhausted] at hs ⊢
      rw [ih hs]
    | failed e before => rw [h x s (by simp [hx]), hx]; rfl
    | exhausted => simp [hx, Outcome.bind] at hs

end ReadAll

/-- What is left at the end is the end of the text. -/
theorem readEnd_eq_ok {v w : Value} {s s' : Scan} {events : List Event} :
    readEnd v s = .ok w s' events ↔ ∃ line, s = .done line ∧ w = v ∧ s' = s ∧ events = [] := by
  cases s <;> simp [readEnd, eq_comm]

namespace Compiled

variable {c : Compiled} {fuel nt t : Nat} {s s' : Scan} {v : Value} {events : List Event}

/-- A token of the terminal is consumed. -/
theorem consume_token {token : Token} : c.consume token.terminal (.token token s) =
    .ok (.token token.text) s [.consume token.name token.text] := if_pos rfl

theorem consume_eq_ok : c.consume t s = .ok v s' events ↔
    ∃ token, s = .token token s' ∧ token.terminal = t ∧ v = .token token.text ∧
      events = [.consume token.name token.text] := by
  cases s with
  | token token rest =>
    by_cases ht : token.terminal = t
    · simp [consume, ht, eq_comm, and_assoc, and_left_comm]
    · simp [consume, ht]
  | done line => simp [consume]
  | stuck e => simp [consume]

/-- Anything but a token of the terminal is a failure. -/
theorem consume_eq_failed {e : ParseError} : c.consume t s = .failed e events ↔
    events = [] ∧ ((∃ err, s = .stuck err ∧ e = .scan err) ∨
      ∃ next, s.peek = .ok next ∧ (∀ token, next = some token → token.terminal ≠ t) ∧
        e = .unexpectedToken s.line (c.grammar.terminalName t) (.ofToken next)) := by
  cases s with
  | token token rest =>
    by_cases ht : token.terminal = t
    · simp [consume, Scan.peek, ht]
    · simp [consume, Scan.peek, Scan.line, ht, Ne.symm ht, eq_comm, and_comm]
  | done line => simp [consume, Scan.peek, Scan.line, eq_comm, and_comm]
  | stuck err => simp [consume, Scan.peek, eq_comm, and_comm]

/-! ## Nonterminals -/

/-- **Reads a symbol** with at most `fuel` nested calls. -/
def readSymbol (c : Compiled) (fuel : Nat) : Symbol → Reading Value
  | .terminal t => c.consume t
  | .nonterminal nt => c.descend fuel nt

/-- **The production that a nonterminal takes**, by the next token. -/
def production? (c : Compiled) (nt : Nat) (next : Option Token) : Option Nat :=
  ((c.prediction.choice nt).select (next.map (·.terminal))).production?

/-- **A call of a nonterminal**: it peeks, chooses a production and reads the body. -/
theorem descend_succ : c.descend (fuel + 1) nt s =
    match s.peek with
    | .error e => .failed (.scan e) []
    | .ok next =>
      (match c.production? nt next with
      | some p => (readAll (c.readSymbol fuel) (c.grammar.body p) s).map (c.shapes.build p)
      | none => .failed (.noAlternative s.line (c.grammar.nonterminalName nt)
          ((c.prediction.choice nt).expected c.grammar) (.ofToken next)) []).after
        [.enter (c.grammar.nonterminalName nt) s.line] := by
  unfold descend
  cases s.peek with
  | error e => rfl
  | ok next =>
    have hread {read : Symbol → Reading Value} (h : ∀ x, read x = c.readSymbol fuel x) (p : Nat) :
        ((readAll read (c.grammar.body p) s).map (c.shapes.build p)).after
          [.enter (c.grammar.nonterminalName nt) s.line] =
        ((readAll (c.readSymbol fuel) (c.grammar.body p) s).map (c.shapes.build p)).after
          [.enter (c.grammar.nonterminalName nt) s.line] := by
      rw [funext h]
    simp only [production?]
    cases (c.prediction.choice nt).select (next.map (·.terminal)) with
    | alternative p => exact hread (by rintro (_ | _) <;> rfl) p
    | epsilon p => exact hread (by rintro (_ | _) <;> rfl) p
    | none => rfl

theorem descend_succ_eq_ok : c.descend (fuel + 1) nt s = .ok v s' events ↔
    ∃ next p vs later, s.peek = .ok next ∧ c.production? nt next = some p ∧
      readAll (c.readSymbol fuel) (c.grammar.body p) s = .ok vs s' later ∧
      v = c.shapes.build p vs ∧
      events = .enter (c.grammar.nonterminalName nt) s.line :: later := by
  rw [descend_succ]
  cases s.peek with
  | error e => simp
  | ok next =>
    simp only [Outcome.after_eq_ok, Except.ok.injEq, List.singleton_append, exists_and_left,
      exists_eq_left']
    cases c.production? nt next with
    | none => simp
    | some p =>
      simp only [Outcome.map_eq_ok, Option.some.injEq, exists_eq_left']
      constructor
      · rintro ⟨later, ⟨vs, hvs, rfl⟩, rfl⟩
        exact ⟨vs, later, hvs, rfl, rfl⟩
      · rintro ⟨vs, later, hvs, rfl, rfl⟩
        exact ⟨later, ⟨vs, hvs, rfl⟩, rfl⟩

/-- A call fails if there is no next token to look at, if no production is taken, or in the body
of the one that is. -/
theorem descend_succ_eq_failed {e : ParseError} : c.descend (fuel + 1) nt s = .failed e events ↔
    (∃ err, s = .stuck err ∧ e = .scan err ∧ events = []) ∨
    (∃ next, s.peek = .ok next ∧ c.production? nt next = none ∧
      e = .noAlternative s.line (c.grammar.nonterminalName nt)
        ((c.prediction.choice nt).expected c.grammar) (.ofToken next) ∧
      events = [.enter (c.grammar.nonterminalName nt) s.line]) ∨
    ∃ next p later, s.peek = .ok next ∧ c.production? nt next = some p ∧
      readAll (c.readSymbol fuel) (c.grammar.body p) s = .failed e later ∧
      events = .enter (c.grammar.nonterminalName nt) s.line :: later := by
  rw [descend_succ]
  cases hpeek : s.peek with
  | error err =>
    cases s with
    | stuck err' =>
      obtain rfl : err' = err := by simpa [Scan.peek] using hpeek
      simp [eq_comm, and_comm]
    | _ => simp [Scan.peek] at hpeek
  | ok next =>
    simp only [Outcome.after_eq_failed]
    constructor
    · rintro ⟨later, h, rfl⟩
      cases hp : c.production? nt next with
      | none =>
        rw [hp] at h
        cases h
        exact .inr (.inl ⟨next, rfl, hp, rfl, rfl⟩)
      | some p =>
        rw [hp] at h
        exact .inr (.inr ⟨next, p, later, rfl, hp, Outcome.map_eq_failed.mp h, rfl⟩)
    · rintro (⟨err, rfl, -⟩ | ⟨_, ⟨⟩, hp, rfl, rfl⟩ | ⟨_, p, later, ⟨⟩, hp, hbody, rfl⟩)
      · cases hpeek
      · exact ⟨[], by rw [hp], rfl⟩
      · exact ⟨later, by rw [hp]; exact Outcome.map_eq_failed.mpr hbody, rfl⟩

/-- **Induction on nested calls**: a terminal is consumed, and in a call symbols are read with one
call less. -/
theorem readSymbol_induction {P : Symbol → Scan → Outcome Scan ParseError Value → Prop}
    (consume : ∀ t s, P (.terminal t) s (c.consume t s))
    (exhausted : ∀ nt s, P (.nonterminal nt) s .exhausted)
    (descend : ∀ fuel nt s, (∀ x s, P x s (c.readSymbol fuel x s)) →
      P (.nonterminal nt) s (c.descend (fuel + 1) nt s))
    (fuel : Nat) : ∀ x s, P x s (c.readSymbol fuel x s) := by
  induction fuel with
  | zero =>
    rintro (t | nt) s
    · exact consume t s
    · exact exhausted nt s
  | succ fuel ih =>
    rintro (t | nt) s
    · exact consume t s
    · exact descend fuel nt s ih

/-- A text is parsed if the start symbol reads all of it. -/
theorem parse_eq_ok {text : String} : c.parse text = .ok v s events ↔
    ∃ line, s = .done line ∧
      c.readSymbol (c.callBound (c.grammar.lexicon.scan text.toList).length)
        (.nonterminal c.grammar.start) (c.grammar.lexicon.scan text.toList) =
          .ok v (.done line) events := by
  simp only [parse, parseScan, Outcome.bind_eq_ok, readEnd_eq_ok, readSymbol]
  constructor
  · rintro ⟨w, s, before, after, hstart, ⟨line, rfl, rfl, rfl, rfl⟩, rfl⟩
    exact ⟨line, rfl, by simpa using hstart⟩
  · rintro ⟨line, rfl, hstart⟩
    exact ⟨v, .done line, events, [], hstart, ⟨line, rfl, rfl, rfl, rfl⟩, by simp⟩

/-- A parse fails where the start symbol does, or behind what it has read. -/
theorem parse_eq_failed {text : String} {e : ParseError} : c.parse text = .failed e events ↔
    c.readSymbol (c.callBound (c.grammar.lexicon.scan text.toList).length)
        (.nonterminal c.grammar.start) (c.grammar.lexicon.scan text.toList) =
          .failed e events ∨
      ∃ v rest, c.readSymbol (c.callBound (c.grammar.lexicon.scan text.toList).length)
          (.nonterminal c.grammar.start) (c.grammar.lexicon.scan text.toList) =
            .ok v rest events ∧ readEnd v rest = .failed e [] := by
  rw [parse, parseScan, Outcome.bind_eq_failed, readSymbol]
  refine or_congr_right ⟨?_, ?_⟩
  · rintro ⟨v, rest, before, after, hstart, hend, rfl⟩
    obtain rfl : after = [] := by cases rest <;> simp_all [readEnd]
    exact ⟨v, rest, by simpa using hstart, hend⟩
  · rintro ⟨v, rest, hstart, hend⟩
    exact ⟨v, rest, events, [], hstart, hend, by simp⟩

/-! ## Enough nested calls -/

theorem consume_ne_exhausted : c.consume t s ≠ .exhausted := by
  unfold consume
  split
  · simp
  · simp
  · split <;> simp

/-- **More nested calls than needed change nothing.** -/
theorem descend_of_le {fuel' : Nat} (hle : fuel ≤ fuel')
    (h : c.descend fuel nt s ≠ .exhausted) : c.descend fuel' nt s = c.descend fuel nt s := by
  -- Induction on the calls that are enough: each call of the body is given one less on both sides.
  induction fuel generalizing fuel' nt s with
  | zero => exact absurd rfl h
  | succ fuel ih =>
    obtain ⟨fuel', rfl⟩ : ∃ n, fuel' = n + 1 := ⟨fuel' - 1, by omega⟩
    rw [descend_succ] at h ⊢
    rw [descend_succ]
    cases hpeek : s.peek with
    | error e => rfl
    | ok next =>
      simp only [hpeek, ne_eq, Outcome.after_eq_exhausted] at h ⊢
      cases hp : c.production? nt next with
      | none => rfl
      | some p =>
        simp only [hp, Outcome.map_eq_exhausted] at h ⊢
        rw [readAll_congr (fun x r hx => ?_) h]
        cases x with
        | terminal t => rfl
        | nonterminal m => exact ih (Nat.le_of_succ_le_succ hle) hx

end Compiled

end PredictiveParsing
