import PredictiveParsing.Proofs.Parse.FirstError
import PredictiveParsing.Proofs.Parse.Lookahead

/-!
# Another token in the same place

Two scans agree up to a place if the tokens before it are of the same terminals; at the place the
second one has some token, whatever stands there in the first. A symbol is read from both in step
as long as another token comes first. At the place itself nonterminals may choose differently: one
that vanished in the first scan takes the token in the second if the token begins it. So what
matters of a run up to the place are the nonterminals that have been entered there, and what the
first run asks for if it fails.

The comparison is by induction on the nested calls, for sequences of symbols by induction on the
sequence, and apart for runs that succeed and for runs that fail.

## Main definitions

* `Scan.AgreeTo`: two scans agree up to a place
* `Event.pending`: the nonterminals that have been entered since a token was consumed
* `Compiled.Awaits`: one of them begins with a token
* `Compiled.Keeps`, `Compiled.KeepsFailing`: what the second run comes to, given the first

## Main results

* `Compiled.Coherent.keeps_of_ok`: what is read up to the place is read in both scans
* `Compiled.Coherent.keepsFailing_of_failed`: what fails at the place consumes the token in the
  second scan if it is awaited or asked for, and else fails there as well
-/

namespace PredictiveParsing

/-! ## Scans that agree up to a place -/

/-- **Two scans agree up to a place**: the tokens before it are of the same terminals. -/
inductive Scan.AgreeTo (place place' : Scan) : Scan → Scan → Prop
  | here : AgreeTo place place' place place'
  | token {t t' : Token} {s s' : Scan} (hterminal : t.terminal = t'.terminal)
      (hs : AgreeTo place place' s s') : AgreeTo place place' (.token t s) (.token t' s')

namespace Scan.AgreeTo

variable {place place' s s' : Scan}

theorem length_eq (h : AgreeTo place place' s s') :
    s.length + place'.length = s'.length + place.length := by
  induction h with
  | here => omega
  | token _ _ ih =>
    simp only [Scan.length]
    omega

theorem length_le (h : AgreeTo place place' s s') : place.length ≤ s.length := by
  induction h with
  | here => exact Nat.le_refl _
  | token _ _ ih => exact Nat.le_succ_of_le ih

theorem length_le' (h : AgreeTo place place' s s') : place'.length ≤ s'.length := by
  have hlength := h.length_eq
  have hle := h.length_le
  omega

/-- Tokens of the same terminals can be put before a place. -/
theorem of_prepend {tokens tokens' : List Token}
    (h : tokens.map (·.terminal) = tokens'.map (·.terminal)) :
    AgreeTo place place' (Scan.prepend tokens place) (Scan.prepend tokens' place') := by
  induction tokens generalizing tokens' with
  | nil =>
    obtain rfl := List.map_eq_nil_iff.mp h.symm
    exact .here
  | cons t tokens ih =>
    cases tokens' with
    | nil => simp at h
    | cons t' tokens' =>
      obtain ⟨ht, htokens⟩ := List.cons.inj h
      exact .token ht (ih htokens)

end Scan.AgreeTo

/-! ## Nonterminals that wait for a token -/

namespace Event

/-- **The nonterminals that have been entered since a token was consumed**, by their names. -/
def pending : List Event → List String
  | [] => []
  | enter name _ :: events =>
    if consumptions events = [] then name :: pending events else pending events
  | consume _ _ :: events => pending events

/-- What is entered before something is consumed is no longer pending. -/
theorem mem_pending_append {name : String} {events events' : List Event} :
    name ∈ pending (events ++ events') ↔
      name ∈ pending events' ∨ consumptions events' = [] ∧ name ∈ pending events := by
  induction events with
  | nil => simp [pending]
  | cons event events ih =>
    cases event with
    | enter name' line =>
      simp only [List.cons_append, pending, consumptions_append, List.append_eq_nil_iff]
      by_cases h : consumptions events = [] <;> by_cases h' : consumptions events' = [] <;>
        simp [h, h', ih, or_left_comm]
    | consume token text => simpa [pending] using ih

end Event

namespace Compiled

/-- **A token is awaited**: it begins a nonterminal that has been entered since a token was
consumed. -/
def Awaits (c : Compiled) (t : Nat) (events : List Event) : Prop :=
  ∃ nt < c.grammar.nonterminals.size, c.grammar.nonterminalName nt ∈ Event.pending events ∧
    c.Begins t [.nonterminal nt]

/-- **A token is accepted at a failure**: it is awaited, or it is what the failure asks for. -/
def Accepts (c : Compiled) (t : Nat) (e : ParseError) (events : List Event) : Prop :=
  c.Awaits t events ∨ c.grammar.terminalName t ∈ e.expectedTokens

variable {c : Compiled} {t : Nat} {events events' : List Event}

@[simp] theorem not_awaits_nil : ¬ c.Awaits t [] := by
  simp [Awaits, Event.pending]

theorem not_awaits_consume {token text : String} : ¬ c.Awaits t [.consume token text] := by
  simp [Awaits, Event.pending]

theorem awaits_append : c.Awaits t (events ++ events') ↔
    c.Awaits t events' ∨ Event.consumptions events' = [] ∧ c.Awaits t events := by
  simp only [Awaits, Event.mem_pending_append]
  constructor
  · rintro ⟨nt, hnt, hpending | ⟨hnone, hpending⟩, hbegins⟩
    · exact .inl ⟨nt, hnt, hpending, hbegins⟩
    · exact .inr ⟨hnone, nt, hnt, hpending, hbegins⟩
  · rintro (⟨nt, hnt, hpending, hbegins⟩ | ⟨hnone, nt, hnt, hpending, hbegins⟩)
    · exact ⟨nt, hnt, .inl hpending, hbegins⟩
    · exact ⟨nt, hnt, .inr ⟨hnone, hpending⟩, hbegins⟩

theorem accepts_append {e : ParseError} : c.Accepts t e (events ++ events') ↔
    c.Accepts t e events' ∨ Event.consumptions events' = [] ∧ c.Awaits t events := by
  rw [Accepts, awaits_append, Accepts, or_right_comm]

/-- An entry before something is consumed makes no difference. -/
theorem awaits_enter_of_ne {name : String} {line : Nat} (h : Event.consumptions events ≠ []) :
    c.Awaits t (.enter name line :: events) ↔ c.Awaits t events := by
  simp [Awaits, Event.pending, h]

/-- A nonterminal that has just been entered awaits what begins it. -/
theorem Coherent.awaits_enter (hc : c.Coherent) {nt line : Nat}
    (hnt : nt < c.grammar.nonterminals.size) (h : Event.consumptions events = []) :
    c.Awaits t (.enter (c.grammar.nonterminalName nt) line :: events) ↔
      c.Begins t [.nonterminal nt] ∨ c.Awaits t events := by
  simp only [Awaits, Event.pending, h, if_true, List.mem_cons]
  constructor
  · rintro ⟨m, hm, hname | hpending, hbegins⟩
    · exact .inl (hc.wellFormed.nonterminalName_inj hm hnt hname ▸ hbegins)
    · exact .inr ⟨m, hm, hpending, hbegins⟩
  · rintro (hbegins | ⟨m, hm, hpending, hbegins⟩)
    · exact ⟨nt, hnt, .inl rfl, hbegins⟩
    · exact ⟨m, hm, .inr hpending, hbegins⟩

/-- What is chosen depends on the next token only by its terminal. -/
theorem production?_congr {nt : Nat} {t t' : Token} (h : t.terminal = t'.terminal) :
    c.production? nt (some t) = c.production? nt (some t') := by
  rw [production?, production?, Option.map_some, Option.map_some, h]

/-! ## Runs that succeed -/

section Runs

variable {α β : Type} {place after s s' r : Scan} {u : Token}

/-- **What the second run comes to where the first one succeeds** with `r` left to read: if the
first one has reached the place and the token is awaited there, it is consumed; otherwise the second
run succeeds as well, and what is left agrees up to the place. -/
def Keeps (c : Compiled) (place : Scan) (u : Token) (after s' r : Scan) (events : List Event)
    (o : Outcome Scan ParseError α) : Prop :=
  (r.length = place.length ∧ c.Awaits u.terminal events ∧ o.Consumes (s'.length - after.length)) ∨
  (¬ (r.length = place.length ∧ c.Awaits u.terminal events) ∧
    (o = .exhausted ∨ ∃ v r' events', o = .ok v r' events' ∧
      Scan.AgreeTo place (.token u after) r r'))

/-- A comparison of bodies is one of the nonterminals that have them, if their entry does not add
to what is awaited at the place. -/
theorem Keeps.enter {name : String} {line : Nat} {o : Outcome Scan ParseError α}
    (h : c.Keeps place u after s' r events o)
    (hentry : r.length = place.length →
      (c.Awaits u.terminal (.enter name line :: events) ↔ c.Awaits u.terminal events))
    (f : α → β) (line' : Nat) :
    c.Keeps place u after s' r (.enter name line :: events)
      ((o.map f).after [.enter name line']) := by
  rcases h with ⟨hr, hawaits, hconsumes⟩ | ⟨hnot, hread⟩
  · left
    exact ⟨hr, (hentry hr).mpr hawaits, (Outcome.consumes_map.mpr hconsumes).after_enter _ _⟩
  · refine .inr ⟨fun hnow => hnot ⟨hnow.1, (hentry hnow.1).mp hnow.2⟩, ?_⟩
    rcases hread with rfl | ⟨v, r', events', rfl, hagree⟩
    · exact .inl rfl
    · exact .inr ⟨_, r', _, rfl, hagree⟩

theorem keeps_exhausted :
    c.Keeps place u after s' r events (.exhausted : Outcome Scan ParseError α) := by
  by_cases h : r.length = place.length ∧ c.Awaits u.terminal events
  · exact .inl ⟨h.1, h.2, Outcome.consumes_exhausted⟩
  · exact .inr ⟨h, .inl rfl⟩

/-- A terminal is consumed before the place in both scans. -/
theorem keeps_of_consume {v : Value} (hagree : Scan.AgreeTo place (.token u after) s s')
    (h : c.consume t s = .ok v r events) (hle : place.length ≤ r.length) :
    c.Keeps place u after s' r events (c.consume t s') := by
  obtain ⟨token, rfl, rfl, rfl, rfl⟩ := consume_eq_ok.mp h
  cases hagree with
  | here => simp [Scan.length] at hle
  | @token _ t' _ s' hterminal hs =>
    refine .inr ⟨fun hnow => not_awaits_consume hnow.2, .inr ?_⟩
    rw [hterminal]
    exact ⟨_, _, _, consume_token, hs⟩

namespace Coherent

variable (hc : c.Coherent)

include hc

/-- What the rest of a sequence consumes up to a place counts from the first symbol on. -/
theorem consumes_of_cons {fuel : Nat} {x : Symbol} {xs : List Symbol} {v : Value} {n : Nat}
    (hx : c.readSymbol fuel x s = .ok v r events) (hn : n ≤ r.length)
    (hxs : (readAll (c.readSymbol fuel) xs r).Consumes (r.length - n)) :
    (readAll (c.readSymbol fuel) (x :: xs) s).Consumes (s.length - n) := by
  have hlength := hc.length_of_readSymbol hx
  have hafter := (Outcome.consumes_map (f := (v :: ·)).mpr hxs).after events
  have hsum : (Event.consumptions events).length + (r.length - n) = s.length - n := by omega
  rw [hsum] at hafter
  unfold readAll
  rw [hx]
  exact hafter

/-- If symbols are read in step, so are sequences. -/
theorem keeps_of_readAll {fuel : Nat}
    (hread : ∀ x s s' v r events, Scan.AgreeTo place (.token u after) s s' →
      c.readSymbol fuel x s = .ok v r events → place.length ≤ r.length →
      c.Keeps place u after s' r events (c.readSymbol fuel x s'))
    {xs : List Symbol} {vs : List Value} (hagree : Scan.AgreeTo place (.token u after) s s')
    (h : readAll (c.readSymbol fuel) xs s = .ok vs r events) (hle : place.length ≤ r.length) :
    c.Keeps place u after s' r events (readAll (c.readSymbol fuel) xs s') := by
  induction xs generalizing s s' vs events with
  | nil =>
    obtain ⟨-, rfl, rfl⟩ := readAll_nil_eq_ok.mp h
    exact .inr ⟨fun hnow => not_awaits_nil hnow.2, .inr ⟨[], s', [], rfl, hagree⟩⟩
  | cons x xs ih =>
    obtain ⟨v, m, rest, earlier, later, hx, hxs, -, rfl⟩ := readAll_cons_eq_ok.mp h
    have hlength := hc.length_of_readAll hxs
    rcases hread x s s' v m earlier hagree hx (by omega) with
      ⟨hm, hawaits, hconsumes⟩ | ⟨hnot, hex | ⟨v', m', earlier', hx', hagree'⟩⟩
    · have hlater : Event.consumptions later = [] := List.length_eq_zero_iff.mp (by omega)
      exact .inl ⟨by omega, awaits_append.mpr (.inr ⟨hlater, hawaits⟩), hconsumes.bind _⟩
    · unfold readAll
      rw [hex]
      exact keeps_exhausted
    · have hplace := hagree'.length_le'
      rcases ih hagree' hxs with ⟨hr, hawaits, hconsumes⟩ | ⟨hnot', hrest⟩
      · left
        exact ⟨hr, awaits_append.mpr (.inl hawaits),
          hc.consumes_of_cons hx' (Nat.le_of_succ_le hplace) hconsumes⟩
      · refine .inr ⟨?_, ?_⟩
        · rintro ⟨hr, hawaits⟩
          rcases awaits_append.mp hawaits with hawaits | ⟨hlater, hawaits⟩
          · exact hnot' ⟨hr, hawaits⟩
          · rw [hlater, List.length_nil] at hlength
            exact hnot ⟨by omega, hawaits⟩
        · rcases hrest with hex | ⟨vs', r', later', hxs', hagree''⟩
          · exact .inl (readAll_cons_eq_exhausted.mpr (.inr ⟨_, _, _, hx', hex⟩))
          · exact .inr ⟨_, r', _, readAll_cons_eq_ok.mpr ⟨_, _, _, _, _, hx', hxs', rfl, rfl⟩,
              hagree''⟩

/-- **What is read up to the place is read in step.** -/
theorem keeps_of_ok (fuel : Nat) : ∀ x s s' v r events,
    Scan.AgreeTo place (.token u after) s s' → c.readSymbol fuel x s = .ok v r events →
    place.length ≤ r.length → c.Keeps place u after s' r events (c.readSymbol fuel x s') := by
  -- Induction on the nested calls. Before the place both runs take the same production; at the
  -- place the first one has taken one that vanishes.
  induction fuel with
  | zero =>
    rintro (t | nt) s s' v r events hagree h hle
    · exact keeps_of_consume hagree h hle
    · cases h
  | succ fuel ih =>
    rintro (t | nt) s s' v r events hagree h hle
    · exact keeps_of_consume hagree h hle
    · have hcall : c.descend (fuel + 1) nt s = .ok v r events := h
      have hlength := hc.length_of_readSymbol h
      obtain ⟨next, p, vs, later, hpeek, hp, hbody, -, rfl⟩ := descend_succ_eq_ok.mp hcall
      have hlt : nt < c.grammar.nonterminals.size :=
        Grammar.lt_of_mem_alternatives (hc.mem_alternatives_of_select hp)
      have hkeeps := hc.keeps_of_readAll ih hagree hbody hle
      rw [Event.consumptions_enter] at hlength
      cases hagree with
      | @token t t' m m' hterminal hs =>
        obtain rfl : next = some t := (Except.ok.inj hpeek).symm
        rw [production?_congr hterminal] at hp
        rw [readSymbol, descend_succ_of_production? rfl hp]
        refine hkeeps.enter ?_ _ _
        intro hr
        apply awaits_enter_of_ne
        intro hnone
        have hplace := hs.length_le
        rw [hnone, Scan.length, List.length_nil] at hlength
        omega
      | here =>
        have hlater : Event.consumptions later = [] := List.length_eq_zero_iff.mp (by omega)
        have hselect := hc.select_epsilon_of_not_consumes fuel hpeek hp
          (by rw [hbody, Outcome.consumes_ok, hlater]; simp)
        by_cases hbegins : c.Begins u.terminal [.nonterminal nt]
        · refine .inl ⟨by omega, (hc.awaits_enter hlt hlater).mpr (.inl hbegins), ?_⟩
          simpa [Scan.length] using hc.consumes_of_begins (fuel + 1) hbegins after
        · have hselect' := hc.select_epsilon_of_not_begins hselect (some u)
            (by rintro _ ⟨⟩; exact hbegins)
          rw [readSymbol, descend_succ_of_production? rfl (production?_of_select_epsilon hselect')]
          refine hkeeps.enter ?_ _ _
          intro _
          exact (hc.awaits_enter hlt hlater).trans (or_iff_right hbegins)

end Coherent

/-! ## Runs that fail -/

/-- **What the second run comes to where the first one fails at the place**: a token that is
accepted there is consumed, and with any other token the second run fails before it. -/
def KeepsFailing (c : Compiled) (u : Token) (after s' : Scan) (e : ParseError)
    (events : List Event) (o : Outcome Scan ParseError α) : Prop :=
  (c.Accepts u.terminal e events ∧ o.Consumes (s'.length - after.length)) ∨
  (¬ c.Accepts u.terminal e events ∧ (o = .exhausted ∨ ∃ e' events', o = .failed e' events' ∧
    s'.length = (Event.consumptions events').length + (after.length + 1)))

theorem KeepsFailing.enter {name : String} {line : Nat} {e : ParseError}
    {o : Outcome Scan ParseError α} (h : c.KeepsFailing u after s' e events o)
    (hnone : Event.consumptions events ≠ []) (f : α → β) (line' : Nat) :
    c.KeepsFailing u after s' e (.enter name line :: events)
      ((o.map f).after [.enter name line']) := by
  have hentry : c.Awaits u.terminal (.enter name line :: events) ↔ c.Awaits u.terminal events :=
    awaits_enter_of_ne hnone
  rcases h with ⟨haccepts, hconsumes⟩ | ⟨hnot, hread⟩
  · left
    exact ⟨haccepts.imp_left hentry.mpr, (Outcome.consumes_map.mpr hconsumes).after_enter _ _⟩
  · refine .inr ⟨fun haccepts => hnot (haccepts.imp_left hentry.mp), ?_⟩
    rcases hread with rfl | ⟨e', events', rfl, hlength⟩
    · exact .inl rfl
    · exact .inr ⟨e', _, rfl, hlength⟩

theorem keepsFailing_exhausted {e : ParseError} :
    c.KeepsFailing u after s' e events (.exhausted : Outcome Scan ParseError α) := by
  by_cases h : c.Accepts u.terminal e events
  · exact .inl ⟨h, Outcome.consumes_exhausted⟩
  · exact .inr ⟨h, .inl rfl⟩

namespace Coherent

variable (hc : c.Coherent)

include hc

/-- If failures of symbols are in step, so are those of sequences. -/
theorem keepsFailing_of_readAll {fuel : Nat} {e : ParseError}
    (hread : ∀ x s s' events, c.grammar.HasSymbol x → Scan.AgreeTo place (.token u after) s s' →
      c.readSymbol fuel x s = .failed e events →
      s.length = (Event.consumptions events).length + place.length →
      c.KeepsFailing u after s' e events (c.readSymbol fuel x s'))
    {xs : List Symbol} (hxs : ∀ x ∈ xs, c.grammar.HasSymbol x)
    (hagree : Scan.AgreeTo place (.token u after) s s')
    (h : readAll (c.readSymbol fuel) xs s = .failed e events)
    (hplace : s.length = (Event.consumptions events).length + place.length) :
    c.KeepsFailing u after s' e events (readAll (c.readSymbol fuel) xs s') := by
  induction xs generalizing s s' events with
  | nil => cases h
  | cons x xs ih =>
    rcases readAll_cons_eq_failed.mp h with hx | ⟨v, m, earlier, later, hx, hfails, rfl⟩
    · rcases hread x s s' events (hxs x List.mem_cons_self) hagree hx hplace with
        ⟨haccepts, hconsumes⟩ | ⟨hnot, hex | ⟨e', events', hx', hlength⟩⟩
      · exact .inl ⟨haccepts, hconsumes.bind _⟩
      · exact .inr ⟨hnot, .inl (readAll_cons_eq_exhausted.mpr (.inl hex))⟩
      · exact .inr ⟨hnot, .inr ⟨e', events', readAll_cons_eq_failed.mpr (.inl hx'), hlength⟩⟩
    · have hlength := hc.length_of_readSymbol hx
      rw [Event.consumptions_append, List.length_append] at hplace
      rcases hc.keeps_of_ok fuel x s s' v m earlier hagree hx (by omega) with
        ⟨hm, hawaits, hconsumes⟩ | ⟨hnot, hex | ⟨v', m', earlier', hx', hagree'⟩⟩
      · have hlater : Event.consumptions later = [] := List.length_eq_zero_iff.mp (by omega)
        exact .inl ⟨accepts_append.mpr (.inr ⟨hlater, hawaits⟩), hconsumes.bind _⟩
      · rw [readAll_cons_eq_exhausted.mpr (.inl hex)]
        exact keepsFailing_exhausted
      · have hplace' := hagree'.length_le'
        have hlength' := hc.length_of_readSymbol hx'
        rcases ih (fun y hy => hxs y (List.mem_cons_of_mem _ hy)) hagree' hfails (by omega) with
          ⟨haccepts, hconsumes⟩ | ⟨hnot', hrest⟩
        · left
          exact ⟨accepts_append.mpr (.inl haccepts),
            hc.consumes_of_cons hx' (Nat.le_of_succ_le hplace') hconsumes⟩
        · refine .inr ⟨?_, ?_⟩
          · intro haccepts
            rcases accepts_append.mp haccepts with haccepts | ⟨hlater, hawaits⟩
            · exact hnot' haccepts
            · rw [hlater, List.length_nil] at hplace
              exact hnot ⟨by omega, hawaits⟩
          · rcases hrest with hex | ⟨e', later', hfails', hlength''⟩
            · exact .inl (readAll_cons_eq_exhausted.mpr (.inr ⟨_, _, _, hx', hex⟩))
            · refine .inr ⟨e', earlier' ++ later', ?_, ?_⟩
              · exact readAll_cons_eq_failed.mpr (.inr ⟨_, _, _, _, hx', hfails', rfl⟩)
              · rw [Event.consumptions_append, List.length_append]
                omega

/-- A terminal that fails at the place asks for a token of it. -/
theorem keepsFailing_of_consume {e : ParseError} (ht : t < c.grammar.terminals.size)
    (hu : u.terminal < c.grammar.terminals.size)
    (hagree : Scan.AgreeTo place (.token u after) s s') (h : c.consume t s = .failed e events)
    (hkind : e.kind = .parse)
    (hplace : s.length = (Event.consumptions events).length + place.length) :
    c.KeepsFailing u after s' e events (c.consume t s') := by
  obtain ⟨rfl, ⟨err, rfl, rfl⟩ | ⟨next, -, -, rfl⟩⟩ := consume_eq_failed.mp h
  · cases hkind
  · cases hagree with
    | token _ hs =>
      have hle := hs.length_le
      simp only [Scan.length, Event.consumptions_nil, List.length_nil] at hplace
      omega
    | here =>
      by_cases hut : u.terminal = t
      · subst hut
        refine .inl ⟨.inr (List.mem_singleton_self _), ?_⟩
        rw [consume_token]
        simp [Scan.length]
      · refine .inr ⟨?_, .inr ⟨_, [], consume_eq_failed.mpr ⟨rfl, .inr ⟨some u, rfl, ?_, rfl⟩⟩, ?_⟩⟩
        · rintro (hawaits | hname)
          · exact not_awaits_nil hawaits
          · exact hut (hc.wellFormed.terminalName_inj hu ht (List.mem_singleton.mp hname))
        · rintro _ ⟨⟩
          exact hut
        · simp [Scan.length]

/-- A nonterminal that takes no production at the place asks for the tokens that begin it. -/
theorem keepsFailing_of_noAlternative {fuel nt : Nat} {next : Option Token}
    (hnt : nt < c.grammar.nonterminals.size) (hu : u.terminal < c.grammar.terminals.size)
    (hnone : c.production? nt next = none) :
    c.KeepsFailing u after (.token u after)
      (.noAlternative s.line (c.grammar.nonterminalName nt)
        ((c.prediction.choice nt).expected c.grammar) (.ofToken next))
      [.enter (c.grammar.nonterminalName nt) s.line]
      (c.descend (fuel + 1) nt (.token u after)) := by
  have hexpected : c.grammar.terminalName u.terminal ∈
      (ParseError.noAlternative s.line (c.grammar.nonterminalName nt)
        ((c.prediction.choice nt).expected c.grammar) (.ofToken next)).expectedTokens ↔
      ∃ t, c.Begins t [.nonterminal nt] ∧
        c.grammar.terminalName t = c.grammar.terminalName u.terminal :=
    hc.mem_expectedTokens
  by_cases hbegins : c.Begins u.terminal [.nonterminal nt]
  · refine .inl ⟨.inr (hexpected.mpr ⟨_, hbegins, rfl⟩), ?_⟩
    have hconsumes := hc.consumes_of_begins (fuel + 1) hbegins after
    rw [readSymbol] at hconsumes
    simpa [Scan.length] using hconsumes
  · have hnone' : c.production? nt (some u) = none :=
      hc.production?_eq_none.mpr ⟨(hc.production?_eq_none.mp hnone).1, by
        rintro _ ⟨⟩
        exact hbegins⟩
    refine .inr ⟨?_, .inr ⟨_, _, descend_succ_eq_failed.mpr
      (.inr (.inl ⟨some u, rfl, hnone', rfl, rfl⟩)), by simp [Scan.length]⟩⟩
    rintro (hawaits | hname)
    · rcases (hc.awaits_enter hnt rfl).mp hawaits with hbegins' | hawaits
      · exact hbegins hbegins'
      · exact not_awaits_nil hawaits
    · obtain ⟨t, ht, hname⟩ := hexpected.mp hname
      exact hbegins (hc.wellFormed.terminalName_inj ht.1 hu hname ▸ ht)

/-- **What fails at the place is read in step up to it.** -/
theorem keepsFailing_of_failed {e : ParseError} (hu : u.terminal < c.grammar.terminals.size)
    (hkind : e.kind = .parse) (fuel : Nat) : ∀ x s s' events, c.grammar.HasSymbol x →
    Scan.AgreeTo place (.token u after) s s' → c.readSymbol fuel x s = .failed e events →
    s.length = (Event.consumptions events).length + place.length →
    c.KeepsFailing u after s' e events (c.readSymbol fuel x s') := by
  induction fuel with
  | zero =>
    rintro (t | nt) s s' events hx hagree h hplace
    · exact hc.keepsFailing_of_consume hx hu hagree h hkind hplace
    · cases h
  | succ fuel ih =>
    rintro (t | nt) s s' events hx hagree h hplace
    · exact hc.keepsFailing_of_consume hx hu hagree h hkind hplace
    · rcases descend_succ_eq_failed.mp h with ⟨err, rfl, rfl, -⟩ |
        ⟨next, hpeek, hnone, rfl, rfl⟩ | ⟨next, p, later, hpeek, hp, hbody, rfl⟩
      · cases hkind
      · cases hagree with
        | token _ hs =>
          have hle := hs.length_le
          simp only [Scan.length, Event.consumptions_enter, Event.consumptions_nil,
            List.length_nil] at hplace
          omega
        | here => exact hc.keepsFailing_of_noAlternative hx hu hnone
      · have halt := hc.mem_alternatives_of_select hp
        have hkeeps := hc.keepsFailing_of_readAll ih
          (fun y hy => hc.wellFormed.hasSymbol_of_mem_body halt hy) hagree hbody
          (by simpa using hplace)
        rw [Event.consumptions_enter] at hplace
        cases hagree with
        | @token t t' m m' hterminal hs =>
          obtain rfl : next = some t := (Except.ok.inj hpeek).symm
          rw [production?_congr hterminal] at hp
          rw [readSymbol, descend_succ_of_production? rfl hp]
          refine hkeeps.enter ?_ _ _
          intro hlater
          have hle := hs.length_le
          rw [hlater, Scan.length, List.length_nil] at hplace
          omega
        | here =>
          have hlater : Event.consumptions later = [] := List.length_eq_zero_iff.mp (by omega)
          have hselect := hc.select_epsilon_of_not_consumes fuel hpeek hp
            (by rw [hbody, Outcome.consumes_failed, hlater]; simp)
          obtain ⟨-, -, hvanishes⟩ := hc.select_epsilon hselect
          rcases leaves_of_readAll (fun m hm => hc.leaves_of_vanishes fuel hpeek hm) hvanishes with
            hex | ⟨v, events', hok, -⟩
          · rw [hbody] at hex
            cases hex
          · rw [hbody] at hok
            cases hok

end Coherent

end Runs

end Compiled

end PredictiveParsing
