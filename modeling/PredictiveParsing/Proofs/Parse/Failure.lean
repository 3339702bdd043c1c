import PredictiveParsing.Proofs.Parse.Termination

/-!
# Where parses fail

A parse that fails has consumed some tokens and complains of what comes next: it reports the item
of the scan behind the consumed tokens, with its line. What has been consumed stands at the
beginning of a sentential form, since each call continues a derivation from the left: the tokens
of the trees that were read, and then the symbols that still had to be.

## Main definitions

* `ParseError.found?`, `ParseError.Reports`: what a failure says about the place
* `Event.consumptions`: the tokens that have been consumed, by their events
* `Compiled.FailsAt`: a failure at a place of a scan

## Main results

* `Compiled.Coherent.exists_failsAt`: every failure of a call has its place
* `Compiled.Coherent.parse_failsAt`: so has every failure of a parse
-/

namespace PredictiveParsing

open SyntaxTree (yieldAll traceAll)

/-- What was found instead of what was asked for; a failure to scan finds nothing. -/
def ParseError.found? : ParseError → Option Found
  | scan _ => none
  | unexpectedToken _ _ found => some found
  | noAlternative _ _ _ found => some found
  | trailingInput _ found => some found

/-- **A failure reports the first item** of what is left of a scan, with its line. -/
def ParseError.Reports (e : ParseError) (rest : Scan) : Prop :=
  match rest.peek with
  | .error err => e = .scan err
  | .ok next => e.found? = some (.ofToken next) ∧ e.line = rest.line

theorem ParseError.Reports.of_peek {e : ParseError} {rest : Scan} {next : Option Token}
    (hpeek : rest.peek = .ok next) (hfound : e.found? = some (.ofToken next))
    (hline : e.line = rest.line) : e.Reports rest := by
  rw [Reports, hpeek]
  exact ⟨hfound, hline⟩

/-! ## Consumed tokens -/

/-- The name and the text of the token that an event consumes. -/
def Event.consumption? : Event → Option (String × String)
  | enter _ _ => none
  | consume token text => some (token, text)

/-- The names and texts of the tokens that have been consumed. -/
def Event.consumptions (events : List Event) : List (String × String) :=
  events.filterMap Event.consumption?

/-- What is reported of a token when it is consumed. -/
def Token.report (t : Token) : String × String := (t.name, t.text)

namespace Event

@[simp] theorem consumptions_nil : consumptions [] = [] := rfl

@[simp] theorem consumptions_append (events events' : List Event) :
    consumptions (events ++ events') = consumptions events ++ consumptions events' :=
  List.filterMap_append

@[simp] theorem consumptions_enter (name : String) (line : Nat) (events : List Event) :
    consumptions (.enter name line :: events) = consumptions events := rfl

@[simp] theorem consumptions_consume (name text : String) (events : List Event) :
    consumptions (.consume name text :: events) = (name, text) :: consumptions events := rfl

end Event

/-- A walk through a forest consumes its tokens. -/
theorem Grammar.IsForest.consumptions_traceAll {g : Grammar} {xs : List Symbol}
    {ts : List SyntaxTree} (h : g.IsForest xs ts) (after : Scan) :
    Event.consumptions (traceAll g ts after) = (yieldAll ts).map Token.report := by
  induction h generalizing after with
  | nil => rfl
  | leaf t _ ih => simp [traceAll, SyntaxTree.trace, yieldAll, SyntaxTree.yield, ih, Token.report]
  | node _ _ _ ihinner ihrest =>
    simp [traceAll, SyntaxTree.trace, yieldAll, SyntaxTree.yield, ihinner, ihrest]

/-! ## The place of a failure -/

namespace Compiled

variable {c : Compiled}

/-- **Reading symbols fails at a place** of a scan: the tokens before the place have been consumed,
and the symbols derive a sequence that begins with them; the failure reports what stands there. -/
structure FailsAt (c : Compiled) (xs : List Symbol) (s : Scan) (consumed : List Token)
    (rest : Scan) (e : ParseError) (events : List Event) : Prop where
  scan_eq : s = Scan.prepend consumed rest
  consumptions_eq : Event.consumptions events = consumed.map Token.report
  reports : e.Reports rest
  derives : ∃ α, c.grammar.Derives xs ((consumed.map fun t => .terminal t.terminal) ++ α)

namespace FailsAt

variable {xs : List Symbol} {s rest : Scan} {consumed : List Token} {e : ParseError}
  {events : List Event}

/-- A failure before anything has been consumed. -/
theorem here (xs : List Symbol) (hevents : Event.consumptions events = []) (he : e.Reports s) :
    c.FailsAt xs s [] s e events :=
  ⟨rfl, by simpa using hevents, he, xs, .refl xs⟩

/-- Symbols behind those that fail have not been reached. -/
theorem append (h : c.FailsAt xs s consumed rest e events) (ys : List Symbol) :
    c.FailsAt (xs ++ ys) s consumed rest e events := by
  obtain ⟨α, hα⟩ := h.derives
  refine ⟨h.scan_eq, h.consumptions_eq, h.reports, α ++ ys, ?_⟩
  simpa using hα.append_right ys

/-- A forest that has been read comes before the tokens of a later failure. -/
theorem behind {ys : List Symbol} {ts : List SyntaxTree} (hts : c.grammar.IsForest ys ts)
    (h : c.FailsAt xs s consumed rest e events) :
    c.FailsAt (ys ++ xs) (Scan.prepend (yieldAll ts) s) (yieldAll ts ++ consumed) rest e
      (traceAll c.grammar ts s ++ events) := by
  obtain ⟨α, hα⟩ := h.derives
  refine ⟨by rw [h.scan_eq, Scan.prepend_append], ?_, h.reports, α, ?_⟩
  · rw [Event.consumptions_append, hts.consumptions_traceAll, h.consumptions_eq, List.map_append]
  · simpa using hts.derives.append hα

/-- The failure of a body is one of its head. -/
theorem head {p : Production} (hp : p ∈ c.grammar.productions)
    (h : c.FailsAt p.body s consumed rest e events) (name : String) (line : Nat) :
    c.FailsAt [.nonterminal p.head] s consumed rest e (.enter name line :: events) := by
  obtain ⟨α, hα⟩ := h.derives
  exact ⟨h.scan_eq, by simpa using h.consumptions_eq, h.reports, α,
    (Grammar.Derives.of_production hp).trans hα⟩

end FailsAt

namespace Coherent

variable (hc : c.Coherent)

include hc

/-- If failures of symbols have their places, so have failures of sequences. -/
theorem exists_failsAt_of_readAll {fuel : Nat} (hread : ∀ x s e events,
      c.readSymbol fuel x s = .failed e events →
      ∃ consumed rest, c.FailsAt [x] s consumed rest e events)
    {xs : List Symbol} {s : Scan} {e : ParseError} {events : List Event}
    (h : readAll (c.readSymbol fuel) xs s = .failed e events) :
    ∃ consumed rest, c.FailsAt xs s consumed rest e events := by
  induction xs generalizing s events with
  | nil => cases h
  | cons x xs ih =>
    rcases readAll_cons_eq_failed.mp h with hx | ⟨v, r, before, after, hx, hxs, rfl⟩
    · obtain ⟨consumed, rest, hfails⟩ := hread x s e events hx
      exact ⟨consumed, rest, hfails.append xs⟩
    · obtain ⟨consumed, rest, hfails⟩ := ih hxs
      obtain ⟨tree, htree, -, rfl, rfl⟩ := hc.readsTrees fuel x s v r before hx
      have hbehind := hfails.behind htree
      simp only [yieldAll, traceAll, Scan.prepend_nil, List.append_nil,
        List.singleton_append] at hbehind
      exact ⟨_, rest, hbehind⟩

/-- **Every failure of a call has its place.** -/
theorem exists_failsAt (fuel : Nat) : ∀ x s e events,
    c.readSymbol fuel x s = .failed e events →
    ∃ consumed rest, c.FailsAt [x] s consumed rest e events := by
  refine readSymbol_induction (P := fun x s o => ∀ e events, o = .failed e events →
    ∃ consumed rest, c.FailsAt [x] s consumed rest e events) ?_ ?_ ?_ fuel
  · intro t s e events h
    obtain ⟨rfl, ⟨err, rfl, rfl⟩ | ⟨next, hpeek, -, rfl⟩⟩ := consume_eq_failed.mp h
    · exact ⟨[], _, .here _ rfl rfl⟩
    · exact ⟨[], s, .here _ rfl (.of_peek hpeek rfl rfl)⟩
  · intro nt s e events h
    cases h
  · intro fuel nt s ih e events h
    rcases descend_succ_eq_failed.mp h with ⟨err, rfl, rfl, rfl⟩ |
      ⟨next, hpeek, -, rfl, rfl⟩ | ⟨next, p, later, -, hp, hbody, rfl⟩
    · exact ⟨[], _, .here _ rfl rfl⟩
    · exact ⟨[], s, .here _ rfl (.of_peek hpeek rfl rfl)⟩
    · obtain ⟨production, hmem, -, rfl, hproduction⟩ :=
        hc.wellFormed.exists_production (hc.mem_alternatives_of_select hp)
      rw [hproduction] at hbody
      obtain ⟨consumed, rest, hfails⟩ := hc.exists_failsAt_of_readAll ih hbody
      exact ⟨consumed, rest, hfails.head hmem _ _⟩

/-- **Every failure of a parse has its place**, also behind the end of what has been read. -/
theorem parse_failsAt {text : String} {e : ParseError} {events : List Event}
    (h : c.parse text = .failed e events) : ∃ consumed rest,
      c.FailsAt [.nonterminal c.grammar.start] (c.grammar.lexicon.scan text.toList) consumed rest
        e events := by
  rcases parse_eq_failed.mp h with hstart | ⟨v, rest, hstart, hend⟩
  · exact hc.exists_failsAt _ _ _ _ _ hstart
  · obtain ⟨tree, htree, -, hscan, rfl⟩ :=
      hc.readsTrees _ _ _ _ _ _ hstart
    refine ⟨tree.yield, rest, hscan, ?_, ?_, [], ?_⟩
    · simpa [traceAll, yieldAll] using htree.consumptions_traceAll rest
    · cases rest with
      | token token rest =>
        cases hend
        exact ⟨rfl, rfl⟩
      | done line => cases hend
      | stuck err =>
        cases hend
        rfl
    · simpa using htree.derives

end Coherent

end Compiled

end PredictiveParsing
