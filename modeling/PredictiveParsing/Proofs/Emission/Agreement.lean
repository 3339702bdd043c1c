import Mathlib.Data.List.Find
import PredictiveParsing.Proofs.Emission.Cursor
import PredictiveParsing.Proofs.Parse.Termination
import PredictiveParsing.Proofs.Tree.Value

/-!
# Emitted parsers do what parsing does

The routines of an emitted parser know names only, and they leave out what cannot be chosen. All
names in a grammar are different, so a name in a list of tokens says the same as a number in a
lookahead set, and an alternative that is left out would not be chosen either. So a routine takes
the body of the production that the nonterminal takes, and call by call both parsers come to the
same, failures and reports included.

## Main definitions

* `Routine.body?`: the body that a routine runs
* `ParserModule.takeStep`: what a routine does in one step
* `Value.Printed`: the values of emitted parsers

## Main results

* `Compiled.Coherent.body?_routine`: a routine runs the body of the production that is taken
* `Compiled.Coherent.call_agrees`: the calls of both parsers come to the same
* `Compiled.parserModule_agrees`: so do their runs on any text
-/

namespace PredictiveParsing

/-! ## Messages -/

namespace ParseError

theorem message_unexpectedToken (line : Nat) (expected : String) (found : Found) :
    (unexpectedToken line expected found).message = "Parse Error, line " ++ toString line ++
      ": Expected token " ++ expected ++ ", but found token " ++ found.describe :=
  rfl

theorem message_noAlternative (line : Nat) (nonterminal : String) (expected : List (List String))
    (found : Found) : (noAlternative line nonterminal expected found).message =
      "Parse Error, line " ++ toString line ++ ": while parsing " ++ nonterminal ++
      " expected one of " ++ describeAlternatives expected ++ ", but found token " ++
      found.describe :=
  rfl

theorem message_trailingInput (line : Nat) (found : Found) :
    (trailingInput line found).message = "Parse Error, line " ++ toString line ++
      ": Couldn't parse all of input. Next token: " ++ found.describe :=
  rfl

theorem failure_unexpectedToken (cursor : Cursor) (expected name text : String) :
    (unexpectedToken cursor.line expected ⟨name, text⟩).failure = cursor.failure .parse
      ("Expected token " ++ expected ++ ", but found token " ++ name ++ ":" ++ text) := by
  have hlead : ": Expected token " = ": " ++ "Expected token " := by decide
  refine congrArg (ParserFailure.mk .parse cursor.line) ?_
  rw [message_unexpectedToken, Found.describe, hlead]
  simp only [String.append_assoc]

theorem failure_unexpectedEnd (cursor : Cursor) (expected : String) :
    (unexpectedToken cursor.line expected (.ofToken none)).failure = cursor.failure .parse
      ("Expected token " ++ expected ++ ", but found token EOF:") := by
  have hfound : ", but found token EOF:" = ", but found token " ++ "EOF" ++ ":" ++ "" := by decide
  rw [hfound, Found.ofToken, Found.endName, failure_unexpectedToken]
  simp only [String.append_assoc]

theorem failure_noAlternative (cursor : Cursor) {next : Option Token}
    (h : cursor.lookahead = next.map Token.named) (nonterminal : String)
    (expected : List (List String)) :
    (noAlternative cursor.line nonterminal expected (.ofToken next)).failure =
      cursor.noAlternative nonterminal expected := by
  have hlead : ": while parsing " = ": " ++ "while parsing " := by decide
  have hopen : " expected one of [" = " expected one of " ++ "[" := by decide
  have hclose : "], but found token " = "]" ++ ", but found token " := by decide
  refine congrArg (ParserFailure.mk .parse cursor.line) ?_
  rw [message_noAlternative, describeAlternatives, hlead, hopen, hclose, h]
  cases next with
  | none =>
    have hend : "EOF:" = "EOF" ++ ":" ++ "" := by decide
    simp only [String.append_assoc, Option.map_none, Found.ofToken, Found.describe,
      Found.endName, hend]
  | some t =>
    simp only [String.append_assoc, Option.map_some, Found.ofToken, Found.describe, Token.named]

theorem failure_trailingInput (cursor : Cursor) (name text : String) :
    (trailingInput cursor.line ⟨name, text⟩).failure = cursor.failure .trailingInput
      ("Couldn't parse all of input. Next token: " ++ name ++ ":" ++ text) := by
  have hlead : ": Couldn't parse all of input. Next token: " =
      ": " ++ "Couldn't parse all of input. Next token: " := by decide
  refine congrArg (ParserFailure.mk .trailingInput cursor.line) ?_
  rw [message_trailingInput, Found.describe, hlead]
  simp only [String.append_assoc]

end ParseError

/-! ## The parts of a routine -/

/-- **The body that a routine runs**, by the name of the next token. -/
def Routine.body? (r : Routine) (next : Option String) : Option RoutineBody :=
  match r.branch? next with
  | some branch => some branch.body
  | none =>
    match r.fallback with
    | .epsilon body => some body
    | .fail _ => none

/-- The tokens that a routine lists if it runs no body. -/
def Routine.expected (r : Routine) : List (List String) :=
  match r.fallback with
  | .epsilon _ => []
  | .fail expected => expected

namespace ParserModule

/-- **What a routine does in one step**, with at most `fuel` nested calls. -/
def takeStep (m : ParserModule) (lexicon : Lexicon) (fuel : Nat) :
    RoutineStep → CursorReading Value
  | .consume token => Cursor.consume lexicon token
  | .call nonterminal => m.call lexicon fuel nonterminal

/-- **A call of a routine**: it peeks, chooses a body and runs it. -/
theorem call_succ {m : ParserModule} {lexicon : Lexicon} {fuel : Nat} {nonterminal : String}
    {r : Routine} (hr : m.target? nonterminal = some r) (cursor : Cursor) :
    m.call lexicon (fuel + 1) nonterminal cursor =
      (cursor.enter lexicon r.nonterminal).bind fun next cursor =>
        match r.body? next with
        | some body =>
          (takeSteps (m.takeStep lexicon fuel) body.steps cursor).map body.result.value
        | none => .failed (cursor.noAlternative r.nonterminal r.expected) [] := by
  unfold call
  rw [hr]
  refine congrArg (Outcome.bind _) (funext fun next => funext fun cursor => ?_)
  have htake {take : RoutineStep → CursorReading Value}
      (h : ∀ step, take step = m.takeStep lexicon fuel step) (body : RoutineBody) :
      (takeSteps take body.steps cursor).map body.result.value =
        (takeSteps (m.takeStep lexicon fuel) body.steps cursor).map body.result.value := by
    rw [funext h]
  unfold Routine.body? Routine.expected
  cases r.branch? next with
  | some branch => exact htake (by rintro (_ | _) <;> rfl) branch.body
  | none =>
    cases r.fallback with
    | epsilon body => exact htake (by rintro (_ | _) <;> rfl) body
    | fail expected => rfl

end ParserModule

/-! ## The routines of a grammar -/

/-- A list of names says the same as a lookahead set. -/
theorem Grammar.HasToken.contains_names {g : Grammar} {t : Token} (ht : g.HasToken t)
    (wf : g.WellFormed) {s : LookaheadSet} (hsize : s.size = g.terminals.size) :
    (s.names g.terminalNames).contains t.name = s.hasTerminal t.terminal := by
  rw [Bool.eq_iff_iff, List.contains_iff_mem, LookaheadSet.hasTerminal_iff]
  simp only [LookaheadSet.names, List.mem_filterMap, LookaheadSet.mem_terminals, hsize]
  constructor
  · rintro ⟨u, ⟨hu, hlt⟩, hname⟩
    have huname : g.terminalName u = g.terminalName t.terminal := by
      rw [← ht.name]
      simpa [Grammar.terminalNames, Grammar.terminalName, hlt] using hname
    exact wf.terminalName_inj hlt ht.lt huname ▸ hu
  · intro hmem
    refine ⟨t.terminal, ⟨hmem, ht.lt⟩, ?_⟩
    rw [ht.name]
    simp [Grammar.terminalNames, Grammar.terminalName, ht.lt]

/-- The values of emitted parsers are those of parsing without positions. -/
abbrev Value.Printed (v w : Value) : Prop := w = v.withoutPositions

namespace Compiled

/-- **Both parsers take the same steps**, if their calls agree. -/
theorem takeSteps_agrees {c : Compiled} {m : ParserModule} {fuel : Nat} {xs : List Symbol}
    (hcall : ∀ x ∈ xs, ∀ s cursor, cursor.Shows c.grammar s →
      Outcome.Agrees c.grammar Value.Printed (c.readSymbol fuel x s)
        (m.takeStep c.grammar.lexicon fuel (c.routineStep x) cursor))
    {s : Scan} {cursor : Cursor} (hs : cursor.Shows c.grammar s) :
    Outcome.Agrees c.grammar (fun vs ws => ws = vs.map Value.withoutPositions)
      (readAll (c.readSymbol fuel) xs s)
      (takeSteps (m.takeStep c.grammar.lexicon fuel)
        (xs.map c.routineStep) cursor) := by
  induction xs generalizing s cursor with
  | nil => exact .ok [] rfl hs
  | cons x xs ih =>
    refine (hcall x List.mem_cons_self s cursor hs).bind fun v w r cursor' hw hr => ?_
    refine (ih (fun y hy => hcall y (List.mem_cons_of_mem _ hy)) hr).map fun vs ws hws => ?_
    rw [hw, hws, List.map_cons]

end Compiled

namespace Compiled.Coherent

variable {c : Compiled} (hc : c.Coherent)

include hc

/-- The branch for a token is the one of the alternative that is chosen for it. An alternative
that begins with no token is not chosen for any. -/
theorem branch?_routine (nt : Nat) {next : Option Token}
    (hnext : ∀ t, next = some t → c.grammar.HasToken t) :
    (c.routine nt).branch? (next.map (·.name)) =
      (((next.map (·.terminal)).bind fun t =>
        (c.prediction.choice nt).prospects.find? (·.lookahead.hasTerminal t)).map fun prospect =>
          ⟨prospect.lookahead.names c.grammar.terminalNames,
            c.routineBody prospect.production⟩) := by
  cases next with
  | none => rfl
  | some t =>
    have ht := hnext t rfl
    rw [Routine.branch?, routine]
    simp only [Option.map_some, Option.bind_some, List.find?_map, List.find?_filter]
    refine congrArg (Option.map _) (List.find?_congr fun prospect hprospect => ?_)
    rw [hc.choice_eq, Prediction.choiceOf, List.mem_map] at hprospect
    obtain ⟨p, hp, rfl⟩ := hprospect
    set lookahead := (c.analysis.first.production p).withoutEpsilon
    have hcontains : (lookahead.names c.grammar.terminalNames).contains t.name =
        lookahead.hasTerminal t.terminal :=
      ht.contains_names hc.wellFormed (hc.size_production hp)
    simp only [Function.comp_apply, hcontains]
    cases hmem : lookahead.hasTerminal t.terminal with
    | false => simp
    | true =>
      rw [LookaheadSet.hasTerminal_iff, IndexSet.mem_def] at hmem
      simpa [LookaheadSet.isEmpty, IndexSet.isEmpty] using List.ne_nil_of_mem hmem

/-- **A routine runs the body of the production that is taken**, and lists the tokens of the
alternatives if none is. -/
theorem body?_routine (nt : Nat) {next : Option Token}
    (hnext : ∀ t, next = some t → c.grammar.HasToken t) :
    (c.routine nt).body? (next.map (·.name)) = (c.production? nt next).map c.routineBody ∧
      (c.production? nt next = none →
        (c.routine nt).expected = (c.prediction.choice nt).expected c.grammar) := by
  have hbranch := hc.branch?_routine nt hnext
  unfold Routine.body? production? Choice.select
  rw [hbranch]
  cases (next.map (·.terminal)).bind fun t =>
      (c.prediction.choice nt).prospects.find? (·.lookahead.hasTerminal t) with
  | some prospect => exact ⟨rfl, by rintro ⟨⟩⟩
  | none =>
    rw [Routine.expected, routine]
    cases (c.prediction.choice nt).epsilon with
    | some p => exact ⟨rfl, by rintro ⟨⟩⟩
    | none => exact ⟨rfl, fun _ => rfl⟩

/-- A reachable nonterminal has its own routine. -/
theorem target?_eq (header : Option String) (withMain : Bool) {nt : Nat}
    (hnt : nt ∈ c.grammar.reachable) :
    (c.parserModule header withMain).target? (c.grammar.nonterminalName nt) =
      some (c.routine nt) := by
  obtain ⟨m, hm⟩ : ∃ m, c.grammar.reachable.find?
      (fun m => c.grammar.nonterminalName m == c.grammar.nonterminalName nt) = some m :=
    Option.isSome_iff_exists.mp (List.find?_isSome.mpr ⟨nt, hnt, beq_self_eq_true _⟩)
  have hname := List.find?_some hm
  obtain rfl : m = nt := hc.wellFormed.nonterminalName_inj
    (hc.wellFormed.lt_of_mem_reachable (List.mem_of_find?_eq_some hm))
    (hc.wellFormed.lt_of_mem_reachable hnt) (eq_of_beq hname)
  rw [ParserModule.target?, ParserModule.routine?, parserModule, hc.reachable, List.find?_map]
  show (Option.map _ (c.grammar.reachable.find?
    (fun n => c.grammar.nonterminalName n == c.grammar.nonterminalName m))).or _ = _
  rw [hm]
  rfl

/-! ## Calls in step -/

/-- What emitted parsers make of the values of a production. -/
theorem value_routineResult {nt p : Nat} (hp : p ∈ c.grammar.alternatives nt)
    (values : List Value) : (c.routineResult p).value (values.map Value.withoutPositions) =
      (c.shapes.build p values).withoutPositions := by
  obtain ⟨production, -, hget, -⟩ := hc.wellFormed.exists_production hp
  obtain ⟨shape, hshape⟩ := Shapes.exists_shape hget
  rw [← hc.shapes] at hshape
  rw [Shapes.build, Shapes.build?, hshape, routineResult, hshape, Option.map_some,
    Option.getD_some, Shapes.withoutPositions_buildShape]
  cases shape <;> rfl

/-- **Both parsers consume the same tokens.** -/
theorem consume_agrees {t : Nat} (ht : t < c.grammar.terminals.size) {s : Scan} {cursor : Cursor}
    (hs : cursor.Shows c.grammar s) : Outcome.Agrees c.grammar Value.Printed (c.consume t s)
      (cursor.consume c.grammar.lexicon (c.grammar.terminalName t)) := by
  rw [Cursor.consume]
  rcases hs.peek hc.wellFormed with ⟨e, rfl, hpeek⟩ | ⟨next, cursor', hpeek, hpeeked⟩
  · rw [hpeek]
    exact .failed (.scan e) []
  · rw [hpeek, Outcome.bind]
    cases hpeeked with
    | done line =>
      have hfailure :=
        ParseError.failure_unexpectedEnd ⟨[], line, none⟩ (c.grammar.terminalName t)
      simp only [consume, Option.map_none, ← hfailure]
      exact .failed _ []
    | @token token htoken rest =>
      -- different terminals have different names, so comparing names is comparing numbers
      have hname : token.named.name = c.grammar.terminalName t ↔ token.terminal = t :=
        ⟨fun h => hc.wellFormed.terminalName_inj htoken.lt ht (htoken.name.symm.trans h),
          fun h => h ▸ htoken.name⟩
      have hfailure := ParseError.failure_unexpectedToken
        ⟨rest, token.line, some token.named⟩ (c.grammar.terminalName t) token.name token.text
      simp only [consume, Option.map_some, hname]
      split
      · exact .ok _ rfl (.unread rest token.line)
      · simp only [Token.named] at hfailure ⊢
        rw [← hfailure]
        exact .failed _ []

/-- **The calls of both parsers come to the same.** -/
theorem call_agrees (header : Option String) (withMain : Bool) {fuel nt : Nat}
    (hnt : nt ∈ c.grammar.reachable) {s : Scan} {cursor : Cursor}
    (hs : cursor.Shows c.grammar s) : Outcome.Agrees c.grammar Value.Printed (c.descend fuel nt s)
      ((c.parserModule header withMain).call c.grammar.lexicon fuel
        (c.grammar.nonterminalName nt) cursor) := by
  -- Induction on the nested calls: both parsers spend one for each nonterminal.
  induction fuel generalizing nt s cursor with
  | zero => exact .exhausted
  | succ fuel ih =>
    rw [descend_succ, ParserModule.call_succ (hc.target?_eq header withMain hnt)]
    rcases hs.peek hc.wellFormed with ⟨e, rfl, hpeek⟩ | ⟨next, cursor', hpeek, hpeeked⟩
    · rw [Cursor.enter, hpeek]
      exact .failed (.scan e) []
    · have htoken : ∀ t, next = some t → c.grammar.HasToken t := by
        rintro t rfl
        exact hpeeked.hasToken
      obtain ⟨hbody, hexpected⟩ := hc.body?_routine nt htoken
      rw [Cursor.enter_eq hpeek, hpeeked.peek_eq, ← hpeeked.line_eq, Outcome.bind]
      refine Outcome.Agrees.after ?_ [.enter (c.grammar.nonterminalName nt) cursor'.line]
      rw [hbody]
      cases hp : c.production? nt next with
      | none =>
        have hfailure := ParseError.failure_noAlternative cursor' hpeeked.lookahead_eq
          (c.grammar.nonterminalName nt) ((c.prediction.choice nt).expected c.grammar)
        rw [Option.map_none, hexpected hp]
        exact hfailure ▸ .failed _ []
      | some p =>
        have hpalt := hc.mem_alternatives_of_select hp
        have hstep : ∀ x ∈ c.grammar.body p, ∀ s cursor, cursor.Shows c.grammar s →
            Outcome.Agrees c.grammar Value.Printed (c.readSymbol fuel x s)
              ((c.parserModule header withMain).takeStep c.grammar.lexicon fuel
                (c.routineStep x) cursor) := by
          rintro (t | m) hx s cursor hs
          · exact hc.consume_agrees (hc.wellFormed.hasSymbol_of_mem_body hpalt hx) hs
          · exact ih (hc.wellFormed.mem_reachable_of_mem_body hnt hpalt hx) hs
        refine (takeSteps_agrees hstep hpeeked.shows).map fun vs ws hws => ?_
        rw [hws]
        exact hc.value_routineResult hpalt vs

/-- **Both parsers check for the end of the text.** -/
theorem finish_agrees {v w : Value} (hw : Value.Printed v w) {s : Scan} {cursor : Cursor}
    (hs : cursor.Shows c.grammar s) : Outcome.Agrees c.grammar Value.Printed (readEnd v s)
      (cursor.finish c.grammar.lexicon w) := by
  rw [Cursor.finish]
  rcases hs.peek hc.wellFormed with ⟨e, rfl, hpeek⟩ | ⟨next, cursor', hpeek, hpeeked⟩
  · rw [hpeek]
    exact .failed (.scan e) []
  · have hshows := hpeeked.shows
    rw [hpeek, Outcome.bind]
    cases hpeeked with
    | done line => exact .ok [] hw hshows
    | @token token htoken rest =>
      have hfailure := ParseError.failure_trailingInput
        ⟨rest, token.line, some token.named⟩ token.name token.text
      simp only [Option.map_some, Token.named] at hfailure ⊢
      rw [← hfailure]
      exact .failed _ []

/-- **Both parsers come to the same on any text**, and neither needs more nested calls than it is
given. -/
theorem run_agrees (header : Option String) (withMain : Bool) (text : String) :
    Outcome.Agrees c.grammar Value.Printed (c.parse text)
      ((c.parserModule header withMain).run c.grammar.lexicon text) := by
  have hshows : (Cursor.start text.toList).Shows c.grammar (c.grammar.lexicon.scan text.toList) :=
    .unread text.toList 1
  set s := c.grammar.lexicon.scan text.toList with hs
  set fuel := (c.parserModule header withMain).callBound text.toList.length with hfuel
  have henough : (s.length + 1) * c.grammar.reachable.length ≤ fuel := by
    have hlength : s.length ≤ text.toList.length := Lexicon.length_scanFrom_le 1 text.toList
    have hroutines : (c.parserModule header withMain).routines.length =
        c.grammar.reachable.length := by
      rw [parserModule, List.length_map, hc.reachable]
    rw [hfuel, ParserModule.callBound, hroutines]
    exact Nat.mul_le_mul (Nat.succ_le_succ hlength) (Nat.le_succ _)
  have hsame : c.descend (c.callBound s.length) c.grammar.start s =
      c.descend fuel c.grammar.start s := by
    have hbound : (s.length + 1) * c.grammar.reachable.length ≤ c.callBound s.length :=
      Nat.mul_le_mul_left _ (Nat.le_succ_of_le hc.wellFormed.length_reachable_le)
    have hleast : c.descend ((s.length + 1) * c.grammar.reachable.length) c.grammar.start s ≠
        .exhausted := hc.start_ne_exhausted (Nat.le_refl _)
    rw [descend_of_le hbound hleast, descend_of_le henough hleast]
  rw [parse, parseScan, ← hs, hsame]
  exact (hc.call_agrees header withMain hc.wellFormed.start_mem_reachable hshows).bind
    fun v w s cursor hw hs => hc.finish_agrees hw hs

end Compiled.Coherent

/-! ## Runs in step -/

namespace Compiled

/-- **Emitted parsers do what parsing does.** For every grammar that compiles and every text, the
emitted parser and the parse both succeed or both fail. If they succeed the values differ in the
positions of discarded parts only, and have the same written form; if they fail the kind, the line
and the message are the same. Either way they report the same events. -/
theorem parserModule_agrees {engine : PatternEngine} {d : Declarations} {g : Grammar}
    {c : Compiled} (hbuild : d.build engine = .ok g) (hcompile : g.compile = .ok c)
    (header : Option String) (withMain : Bool) (text : String) :
    ∃ lexicon, (c.parserModule header withMain).lexicon engine = .ok lexicon ∧
      ((∃ v rest cursor events, c.parse text = .ok v rest events ∧
          (c.parserModule header withMain).run lexicon text =
            .ok v.withoutPositions cursor events ∧
          v.withoutPositions.describe = v.describe) ∨
        ∃ e events, c.parse text = .failed e events ∧
          (c.parserModule header withMain).run lexicon text =
            .failed ⟨e.kind, e.line, e.message⟩ events) := by
  obtain ⟨rfl, hc⟩ := coherent hbuild hcompile
  refine ⟨c.grammar.lexicon, ?_, ?_⟩
  · rw [ParserModule.lexicon, parserModule, Declarations.mapM_rules_of_build hbuild]
    rfl
  · have hagrees := hc.run_agrees header withMain text
    rcases hagrees.ok_or_failed (hc.parseScan_ne_exhausted _) with
      ⟨v, w, rest, cursor, events, hparse, hrun, rfl⟩ | ⟨e, events, hparse, hrun⟩
    · exact .inl ⟨v, rest, cursor, events, hparse, hrun, v.describe_withoutPositions⟩
    · exact .inr ⟨e, events, hparse, hrun⟩

/-- A list in parentheses that is not closed is refused in the same words. -/
theorem parserModule_agrees_nested : ∃ (g : Grammar) (c : Compiled) (lexicon : Lexicon)
    (e : ParseError) (events : List Event),
    Samples.nested.build Pattern.engine = .ok g ∧ g.compile = .ok c ∧
    (c.parserModule none true).lexicon Pattern.engine = .ok lexicon ∧
    c.parse "a ( a" = .failed e events ∧
    (c.parserModule none true).run lexicon "a ( a" =
      .failed ⟨e.kind, e.line, e.message⟩ events := by
  have hrun : ((Samples.nested.build Pattern.engine).toOption.bind fun g =>
      g.compile.toOption.map fun c => match c.parse "a ( a" with
        | .failed e _ => e.expectedTokens
        | _ => []) = some [")"] := by
    decide +kernel
  simp only [Option.bind_eq_some_iff, Option.map_eq_some_iff, toOption_eq_some] at hrun
  obtain ⟨g, hbuild, c, hcompile, hrun⟩ := hrun
  obtain ⟨lexicon, hlexicon, ⟨v, rest, cursor, events, hparse, -⟩ | ⟨e, events, hparse, hsame⟩⟩ :=
    parserModule_agrees hbuild hcompile none true "a ( a"
  · rw [hparse] at hrun
    cases hrun
  · exact ⟨g, c, lexicon, e, events, hbuild, hcompile, hlexicon, hparse, hsame⟩

end Compiled

end PredictiveParsing
