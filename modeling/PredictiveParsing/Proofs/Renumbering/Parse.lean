import PredictiveParsing.Emission.ParserModule
import PredictiveParsing.Proofs.Parse.Termination
import PredictiveParsing.Proofs.Renumbering.Follow
import PredictiveParsing.Proofs.Tree.Shape

/-!
# Parsing with grammars that are alike

What can come first is the same for matching productions, so nonterminals that are related choose
matching alternatives, and clash in the same way. The numbers of types of nodes depend on all
productions, but what a production makes of its values depends on its own binding only. So calls of
related nonterminals come to the same, event by event, and so do the routines of emitted parsers.

The bound on the nested calls differs, since it is made from the number of nonterminals; but it is
enough for both.

## Main definitions

* `Binding.result`: what emitted parsers make of the values of a production

## Main results

* `Compiled.Coherent.conflicts_eq`: the clashes are described in the same words
* `Compiled.Coherent.routine_eq`: the routines of related nonterminals are the same
* `Compiled.Coherent.descend_eq`: calls of related nonterminals come to the same
* `Compiled.Coherent.parse_eq`: so do parses
-/

namespace PredictiveParsing

/-! ## Related lists -/

section Lists

variable {α β γ : Type} {R : α → β → Prop} {l : List α} {l' : List β}

theorem flatMap_eq_flatMap_of_forall₂ {f : α → List γ} {f' : β → List γ} (hl : List.Forall₂ R l l')
    (hf : ∀ a b, R a b → f a = f' b) : l.flatMap f = l'.flatMap f' := by
  rw [List.flatMap_def, List.flatMap_def, map_eq_map_of_forall₂ hl hf]

theorem rel_find? {p : α → Bool} {p' : β → Bool} (hl : List.Forall₂ R l l')
    (hp : ∀ a b, R a b → p a = p' b) : Option.Rel R (l.find? p) (l'.find? p') := by
  induction hl with
  | nil => exact .none
  | @cons a b l l' hab _ ih =>
    rw [List.find?_cons, List.find?_cons, hp a b hab]
    split
    · exact .some hab
    · exact ih

end Lists

/-! ## What productions make -/

/-- What emitted parsers make of the values of a production, read off its binding. -/
def Binding.result : Option Binding → RoutineResult
  | none => .tuple
  | some .suppressed => .suppressed
  | some (.node nodeType fields) => .node nodeType (Shapes.keysOf 0 fields)

theorem Production.value_congr {p p' : Production} (h : p.binding = p'.binding)
    (values : List Value) : p.value values = p'.value values := by
  rw [value, value, h]

/-- Emitted parsers make of the values of a production what its binding says. -/
theorem Compiled.routineResult_eq_result {c : Compiled}
    (hshapes : c.shapes = .ofGrammar c.grammar) {i : Nat} {p : Production}
    (h : c.grammar.productions[i]? = some p) : c.routineResult i = Binding.result p.binding := by
  obtain ⟨shape, hshape, hbinding⟩ := Shapes.exists_isShapeOf h
  rw [← hshapes] at hshape hbinding
  rw [routineResult, hshape]
  match p.binding, hbinding with
  | none, hbinding => rw [hbinding]; rfl
  | some .suppressed, hbinding => rw [hbinding]; rfl
  | some (.node nodeType fields), ⟨n, hn, hbinding⟩ =>
    have hname : c.shapes.typeName n = nodeType := by
      rw [Shapes.typeName, ← List.getElem?_map, hn, Option.getD_some]
    rw [hbinding, ← hname]
    rfl

namespace Compiled.Coherent

theorem routineResult_eq {c : Compiled} (hc : c.Coherent) {i : Nat} {p : Production}
    (h : c.grammar.productions[i]? = some p) : c.routineResult i = Binding.result p.binding :=
  routineResult_eq_result hc.shapes h

variable {c c' : Compiled} {R : Nat → Nat → Prop} {x x' : Symbol} {nt nt' i i' j j' : Nat}
  (hc : c.Coherent) (hc' : c'.Coherent) (h : c.grammar.Alike c'.grammar R)

/-! ## Choices -/

include hc hc' h

/-- Matching productions can begin with the same. -/
theorem production_first_eq (hi : c.grammar.MatchesAt c'.grammar R i i') :
    c.analysis.first.production i = c'.analysis.first.production i' := by
  have hbody := Grammar.Alike.body hi
  obtain ⟨p, p', hp, hp', -⟩ := hi
  rw [FirstSets.production_eq hc.wellFormed hc.firstSets (Array.getElem?_eq_some_iff.mp hp).1,
    FirstSets.production_eq hc'.wellFormed hc'.firstSets (Array.getElem?_eq_some_iff.mp hp').1,
    ← h.terminals]
  exact Grammar.Alike.bodyFirst_eq (fun x x' hx => hc.first_eq hc' h hx) hbody

theorem prospects_rel (hR : R nt nt') :
    List.Forall₂ (fun q q' => c.grammar.MatchesAt c'.grammar R q.production q'.production ∧
        q.lookahead = q'.lookahead)
      (c.prediction.choice nt).prospects (c'.prediction.choice nt').prospects := by
  rw [hc.choice_eq, hc'.choice_eq]
  refine List.rel_map (fun i i' hi => ⟨hi, ?_⟩) (h.alternatives nt nt' hR)
  exact congrArg LookaheadSet.withoutEpsilon (hc.production_first_eq hc' h hi)

theorem epsilon_rel (hR : R nt nt') :
    Option.Rel (c.grammar.MatchesAt c'.grammar R) (c.prediction.choice nt).epsilon
      (c'.prediction.choice nt').epsilon := by
  rw [hc.choice_eq, hc'.choice_eq]
  refine rel_find? (h.alternatives nt nt' hR) fun i i' hi => ?_
  rw [hc.production_first_eq hc' h hi]

/-- **Related nonterminals take matching productions.** -/
theorem production?_rel (hR : R nt nt') (next : Option Token) :
    Option.Rel (c.grammar.MatchesAt c'.grammar R) (c.production? nt next)
      (c'.production? nt' next) := by
  have hepsilon := hc.epsilon_rel hc' h hR
  have hfind : Option.Rel
      (fun q q' => c.grammar.MatchesAt c'.grammar R q.production q'.production ∧
        q.lookahead = q'.lookahead)
      ((next.map (·.terminal)).bind fun t =>
        (c.prediction.choice nt).prospects.find? (·.lookahead.hasTerminal t))
      ((next.map (·.terminal)).bind fun t =>
        (c'.prediction.choice nt').prospects.find? (·.lookahead.hasTerminal t)) := by
    cases next with
    | none => exact .none
    | some t => exact rel_find? (hc.prospects_rel hc' h hR) fun q q' hq => by rw [hq.2]
  rw [production?, production?, Choice.select, Choice.select]
  generalize (next.map (·.terminal)).bind _ = found at hfind ⊢
  generalize (next.map (·.terminal)).bind _ = found' at hfind ⊢
  generalize (c.prediction.choice nt).epsilon = epsilon at hepsilon ⊢
  generalize (c'.prediction.choice nt').epsilon = epsilon' at hepsilon ⊢
  cases hfind with
  | some hq => exact .some hq.1
  | none =>
    cases hepsilon with
    | some hi => exact .some hi
    | none => exact .none

theorem expected_eq (hR : R nt nt') :
    (c.prediction.choice nt).expected c.grammar =
      (c'.prediction.choice nt').expected c'.grammar := by
  refine map_eq_map_of_forall₂ (hc.prospects_rel hc' h hR) fun q q' hq => ?_
  rw [hq.2, Grammar.terminalNames, Grammar.terminalNames, h.terminals]

/-! ## Clashes -/

omit hc hc' in
theorem describeNumbered_eq (hi : c.grammar.MatchesAt c'.grammar R i i') :
    c.grammar.describeNumbered i = c'.grammar.describeNumbered i' := by
  obtain ⟨p, p', hp, hp', hhead, hbody, hbinding⟩ := hi
  have hempty : p.body.isEmpty = p'.body.isEmpty := by
    rw [Bool.eq_iff_iff, List.isEmpty_iff_length_eq_zero, List.isEmpty_iff_length_eq_zero,
      hbody.length_eq]
  have hnames : p.body.map (fun x => " " ++ c.grammar.symbolName x) =
      p'.body.map (fun x => " " ++ c'.grammar.symbolName x) :=
    map_eq_map_of_forall₂ hbody fun x x' hx => by rw [h.symbolName_eq hx]
  rw [Grammar.describeNumbered, Grammar.describeNumbered, hp, hp', Option.map_some,
    Option.map_some, Grammar.describeProduction, Grammar.describeProduction, h.name _ _ hhead,
    hempty, hnames, hbinding]

omit hc hc' in
theorem describe_eq (hR : R nt nt') (clash : Clash) (hi : c.grammar.MatchesAt c'.grammar R i i')
    (hj : c.grammar.MatchesAt c'.grammar R j j') :
    Conflict.describe ⟨nt, clash, i, j⟩ c.grammar =
      Conflict.describe ⟨nt', clash, i', j'⟩ c'.grammar := by
  unfold Conflict.describe
  dsimp only
  rw [h.name _ _ hR, describeNumbered_eq h hi, describeNumbered_eq h hj]
  cases clash with
  | terminal t => simp only [Grammar.terminalName, h.terminals]
  | epsilon => rfl

theorem clashes_eq (hR : R nt nt') (hi : c.grammar.MatchesAt c'.grammar R i i')
    (hj : c.grammar.MatchesAt c'.grammar R j j') :
    (Prediction.clashes c.analysis.first.production nt i j).map (·.describe c.grammar) =
      (Prediction.clashes c'.analysis.first.production nt' i' j').map (·.describe c'.grammar) := by
  have hclash (clash : Clash) := describe_eq h hR clash hi hj
  unfold Prediction.clashes
  rw [hc.production_first_eq hc' h hi, hc.production_first_eq hc' h hj]
  dsimp only
  rw [List.map_append, List.map_append, List.map_map, List.map_map]
  refine congrArg₂ (· ++ ·) ?_ ?_
  · exact List.map_congr_left fun t _ => hclash (.terminal t)
  · split
    · rw [List.map_singleton, List.map_singleton, hclash .epsilon]
    · rw [List.map_nil, List.map_nil]

theorem conflictsOf_eq (hR : R nt nt') {alternatives alternatives' : List Nat}
    (hl : List.Forall₂ (c.grammar.MatchesAt c'.grammar R) alternatives alternatives') :
    (Prediction.conflictsOf c.analysis.first.production nt alternatives).map
        (·.describe c.grammar) =
      (Prediction.conflictsOf c'.analysis.first.production nt' alternatives').map
        (·.describe c'.grammar) := by
  induction hl with
  | nil => rw [Prediction.conflictsOf, Prediction.conflictsOf, List.map_nil, List.map_nil]
  | cons hi hlater ih =>
    rw [Prediction.conflictsOf, Prediction.conflictsOf, List.map_append, List.map_append, ih,
      List.map_flatMap, List.map_flatMap]
    refine congrArg (· ++ _) ?_
    exact flatMap_eq_flatMap_of_forall₂ hlater fun j j' hj => hc.clashes_eq hc' h hR hi hj

/-- **The clashes are described in the same words**, in the same order. -/
theorem conflicts_eq : c.prediction.conflicts.map (·.describe c.grammar) =
    c'.prediction.conflicts.map (·.describe c'.grammar) := by
  rw [hc.prediction, hc'.prediction]
  show (c.analysis.reachable.flatMap _).map _ = (c'.analysis.reachable.flatMap _).map _
  rw [hc.reachable, hc'.reachable, List.map_flatMap, List.map_flatMap]
  exact flatMap_eq_flatMap_of_forall₂ h.reachable fun nt nt' hR =>
    hc.conflictsOf_eq hc' h hR (h.alternatives nt nt' hR)

/-! ## Routines -/

omit hc hc' in
theorem routineStep_eq (hx : x.Matches c.grammar.terminals.size R x') :
    c.routineStep x = c'.routineStep x' := by
  have hname := h.symbolName_eq hx
  cases hx with
  | terminal => exact congrArg RoutineStep.consume hname
  | nonterminal => exact congrArg RoutineStep.call hname

theorem routineBody_eq (hi : c.grammar.MatchesAt c'.grammar R i i') :
    c.routineBody i = c'.routineBody i' := by
  have hsteps := map_eq_map_of_forall₂ (Grammar.Alike.body hi) fun x x' hx => routineStep_eq h hx
  obtain ⟨p, p', hp, hp', hmatches⟩ := hi
  rw [routineBody, routineBody, hsteps, hc.routineResult_eq hp, hc'.routineResult_eq hp',
    hmatches.binding]

/-- **The routines of related nonterminals are the same.** -/
theorem routine_eq (hR : R nt nt') : c.routine nt = c'.routine nt' := by
  have hexpected := hc.expected_eq hc' h hR
  have hepsilon := hc.epsilon_rel hc' h hR
  have hnames : c.grammar.terminalNames = c'.grammar.terminalNames := by
    rw [Grammar.terminalNames, Grammar.terminalNames, h.terminals]
  have hprospects := List.rel_filter (p := fun q => !q.lookahead.isEmpty)
    (q := fun q => !q.lookahead.isEmpty) (fun q q' hq => by simp only [hq.2])
    (hc.prospects_rel hc' h hR)
  unfold routine
  dsimp only
  rw [h.name _ _ hR, hexpected]
  congr 1
  · refine map_eq_map_of_forall₂ hprospects fun q q' hq => ?_
    rw [hq.2, hnames, hc.routineBody_eq hc' h hq.1]
  · generalize (c.prediction.choice nt).epsilon = epsilon at hepsilon ⊢
    generalize (c'.prediction.choice nt').epsilon = epsilon' at hepsilon ⊢
    cases hepsilon with
    | none => rfl
    | some hi => exact congrArg Fallback.epsilon (hc.routineBody_eq hc' h hi)

/-- **Emitted parsers have the same routines**, in the same order. -/
theorem routines_eq (header : Option String) (withMain : Bool) :
    (c.parserModule header withMain).routines = (c'.parserModule header withMain).routines := by
  show c.analysis.reachable.map _ = c'.analysis.reachable.map _
  rw [hc.reachable, hc'.reachable]
  exact map_eq_map_of_forall₂ h.reachable fun nt nt' hR => hc.routine_eq hc' h hR

/-! ## Parses -/

omit hc hc' h in
theorem readAll_eq_of_forall₂ {read read' : Symbol → Reading Value} {M : Symbol → Symbol → Prop}
    (hread : ∀ x x' s, M x x' → read x s = read' x' s) {xs xs' : List Symbol}
    (hxs : List.Forall₂ M xs xs') (s : Scan) : readAll read xs s = readAll read' xs' s := by
  induction hxs generalizing s with
  | nil => rfl
  | cons hx _ ih =>
    unfold readAll
    rw [hread _ _ s hx]
    congr 1
    funext v s
    rw [ih]

omit h in
theorem build_eq (hi : c.grammar.MatchesAt c'.grammar R i i') :
    c.shapes.build i = c'.shapes.build i' := by
  obtain ⟨p, p', hp, hp', hmatches⟩ := hi
  funext values
  rw [hc.shapes, hc'.shapes, Shapes.build_ofGrammar hp, Shapes.build_ofGrammar hp',
    Production.value_congr hmatches.binding]

/-- **Calls of related nonterminals come to the same**, if they are given as many nested calls. -/
theorem descend_eq (fuel : Nat) (hR : R nt nt') (s : Scan) :
    c.descend fuel nt s = c'.descend fuel nt' s := by
  -- Induction on the nested calls: the bodies that are read match symbol by symbol.
  induction fuel generalizing nt nt' s with
  | zero => rfl
  | succ fuel ih =>
    rw [descend_succ, descend_succ]
    cases s.peek with
    | error e => rfl
    | ok next =>
      have hchosen := hc.production?_rel hc' h hR next
      dsimp only
      rw [h.name _ _ hR, hc.expected_eq hc' h hR]
      congr 1
      generalize c.production? nt next = chosen at hchosen ⊢
      generalize c'.production? nt' next = chosen' at hchosen ⊢
      cases hchosen with
      | none => rfl
      | some hi =>
        dsimp only
        rw [hc.build_eq hc' hi]
        congr 1
        refine readAll_eq_of_forall₂ (fun x x' s hx => ?_) (Grammar.Alike.body hi) s
        cases hx with
        | nonterminal hm => exact ih hm s
        | terminal ht =>
          show c.consume _ s = c'.consume _ s
          unfold consume
          rw [Grammar.terminalName, Grammar.terminalName, h.terminals]

/-- **Parses come to the same**, whatever the text is. -/
theorem parse_eq (text : String) : c.parse text = c'.parse text := by
  have henough := hc.call_ne_exhausted (c.grammar.lexicon.scan text.toList)
  have henough' := hc'.call_ne_exhausted (c.grammar.lexicon.scan text.toList)
  unfold parse parseScan
  rw [← h.lexicon]
  generalize c.grammar.lexicon.scan text.toList = s at henough henough' ⊢
  congr 1
  calc c.descend (c.callBound s.length) c.grammar.start s
      = c.descend (max (c.callBound s.length) (c'.callBound s.length)) c.grammar.start s :=
        (descend_of_le (Nat.le_max_left _ _) henough).symm
    _ = c'.descend (max (c.callBound s.length) (c'.callBound s.length)) c'.grammar.start s :=
        hc.descend_eq hc' h _ h.start s
    _ = c'.descend (c'.callBound s.length) c'.grammar.start s :=
        descend_of_le (Nat.le_max_right _ _) henough'

end Compiled.Coherent

end PredictiveParsing
