import Mathlib.Data.List.Forall2
import PredictiveParsing.Proofs.Parse.Lookahead
import PredictiveParsing.Proofs.Prediction.Choices
import PredictiveParsing.Proofs.Renumbering.Parse
import PredictiveParsing.Proofs.Tree.Leaves
import PredictiveParsing.Proofs.Tree.NodeTypes

/-!
# Emitted parsers are closed and complete

What a routine names is found by its name when the source is written out: the routine that is
called, the rule of a token, the type of a node. A name that is not there would be replaced by
something else without notice. But nothing is missing. The routines are those of the reachable
nonterminals, which are closed under what their bodies mention; the types of nodes are collected
from all productions; and a routine has a branch for each alternative that begins with some token.

## Main definitions

* `RoutineStep.IsResolved`, `RoutineResult.IsResolved`: what a routine names is in the module
* `ParserModule.IsClosed`: all routines name what is in the module
* `Compiled.Reads`: a routine is that of a nonterminal, with nothing left out

## Main results

* `Compiled.Coherent.isResolved_routineBody`: the bodies of reachable nonterminals are resolved
* `Compiled.Coherent.reads_routine`: the routine of a nonterminal
* `Compiled.parserModule_closed`: parser modules are closed and complete
-/

namespace PredictiveParsing

/-! ## Names that are found -/

/-- The name of the field that a key stands for. -/
def FieldKey.fieldName? : FieldKey → Option String
  | named name => some name
  | discarded _ => none

/-- **What a step names is in a module**: a rule for tokens behind the one for white space, or a
routine. -/
def RoutineStep.IsResolved (m : ParserModule) : RoutineStep → Prop
  | consume token => token ∈ m.tokenRules.tail.map (·.1)
  | call nonterminal => nonterminal ∈ m.routines.map (·.nonterminal)

/-- **What a result names is in a module**: a type of node, with fields for the names among the
keys, none of them twice. There is a key for each step. -/
def RoutineResult.IsResolved (m : ParserModule) (steps : Nat) : RoutineResult → Prop
  | tuple => True
  | suppressed => True
  | node nodeType keys => ∃ t ∈ m.nodeTypes, t.name = nodeType ∧ keys.length = steps ∧
      (keys.filterMap FieldKey.fieldName?).Nodup ∧ keys.filterMap FieldKey.fieldName? ⊆ t.fields

/-- **What a body names is in a module.** -/
structure RoutineBody.IsResolved (m : ParserModule) (body : RoutineBody) : Prop where
  /-- So it is for each step. -/
  steps : ∀ step ∈ body.steps, step.IsResolved m
  /-- So it is for the result. -/
  result : body.result.IsResolved m body.steps.length

/-- The bodies of a routine. -/
def Routine.bodies (r : Routine) : List RoutineBody :=
  r.branches.map (·.body) ++ match r.fallback with
    | .epsilon body => [body]
    | .fail _ => []

/-- **A module is closed**: what its routines name is in it, and a name stands for one thing. -/
structure ParserModule.IsClosed (m : ParserModule) : Prop where
  /-- No two routines have one name. -/
  routines_nodup : (m.routines.map (·.nonterminal)).Nodup
  /-- No two rules for tokens have one name. -/
  tokens_nodup : (m.tokenRules.tail.map (·.1)).Nodup
  /-- No two types of nodes have one name. -/
  types_nodup : (m.nodeTypes.map (·.name)).Nodup
  /-- What is named is there. -/
  resolved : ∀ r ∈ m.routines, ∀ body ∈ r.bodies, body.IsResolved m

theorem Shapes.filterMap_keysOf (position : Nat) (fields : List Field) :
    (keysOf position fields).filterMap FieldKey.fieldName? = Field.namesOf fields := by
  induction fields generalizing position with
  | nil => rfl
  | cons field fields ih =>
    cases field with
    | named name => exact congrArg (name :: ·) (ih (position + 1))
    | discard => exact ih (position + 1)

/-! ## Nothing is left out -/

namespace Compiled

/-- The names of the tokens that a production can begin with. -/
def lookaheadNames (c : Compiled) (p : Nat) : List String :=
  (c.analysis.first.production p).withoutEpsilon.names c.grammar.terminalNames

/-- **A routine is that of a nonterminal**: its branches are the alternatives that can begin with a
token, and its fallback is one that can vanish, if there is any. -/
structure Reads (c : Compiled) (nt : Nat) (r : Routine) : Prop where
  /-- The routine has the name of the nonterminal. -/
  nonterminal : r.nonterminal = c.grammar.nonterminalName nt
  /-- There is a branch for each alternative that can begin with a token, in order. -/
  branches : r.branches =
    ((c.grammar.alternatives nt).filter fun p => !(c.lookaheadNames p).isEmpty).map
      fun p => ⟨c.lookaheadNames p, c.routineBody p⟩
  /-- A branch lists the tokens that the alternative can begin with. -/
  lookahead : ∀ p ∈ c.grammar.alternatives nt, ∀ name, name ∈ c.lookaheadNames p ↔
    ∃ t γ, c.grammar.Derives (c.grammar.body p) (.terminal t :: γ) ∧
      c.grammar.terminalName t = name
  /-- Every branch lists some token. -/
  lookahead_ne_nil : ∀ branch ∈ r.branches, branch.lookahead ≠ []
  /-- All branches together list what the nonterminal can begin with. -/
  first : ∀ name, (∃ branch ∈ r.branches, name ∈ branch.lookahead) ↔
    ∃ t ∈ (c.analysis.first.nonterminal nt).terminals, c.grammar.terminalName t = name
  /-- There is a body to fall back on if the nonterminal derives the empty text. -/
  fallback : (∃ body, r.fallback = .epsilon body) ↔ c.grammar.Derives [.nonterminal nt] []
  /-- It is that of an alternative that does so. -/
  fallback_body : ∀ body, r.fallback = .epsilon body → ∃ p ∈ c.grammar.alternatives nt,
    c.grammar.Derives (c.grammar.body p) [] ∧ body = c.routineBody p

namespace Coherent

variable {c : Compiled} (hc : c.Coherent) {nt p : Nat}

include hc

/-- **The tokens that an alternative can begin with**, by their names. -/
theorem mem_lookaheadNames (hp : p ∈ c.grammar.alternatives nt) {name : String} :
    name ∈ c.lookaheadNames p ↔ ∃ t γ, c.grammar.Derives (c.grammar.body p) (.terminal t :: γ) ∧
      c.grammar.terminalName t = name := by
  have hsize := hc.size_production hp
  have hterminal (t : Nat) : t ∈ (c.analysis.first.production p).withoutEpsilon.terminals ↔
      (Clash.terminal t).AcceptedBy c.grammar p := by
    rw [← hc.heldBy_production hp, Clash.HeldBy, LookaheadSet.mem_terminals,
      LookaheadSet.mem_terminals, LookaheadSet.mem_slots_withoutEpsilon]
    constructor
    · rintro ⟨⟨hmem, -⟩, hlt⟩
      exact ⟨hmem, hlt⟩
    · rintro ⟨hmem, hlt⟩
      exact ⟨⟨hmem, by omega⟩, hlt⟩
  rw [lookaheadNames, LookaheadSet.mem_names (s := (c.analysis.first.production p).withoutEpsilon)
    hsize]
  refine exists_congr fun t => ?_
  rw [hterminal, Clash.AcceptedBy, exists_and_right]

/-- An alternative that lists no token can begin with none: the end of the input is no beginning. -/
theorem isEmpty_lookahead (hp : p ∈ c.grammar.alternatives nt) :
    (c.analysis.first.production p).withoutEpsilon.isEmpty = (c.lookaheadNames p).isEmpty := by
  rw [Bool.eq_iff_iff]
  constructor
  · intro hempty
    rw [LookaheadSet.isEmpty, IndexSet.isEmpty, List.isEmpty_iff] at hempty
    rw [lookaheadNames, LookaheadSet.names, LookaheadSet.terminals, hempty]
    rfl
  · intro hnames
    rw [LookaheadSet.isEmpty, IndexSet.isEmpty, List.isEmpty_iff, List.eq_nil_iff_forall_not_mem]
    intro x hx
    obtain ⟨hx, hne⟩ := LookaheadSet.mem_slots_withoutEpsilon.mp (IndexSet.mem_def.mpr hx)
    rw [hc.size_production hp] at hne
    cases (hc.mem_production_iff hp).mp hx with
    | @terminal t γ hlt hderives =>
      have hname := (hc.mem_lookaheadNames hp).mpr ⟨x, γ, hderives, rfl⟩
      rw [List.isEmpty_iff.mp hnames] at hname
      cases hname
    | epsilon => exact hne rfl

theorem branches_routine (nt : Nat) : (c.routine nt).branches =
    ((c.grammar.alternatives nt).filter fun p => !(c.lookaheadNames p).isEmpty).map
      fun p => ⟨c.lookaheadNames p, c.routineBody p⟩ := by
  rw [routine, hc.choice_eq, Prediction.choiceOf, List.filter_map, List.map_map]
  refine congrArg (List.map _) (List.filter_congr fun p hp => ?_)
  rw [Function.comp_apply, hc.isEmpty_lookahead hp]

/-- A nonterminal can begin with a terminal if one of its alternatives can. -/
theorem mem_terminals_nonterminal {t : Nat} :
    t ∈ (c.analysis.first.nonterminal nt).terminals ↔
      ∃ p ∈ c.grammar.alternatives nt, (Clash.terminal t).AcceptedBy c.grammar p := by
  have hsize : (c.analysis.first.nonterminal nt).size = c.grammar.terminals.size :=
    FirstSets.size_symbol hc.wellFormed hc.firstSets (.nonterminal nt)
  constructor
  · intro ht
    rw [LookaheadSet.mem_terminals, hsize] at ht
    obtain ⟨production, hmem, rfl, hx⟩ :=
      (FirstSets.mem_nonterminal hc.wellFormed hc.firstSets).mp ht.1
    obtain ⟨p, hp, -, hbody⟩ := hc.wellFormed.exists_alternative hmem
    refine ⟨p, hp, (hc.heldBy_production hp).mp ?_⟩
    rw [Clash.HeldBy, LookaheadSet.mem_terminals, hc.size_production hp, hc.production_eq hp, hbody]
    exact ⟨hx, ht.2⟩
  · rintro ⟨p, hp, haccepted⟩
    have hheld := (hc.heldBy_production hp).mpr haccepted
    rw [Clash.HeldBy, LookaheadSet.mem_terminals, hc.size_production hp] at hheld
    rw [LookaheadSet.mem_terminals, hsize]
    exact ⟨hc.mem_nonterminal_of_mem_production hp hheld.1, hheld.2⟩

/-- The fallback of a routine is the first alternative that derives the empty text. -/
theorem fallback_routine {body : RoutineBody} (h : (c.routine nt).fallback = .epsilon body) :
    ∃ p ∈ c.grammar.alternatives nt,
      c.grammar.Derives (c.grammar.body p) [] ∧ body = c.routineBody p := by
  rw [routine, hc.choice_eq, Prediction.choiceOf] at h
  split at h
  · rename_i p hfind
    have hp : p ∈ c.grammar.alternatives nt := List.mem_of_find?_eq_some hfind
    have hepsilon : Clash.epsilon.HeldBy (c.analysis.first.production p) :=
      List.find?_some (p := fun p => (c.analysis.first.production p).hasEpsilon) hfind
    exact ⟨p, hp, (hc.heldBy_production hp).mp hepsilon, (Fallback.epsilon.inj h).symm⟩
  · cases h

theorem exists_fallback_iff (nt : Nat) : (∃ body, (c.routine nt).fallback = .epsilon body) ↔
    c.grammar.Derives [.nonterminal nt] [] := by
  constructor
  · rintro ⟨body, hfallback⟩
    obtain ⟨p, hp, hderives, -⟩ := hc.fallback_routine hfallback
    obtain ⟨production, hmem, -, rfl, hbody⟩ := hc.wellFormed.exists_production hp
    rw [hbody] at hderives
    exact (Grammar.Derives.of_production hmem).trans hderives
  · intro hderives
    obtain ⟨p, hp, hnil⟩ := hc.wellFormed.exists_alternative_of_derives_nil hderives
    have hepsilon : Clash.epsilon.HeldBy (c.analysis.first.production p) :=
      (hc.heldBy_production hp).mpr hnil
    rw [routine, hc.choice_eq, Prediction.choiceOf]
    split
    · exact ⟨_, rfl⟩
    · rename_i hnone
      exact absurd hepsilon (List.find?_eq_none.mp hnone p hp)

/-- **The routine of a nonterminal** leaves nothing out. -/
theorem reads_routine (nt : Nat) : c.Reads nt (c.routine nt) := by
  have hbranches := hc.branches_routine nt
  constructor
  case nonterminal => rfl
  case branches => exact hbranches
  case lookahead => exact fun p hp name => hc.mem_lookaheadNames hp
  case lookahead_ne_nil =>
    intro branch hbranch
    rw [hbranches] at hbranch
    obtain ⟨p, hp, rfl⟩ := List.mem_map.mp hbranch
    simpa using (List.mem_filter.mp hp).2
  case first =>
    intro name
    rw [hbranches]
    constructor
    · rintro ⟨branch, hbranch, hname⟩
      obtain ⟨p, hp, rfl⟩ := List.mem_map.mp hbranch
      have hp := (List.mem_filter.mp hp).1
      obtain ⟨t, γ, hderives, hterminal⟩ := (hc.mem_lookaheadNames hp).mp hname
      exact ⟨t, hc.mem_terminals_nonterminal.mpr ⟨p, hp, γ, hderives⟩, hterminal⟩
    · rintro ⟨t, ht, hterminal⟩
      obtain ⟨p, hp, γ, hderives⟩ := hc.mem_terminals_nonterminal.mp ht
      have hname := (hc.mem_lookaheadNames hp).mpr ⟨t, γ, hderives, hterminal⟩
      have hkept : (!(c.lookaheadNames p).isEmpty) = true := by
        simpa using List.ne_nil_of_mem hname
      exact ⟨_, List.mem_map_of_mem (List.mem_filter.mpr ⟨hp, hkept⟩), hname⟩
  case fallback => exact hc.exists_fallback_iff nt
  case fallback_body => exact fun body => hc.fallback_routine

/-! ## Nothing is missing -/

section

variable (header : Option String) (withMain : Bool)

theorem nodeTypes_eq :
    (c.parserModule header withMain).nodeTypes = (Shapes.ofGrammar c.grammar).nodeTypes :=
  congrArg Shapes.nodeTypes hc.shapes

theorem map_fst_tokenRules : (c.parserModule header withMain).tokenRules =
    (LexRule.whitespaceName, LexRule.whitespacePattern) ::
      c.grammar.terminals.toList.map fun t => (t.name, t.pattern) :=
  hc.wellFormed.tokenRules

theorem map_nonterminal_routines : (c.parserModule header withMain).routines.map (·.nonterminal) =
    c.grammar.reachable.map c.grammar.nonterminalName := by
  rw [parserModule, List.map_map, hc.reachable]
  rfl

/-- **A symbol in the body of a reachable nonterminal** has a rule or a routine. -/
theorem isResolved_routineStep (hnt : nt ∈ c.grammar.reachable)
    (hp : p ∈ c.grammar.alternatives nt) {x : Symbol} (hx : x ∈ c.grammar.body p) :
    (c.routineStep x).IsResolved (c.parserModule header withMain) := by
  cases x with
  | terminal t =>
    have hlt : t < c.grammar.terminals.size := hc.wellFormed.hasSymbol_of_mem_body hp hx
    show c.grammar.terminalName t ∈ (c.parserModule header withMain).tokenRules.tail.map (·.1)
    rw [hc.map_fst_tokenRules, List.tail_cons, List.map_map, List.mem_map]
    refine ⟨c.grammar.terminals[t], by simp, ?_⟩
    simp [Grammar.terminalName, hlt]
  | nonterminal m =>
    show c.grammar.nonterminalName m ∈
      (c.parserModule header withMain).routines.map (·.nonterminal)
    rw [hc.map_nonterminal_routines]
    exact List.mem_map_of_mem (hc.wellFormed.mem_reachable_of_mem_body hnt hp hx)

/-- **The node that a production makes** has a type with its fields. -/
theorem isResolved_routineResult (hp : p ∈ c.grammar.alternatives nt) :
    (c.routineResult p).IsResolved (c.parserModule header withMain)
      (c.routineBody p).steps.length := by
  obtain ⟨production, hmem, hget, -, hbody⟩ := hc.wellFormed.exists_production hp
  have hbinds := hc.wellFormed.binds production hmem
  rw [hc.routineResult_eq hget]
  unfold Production.Binds at hbinds
  match hbinding : production.binding, hbinds with
  | none, _ => trivial
  | some .suppressed, _ => trivial
  | some (.node name fields), ⟨hlength, hnodup⟩ =>
    obtain ⟨i, t, -, ht, rfl⟩ := Shapes.exists_nodeType hget hbinding
    have hcollects := Shapes.collects_ofGrammar c.grammar
    have hmemt := List.mem_of_getElem? ht
    refine ⟨t, (hc.nodeTypes_eq header withMain).symm ▸ hmemt, rfl, ?_, ?_⟩
    · rw [Shapes.length_keysOf, hlength, routineBody, List.length_map, hbody]
    · rw [Shapes.filterMap_keysOf]
      refine ⟨hnodup, fun f hf => (hcollects.mem_fields t hmemt f).mpr ?_⟩
      exact ⟨production, Array.mem_toList_iff.mpr hmem, fields, hbinding, Field.mem_namesOf.mp hf⟩

/-- **The body for an alternative of a reachable nonterminal is resolved.** -/
theorem isResolved_routineBody (hnt : nt ∈ c.grammar.reachable)
    (hp : p ∈ c.grammar.alternatives nt) :
    (c.routineBody p).IsResolved (c.parserModule header withMain) where
  steps step hstep := by
    obtain ⟨x, hx, rfl⟩ := List.mem_map.mp hstep
    exact hc.isResolved_routineStep header withMain hnt hp hx
  result := hc.isResolved_routineResult header withMain hp

/-- Each body of a routine is that of an alternative. -/
theorem exists_of_mem_bodies {body : RoutineBody} (h : body ∈ (c.routine nt).bodies) :
    ∃ p ∈ c.grammar.alternatives nt, body = c.routineBody p := by
  rcases List.mem_append.mp h with h | h
  · rw [hc.branches_routine] at h
    obtain ⟨branch, hbranch, rfl⟩ := List.mem_map.mp h
    obtain ⟨p, hp, rfl⟩ := List.mem_map.mp hbranch
    exact ⟨p, (List.mem_filter.mp hp).1, rfl⟩
  · cases hfallback : (c.routine nt).fallback with
    | epsilon body' =>
      obtain ⟨p, hp, -, rfl⟩ := hc.fallback_routine hfallback
      rw [hfallback] at h
      exact ⟨p, hp, List.mem_singleton.mp h⟩
    | fail expected =>
      rw [hfallback] at h
      cases h

/-- **What the routines name is in the module**, and it is there once. -/
theorem isClosed : (c.parserModule header withMain).IsClosed := by
  have wf := hc.wellFormed
  constructor
  case routines_nodup =>
    rw [hc.map_nonterminal_routines]
    refine wf.nodup_reachable.map_on fun nt hnt nt' hnt' hname => ?_
    exact wf.nonterminalName_inj (wf.lt_of_mem_reachable hnt) (wf.lt_of_mem_reachable hnt') hname
  case tokens_nodup =>
    rw [hc.map_fst_tokenRules, List.tail_cons, List.map_map]
    exact (List.nodup_append.mp wf.names_nodup).1
  case types_nodup =>
    rw [hc.nodeTypes_eq]
    exact (Shapes.collects_ofGrammar c.grammar).names_nodup
  case resolved =>
    intro r hr body hbody
    obtain ⟨nt, hnt, rfl⟩ := List.mem_map.mp hr
    obtain ⟨p, hp, rfl⟩ := hc.exists_of_mem_bodies hbody
    exact hc.isResolved_routineBody header withMain (hc.reachable ▸ hnt) hp

end

end Coherent

/-- **Parser modules are closed and complete.** The routines are those of the nonterminals that
stand in a sentential form, one for each, with that of the start symbol first. What they call and
consume, and the nodes that they make, are in the module: a routine, a rule for tokens that is not
the one for white space, a type of node with fields for the names among the keys. A routine has a
branch for each alternative that can begin with a token, in order; each branch lists the tokens of
its alternative, which are never none, and together they list what the nonterminal can begin with.
A routine falls back on a body if the nonterminal derives the empty text, and on nothing else. -/
theorem parserModule_closed {engine : PatternEngine} {d : Declarations} {g : Grammar}
    {c : Compiled} (hbuild : d.build engine = .ok g) (hcompile : g.compile = .ok c)
    (header : Option String) (withMain : Bool) :
    let m := c.parserModule header withMain
    m.IsClosed ∧
    m.tokenRules.head? = some (LexRule.whitespaceName, LexRule.whitespacePattern) ∧
    m.start = d.start ∧ m.routines.head?.map (·.nonterminal) = some m.start ∧
    ∃ nts, nts.head? = some g.start ∧ nts.Nodup ∧
      (∀ nt, nt ∈ nts ↔ g.Occurs (.nonterminal nt)) ∧ List.Forall₂ c.Reads nts m.routines := by
  obtain ⟨rfl, hc⟩ := coherent hbuild hcompile
  have wf := hc.wellFormed
  intro m
  refine ⟨hc.isClosed header withMain, ?_, ?_, ?_, c.grammar.reachable, wf.head?_reachable,
    wf.nodup_reachable, fun nt => wf.mem_reachable_iff, ?_⟩
  · rw [hc.map_fst_tokenRules, List.head?_cons]
  · exact Declarations.nonterminalName_start_of_build hbuild
  · rw [← List.head?_map, hc.map_nonterminal_routines, List.head?_map, wf.head?_reachable]
    rfl
  · show List.Forall₂ c.Reads c.grammar.reachable (c.analysis.reachable.map c.routine)
    rw [hc.reachable, List.forall₂_map_right_iff, List.forall₂_same]
    exact fun nt _ => hc.reads_routine nt

/-- The routine of nested lists has a branch for items, with a node of two fields, and a body to
fall back on. -/
theorem parserModule_closed_nested : ∃ (g : Grammar) (c : Compiled) (r : Routine),
    Samples.nested.build Pattern.engine = .ok g ∧ g.compile = .ok c ∧
    (c.parserModule none true).IsClosed ∧ (c.parserModule none true).routines.head? = some r ∧
    r.nonterminal = "List" ∧ r.branches = [⟨["a", "("],
      [.call "Item", .call "List"], .node "Cons" [.named "head", .named "tail"]⟩] ∧
    r.fallback = .epsilon ⟨[], .suppressed⟩ ∧ g.Derives [.nonterminal g.start] [] := by
  have hrun : ((Samples.nested.build Pattern.engine).toOption.bind fun g =>
      g.compile.toOption.bind fun c => (c.parserModule none true).routines.head?) =
      some ⟨"List", [⟨["a", "("],
        ⟨[.call "Item", .call "List"], .node "Cons" [.named "head", .named "tail"]⟩⟩],
        .epsilon ⟨[], .suppressed⟩⟩ := by
    decide +kernel
  simp only [Option.bind_eq_some_iff, toOption_eq_some] at hrun
  obtain ⟨g, hbuild, c, hcompile, hhead⟩ := hrun
  obtain ⟨rfl, -⟩ := coherent hbuild hcompile
  obtain ⟨hclosed, -, -, -, nts, hstart, -, -, hreads⟩ :=
    parserModule_closed hbuild hcompile none true
  refine ⟨_, c, _, hbuild, hcompile, hclosed, hhead, rfl, rfl, rfl, ?_⟩
  generalize (c.parserModule none true).routines = routines at hreads hhead
  cases hreads with
  | nil => cases hstart
  | @cons nt r nts routines hread =>
    obtain rfl : nt = c.grammar.start := Option.some.inj hstart
    obtain rfl := Option.some.inj hhead
    exact hread.fallback.mp ⟨_, rfl⟩

end Compiled

end PredictiveParsing
