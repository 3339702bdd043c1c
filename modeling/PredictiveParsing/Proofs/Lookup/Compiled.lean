import PredictiveParsing.Proofs.Lookup.Follow
import PredictiveParsing.Proofs.Prediction
import PredictiveParsing.Proofs.Tree.Shape

/-!
# Compiling without a lookup that misses

The choices are made from the sets of the productions that the nonterminals list, and the clashes
from those of the reachable ones. The type of a node is found or added before its fields are.

## Main definitions

* `Prediction.ofAnalysis?`, `Shapes.ofGrammar?`: the two tables, stopped by a lookup that misses
* `Grammar.compile?`: the whole compilation

## Main results

* `Grammar.WellFormed.compile?_eq`: compiling misses nothing
-/

namespace PredictiveParsing

/-! ## Choices and clashes -/

namespace Prediction

/-- The choice among some alternatives. -/
def choiceOf? (first : Nat → Option LookaheadSet) (alternatives : List Nat) : Option Choice := do
  let sets ← alternatives.mapM fun p => do return (p, ← first p)
  return {
    prospects := sets.map fun (p, s) => ⟨p, s.withoutEpsilon⟩
    epsilon := (sets.find? fun (_, s) => s.hasEpsilon).map (·.1) }

/-- The clashes between two alternatives of a nonterminal. -/
def clashes? (first : Nat → Option LookaheadSet) (nt chosen shadowed : Nat) :
    Option (List Conflict) := do
  let common := (← first chosen).inter (← first shadowed)
  return (common.terminals.map fun t => ⟨nt, .terminal t, chosen, shadowed⟩) ++
    (if common.hasEpsilon then [⟨nt, .epsilon, chosen, shadowed⟩] else [])

/-- The clashes between the alternatives of a list. -/
def conflictsOf? (first : Nat → Option LookaheadSet) (nt : Nat) :
    List Nat → Option (List Conflict)
  | [] => some []
  | chosen :: later => do
    let here ← later.mapM (clashes? first nt chosen)
    return here.flatten ++ (← conflictsOf? first nt later)

/-- **The prediction for an analysed grammar**, unless a lookup misses. -/
def ofAnalysis? (g : Grammar) (a : Analysis) : Option Prediction := do
  let choices ← g.nonterminals.mapM fun n => choiceOf? (a.first.productions[·]?) n.alternatives
  let conflicts ← a.reachable.mapM fun nt => do
    conflictsOf? (a.first.productions[·]?) nt (← g.alternatives? nt)
  return { choices, conflicts := conflicts.flatten }

variable {first? : Nat → Option LookaheadSet} {first : Nat → LookaheadSet} {alternatives : List Nat}

theorem choiceOf?_eq (h : ∀ p ∈ alternatives, first? p = some (first p)) :
    choiceOf? first? alternatives = some (choiceOf first alternatives) := by
  have hsets : alternatives.mapM (fun p => do return (p, ← first? p)) =
      some (alternatives.map fun p => (p, first p)) := by
    refine mapM_eq_some_map fun p hp => ?_
    rw [h p hp]
    rfl
  have hepsilon : ((alternatives.map fun p => (p, first p)).find? fun entry =>
      entry.2.hasEpsilon).map (·.1) = alternatives.find? fun p => (first p).hasEpsilon := by
    rw [List.find?_map, Option.map_map]
    exact Option.map_id'
  rw [choiceOf?, hsets]
  show some (Choice.mk ((alternatives.map fun p => (p, first p)).map _) _) = _
  rw [hepsilon, List.map_map]
  rfl

theorem clashes?_eq {nt chosen shadowed : Nat} (hchosen : first? chosen = some (first chosen))
    (hshadowed : first? shadowed = some (first shadowed)) :
    clashes? first? nt chosen shadowed = some (clashes first nt chosen shadowed) := by
  rw [clashes?, hchosen, hshadowed]
  rfl

theorem conflictsOf?_eq (nt : Nat) (h : ∀ p ∈ alternatives, first? p = some (first p)) :
    conflictsOf? first? nt alternatives = some (conflictsOf first nt alternatives) := by
  induction alternatives with
  | nil => rfl
  | cons chosen later ih =>
    have hlater := fun p hp => h p (List.mem_cons_of_mem chosen hp)
    have hhere : later.mapM (clashes? first? nt chosen) =
        some (later.map (clashes first nt chosen)) :=
      mapM_eq_some_map fun p hp => clashes?_eq (h chosen List.mem_cons_self) (hlater p hp)
    rw [conflictsOf?, conflictsOf, hhere, ih hlater, List.flatMap_def]
    rfl

/-- **Making the prediction misses nothing.** -/
theorem ofAnalysis?_eq {g : Grammar} (wf : g.WellFormed) {a : Analysis}
    (hfirst : g.firstSets = .ok a.first) (hreachable : a.reachable = g.reachable) :
    ofAnalysis? g a = some (ofAnalysis g a) := by
  have hset {p : Nat} (hp : p < g.productions.size) :
      a.first.productions[p]? = some (a.first.production p) := FirstSets.production?_eq hfirst hp
  have hchoices : g.nonterminals.mapM (fun n =>
      choiceOf? (a.first.productions[·]?) n.alternatives) =
      some (g.nonterminals.map fun n => choiceOf a.first.production n.alternatives) := by
    refine array_mapM_eq_some_map fun n hn => choiceOf?_eq fun p hp => hset ?_
    obtain ⟨nt, -, heq⟩ := Grammar.exists_alternatives_eq hn
    rw [← heq] at hp
    exact wf.alternative_lt hp
  have hconflicts : a.reachable.mapM (fun nt => do
      conflictsOf? (a.first.productions[·]?) nt (← g.alternatives? nt)) =
      some (a.reachable.map fun nt =>
        conflictsOf a.first.production nt (g.alternatives nt)) := by
    refine mapM_eq_some_map fun nt hnt => ?_
    rw [hreachable] at hnt
    rw [Grammar.alternatives?_eq (wf.lt_of_mem_reachable hnt)]
    exact conflictsOf?_eq nt fun p hp => hset (wf.alternative_lt hp)
  rw [ofAnalysis?, hchoices]
  show Option.bind (a.reachable.mapM _) _ = _
  rw [hconflicts, ofAnalysis, List.flatMap_def]
  rfl

end Prediction

/-! ## Shapes -/

namespace Shapes

/-- Adds the shape of one more production; the type of a node has to be there when its fields are
added. -/
def addBinding? (s : Shapes) : Option Binding → Option Shapes
  | none => some { s with shapes := s.shapes.push .tuple }
  | some .suppressed => some { s with shapes := s.shapes.push .suppressed }
  | some (.node nodeType fields) => do
    let (i, types) := findType s.nodeTypes nodeType
    let t ← types[i]?
    return {
      nodeTypes := types.set i (fields.foldl addField t)
      shapes := s.shapes.push (.node i (keysOf 0 fields)) }

/-- The shapes of the productions of a grammar. -/
def ofGrammar? (g : Grammar) : Option Shapes :=
  g.productions.toList.foldlM (fun s p => s.addBinding? p.binding) {}

theorem addBinding?_eq (s : Shapes) (binding : Option Binding) :
    s.addBinding? binding = some (s.addBinding binding) := by
  match binding with
  | none => rfl
  | some .suppressed => rfl
  | some (.node nodeType fields) =>
    obtain ⟨hname, -⟩ := findType_spec s.nodeTypes nodeType
    rw [List.getElem?_map, Option.map_eq_some_iff] at hname
    obtain ⟨t, ht, -⟩ := hname
    simp only [addBinding?, addBinding, ht, Option.bind_eq_bind, Option.bind_some]
    rw [List.modify_eq_set, ht]
    rfl

/-- **Making the shapes misses nothing.** -/
theorem ofGrammar?_eq (g : Grammar) : ofGrammar? g = some (ofGrammar g) :=
  (foldlM_eq_some_foldl (fun _ => True)
    (fun s _ p _ => ⟨addBinding?_eq s p.binding, trivial⟩) trivial).1

end Shapes

/-! ## The whole compilation -/

namespace Grammar

/-- **Compiles a grammar**, unless a lookup misses. -/
def compile? (g : Grammar) : Option (Except LeftRecursion Compiled) :=
  proceed g.analyze? fun analysis => do
    let prediction ← Prediction.ofAnalysis? g analysis
    let shapes ← Shapes.ofGrammar? g
    return .ok { grammar := g, analysis, prediction, shapes }

/-- **Compiling misses nothing.** -/
theorem WellFormed.compile?_eq {g : Grammar} (wf : g.WellFormed) :
    g.compile? = some g.compile := by
  rw [compile?, compile, wf.analyze?_eq]
  refine proceed_some fun a ha => ?_
  simp only [analyze, bind_eq_ok, pure_eq_ok] at ha
  obtain ⟨first, hfirst, rfl⟩ := ha
  rw [Prediction.ofAnalysis?_eq wf hfirst rfl, Shapes.ofGrammar?_eq]
  rfl

end Grammar

end PredictiveParsing
