import Mathlib.Data.List.Forall2
import PredictiveParsing.Tree.Shape

/-!
# The values of productions

The shapes of all productions are made in one pass, in which the types of nodes get their numbers.
A type keeps its number and its name when later productions add to the list of types, so the value
of a production depends on its own binding only.

## Main definitions

* `Production.value`: the value of a production, read off its binding

## Main results

* `Shapes.exists_isShapeOf`: each production has the shape of its binding
* `Shapes.build_ofGrammar`: the shapes of a grammar make just these values
-/

namespace PredictiveParsing

/-- **The value of a production**, from the values of its symbols: without a binding their tuple,
and with one to a type of node an attribute for each of them. -/
def Production.value (p : Production) (values : List Value) : Value :=
  match p.binding with
  | none => if values.isEmpty then .empty else .tuple values
  | some .suppressed => .empty
  | some (.node nodeType fields) => .node nodeType ((Shapes.keysOf 0 fields).zip values)

namespace Shapes

/-- A shape is the one of a binding, given the names of the types of nodes. -/
def IsShapeOf (names : List String) : Option Binding → Shape → Prop
  | none, shape => shape = .tuple
  | some .suppressed, shape => shape = .suppressed
  | some (.node nodeType fields), shape =>
    ∃ i, names[i]? = some nodeType ∧ shape = .node i (keysOf 0 fields)

variable {names names' : List String}

/-- A type keeps its number when types are added. -/
theorem IsShapeOf.mono {binding : Option Binding} {shape : Shape} (hinitial : names <+: names')
    (h : IsShapeOf names binding shape) : IsShapeOf names' binding shape := by
  obtain ⟨added, rfl⟩ := hinitial
  match binding, h with
  | none, h => exact h
  | some .suppressed, h => exact h
  | some (.node nodeType fields), ⟨i, hi, hshape⟩ =>
    have hlt := (List.getElem?_eq_some_iff.mp hi).1
    exact ⟨i, by rwa [List.getElem?_append_left hlt], hshape⟩

theorem name_addField (t : NodeType) (field : Field) : (addField t field).name = t.name := by
  cases field with
  | named name =>
    by_cases h : name ∈ t.fields
    · simp only [addField, if_pos h]
    · simp only [addField, if_neg h]
  | discard => rfl

theorem name_addFields (fields : List Field) (t : NodeType) :
    (fields.foldl addField t).name = t.name := by
  induction fields generalizing t with
  | nil => rfl
  | cons field fields ih => rw [List.foldl_cons, ih, name_addField]

/-- The type that is found has the name that is looked for; a new one stands behind the others. -/
theorem findType_spec (types : List NodeType) (name : String) :
    ((findType types name).2.map (·.name))[(findType types name).1]? = some name ∧
      types.map (·.name) <+: (findType types name).2.map (·.name) := by
  unfold findType
  cases h : types.findIdx? (·.name == name) with
  | none => simp
  | some i =>
    obtain ⟨hlt, hname, -⟩ := List.findIdx?_eq_some_iff_getElem.mp h
    simpa [hlt] using hname

theorem map_name_modify (types : List NodeType) (i : Nat) (fields : List Field) :
    (types.modify i fun t => fields.foldl addField t).map (·.name) = types.map (·.name) := by
  refine List.ext_getElem? fun j => ?_
  rw [List.getElem?_map, List.getElem?_map, List.getElem?_modify]
  by_cases hij : i = j
  · cases types[j]? <;> simp [hij, name_addFields]
  · cases types[j]? <;> simp [hij]

/-- **One more production**: its shape is the one of its binding, and no type changes its name. -/
theorem addBinding_spec (s : Shapes) (binding : Option Binding) :
    s.nodeTypes.map (·.name) <+: (s.addBinding binding).nodeTypes.map (·.name) ∧
      ∃ shape, (s.addBinding binding).shapes = s.shapes.push shape ∧
        IsShapeOf ((s.addBinding binding).nodeTypes.map (·.name)) binding shape := by
  match binding with
  | none => exact ⟨List.prefix_rfl, .tuple, rfl, rfl⟩
  | some .suppressed => exact ⟨List.prefix_rfl, .suppressed, rfl, rfl⟩
  | some (.node nodeType fields) =>
    obtain ⟨hname, hinitial⟩ := findType_spec s.nodeTypes nodeType
    simp only [addBinding, map_name_modify]
    exact ⟨hinitial, _, rfl, _, hname, rfl⟩

/-- Each shape of a grammar is the one of the binding of its production. -/
theorem forall₂_isShapeOf (g : Grammar) :
    List.Forall₂ (fun p shape => IsShapeOf ((ofGrammar g).nodeTypes.map (·.name)) p.binding shape)
      g.productions.toList (ofGrammar g).shapes.toList := by
  -- Induction on the productions still to come: the shapes made so far stay right.
  have hfold (done rest : List Production) (s : Shapes)
      (hdone : List.Forall₂ (fun p shape => IsShapeOf (s.nodeTypes.map (·.name)) p.binding shape)
        done s.shapes.toList) :
      List.Forall₂ (fun p shape => IsShapeOf
          ((rest.foldl (fun s p => s.addBinding p.binding) s).nodeTypes.map (·.name))
          p.binding shape)
        (done ++ rest) (rest.foldl (fun s p => s.addBinding p.binding) s).shapes.toList := by
    induction rest generalizing done s with
    | nil => simpa using hdone
    | cons p rest ih =>
      obtain ⟨hinitial, shape, hshapes, hshape⟩ := addBinding_spec s p.binding
      have hstep := ih (done ++ [p]) (s.addBinding p.binding) ?_
      · simpa using hstep
      · rw [hshapes, Array.toList_push]
        exact List.rel_append (hdone.imp fun _ _ h => h.mono hinitial) (.cons hshape .nil)
  exact hfold [] g.productions.toList {} .nil

/-- Each production of a grammar has a shape, which is the one of its binding. -/
theorem exists_isShapeOf {g : Grammar} {p : Nat} {production : Production}
    (h : g.productions[p]? = some production) : ∃ shape, (ofGrammar g).shape? p = some shape ∧
      IsShapeOf ((ofGrammar g).nodeTypes.map (·.name)) production.binding shape := by
  obtain ⟨hlt, rfl⟩ := Array.getElem?_eq_some_iff.mp h
  have hshapes := forall₂_isShapeOf g
  have hlt' : p < (ofGrammar g).shapes.toList.length := by
    rw [← hshapes.length_eq]
    exact hlt
  exact ⟨_, Array.getElem?_eq_getElem hlt', hshapes.get hlt hlt'⟩

/-- **The shapes of a grammar make the values of its productions.** -/
theorem build_ofGrammar {g : Grammar} {p : Nat} {production : Production}
    (h : g.productions[p]? = some production) (values : List Value) :
    (ofGrammar g).build p values = production.value values := by
  obtain ⟨shape, hshape, hbinding⟩ := exists_isShapeOf h
  rw [build, build?, hshape, Option.map_some, Option.getD_some, Production.value]
  match production.binding, hbinding with
  | none, hbinding => rw [hbinding, buildShape]
  | some .suppressed, hbinding => rw [hbinding, buildShape]
  | some (.node nodeType fields), ⟨i, hi, hbinding⟩ =>
    have hname : (ofGrammar g).typeName i = nodeType := by
      rw [typeName, ← List.getElem?_map, hi, Option.getD_some]
    rw [hbinding, buildShape, hname]

end Shapes

end PredictiveParsing
