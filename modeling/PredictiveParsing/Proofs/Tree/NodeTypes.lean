import Mathlib.Data.List.Nodup
import PredictiveParsing.Grammar.Declarations
import PredictiveParsing.Proofs.Tree.Shape

/-!
# The types of nodes

The types of nodes are collected from the bindings of productions in one pass. A production that
binds a node to a type either finds the type, and adds the fields that it lacks, or begins it. So
each name has one type, and a type has the fields that some binding to its name has, each once.

## Main definitions

* `Production.BindsType`, `Production.BindsField`: which types and fields a production binds
* `Shapes.Collects`: types of nodes that have been collected from productions
* `Shapes.nodeTypeOf?`: the number of the type of node that a production makes

## Main results

* `Shapes.Collects.addBinding`: one more production
* `Shapes.collects_ofGrammar`: the types of nodes of a grammar
* `Shapes.nodeTypeOf?_eq_iff`: two productions have the same type if they bind the same name
-/

namespace PredictiveParsing

theorem Field.mem_namesOf {fields : List Field} {name : String} :
    name ∈ namesOf fields ↔ .named name ∈ fields := by
  rw [namesOf, List.mem_filterMap]
  constructor
  · rintro ⟨field, hfield, hname⟩
    cases field with
    | named name' => exact Option.some.inj hname ▸ hfield
    | discard => cases hname
  · exact fun h => ⟨_, h, rfl⟩

namespace Production

/-- The production binds a node of a type. -/
def BindsType (p : Production) (nodeType : String) : Prop :=
  ∃ fields, p.binding = some (.node nodeType fields)

/-- The production binds a named field of a node of a type. -/
def BindsField (p : Production) (nodeType field : String) : Prop :=
  ∃ fields, p.binding = some (.node nodeType fields) ∧ .named field ∈ fields

variable {p : Production} {name : String} {fields : List Field}

theorem bindsType_iff (h : p.binding = some (.node name fields)) (nodeType : String) :
    p.BindsType nodeType ↔ nodeType = name := by
  simp [BindsType, h, eq_comm]

theorem bindsField_iff (h : p.binding = some (.node name fields)) (nodeType field : String) :
    p.BindsField nodeType field ↔ nodeType = name ∧ .named field ∈ fields := by
  rw [BindsField, h]
  constructor
  · rintro ⟨fields', hfields, hfield⟩
    cases hfields
    exact ⟨rfl, hfield⟩
  · rintro ⟨rfl, hfield⟩
    exact ⟨fields, rfl, hfield⟩

theorem BindsField.bindsType {nodeType field : String} (h : p.BindsField nodeType field) :
    p.BindsType nodeType := by
  obtain ⟨fields, hbinding, -⟩ := h
  exact ⟨fields, hbinding⟩

end Production

namespace Shapes

/-- **Types of nodes that have been collected from productions**: one for each name that is bound,
with the fields that are bound under that name. -/
structure Collects (done : List Production) (types : List NodeType) : Prop where
  /-- No two types have one name. -/
  names_nodup : (types.map (·.name)).Nodup
  /-- There are types for the names that are bound. -/
  mem_names : ∀ name, name ∈ types.map (·.name) ↔ ∃ p ∈ done, p.BindsType name
  /-- A type has each of its fields once. -/
  fields_nodup : ∀ t ∈ types, t.fields.Nodup
  /-- A type has the fields that are bound under its name. -/
  mem_fields : ∀ t ∈ types, ∀ f, f ∈ t.fields ↔ ∃ p ∈ done, p.BindsField t.name f

/-! ## The fields of a type -/

theorem mem_fields_addField (t : NodeType) (field : Field) (f : String) :
    f ∈ (addField t field).fields ↔ f ∈ t.fields ∨ field = .named f := by
  cases field with
  | named name =>
    by_cases h : name ∈ t.fields
    · rw [addField, if_pos h]
      constructor
      · exact .inl
      · rintro (hf | hf)
        · exact hf
        · exact Field.named.inj hf ▸ h
    · simp [addField, h, eq_comm]
  | discard => simp [addField]

theorem nodup_fields_addField {t : NodeType} (h : t.fields.Nodup) (field : Field) :
    (addField t field).fields.Nodup := by
  cases field with
  | named name =>
    by_cases hname : name ∈ t.fields
    · rwa [addField, if_pos hname]
    · rw [addField, if_neg hname]
      exact h.append (List.nodup_singleton name) (by simpa using hname)
  | discard => exact h

/-- Adding the fields of a binding to a type. -/
theorem mem_fields_addFields (fields : List Field) (t : NodeType) (f : String) :
    f ∈ (fields.foldl addField t).fields ↔ f ∈ t.fields ∨ .named f ∈ fields := by
  induction fields generalizing t with
  | nil => simp
  | cons field fields ih =>
    rw [List.foldl_cons, ih, mem_fields_addField, List.mem_cons, or_assoc, eq_comm]

theorem nodup_fields_addFields {t : NodeType} (h : t.fields.Nodup) (fields : List Field) :
    (fields.foldl addField t).fields.Nodup := by
  induction fields generalizing t with
  | nil => exact h
  | cons field fields ih => exact ih (nodup_fields_addField h field)

/-! ## One type for each name -/

variable {types : List NodeType} {name : String}

/-- A type that is not found begins behind the others. -/
theorem findType_snd (types : List NodeType) (name : String) : (findType types name).2 =
    if name ∈ types.map (·.name) then types else types ++ [⟨name, []⟩] := by
  unfold findType
  cases h : types.findIdx? (·.name == name) with
  | none =>
    rw [if_neg]
    intro hmem
    obtain ⟨t, ht, hname⟩ := List.mem_map.mp hmem
    simpa [hname] using List.findIdx?_eq_none_iff.mp h t ht
  | some i =>
    obtain ⟨hlt, hname, -⟩ := List.findIdx?_eq_some_iff_getElem.mp h
    have hmem : name ∈ types.map (·.name) :=
      List.mem_map.mpr ⟨types[i], List.getElem_mem hlt, by simpa using hname⟩
    rw [if_pos hmem]

/-- No name gets a second type. -/
theorem nodup_findType (h : (types.map (·.name)).Nodup) (name : String) :
    ((findType types name).2.map (·.name)).Nodup := by
  rw [findType_snd]
  by_cases hname : name ∈ types.map (·.name)
  · rwa [if_pos hname]
  · rw [if_neg hname, List.map_append]
    exact h.append (List.nodup_singleton name) (by simpa using hname)

/-- Among types with different names the number of a type stands for its name. -/
theorem number_eq_iff (hnodup : (types.map (·.name)).Nodup) {i j : Nat} {t : NodeType}
    (hi : (types.map (·.name))[i]? = some name) (hj : types[j]? = some t) :
    i = j ↔ t.name = name := by
  have hlt := (List.getElem?_eq_some_iff.mp hi).1
  rw [← List.getElem?_inj hlt hnodup, hi, List.getElem?_map, hj, Option.map_some, Option.some_inj,
    eq_comm]

/-- Changing the type with a number is changing the type with its name. -/
theorem modify_eq_map (hnodup : (types.map (·.name)).Nodup) {i : Nat}
    (hi : (types.map (·.name))[i]? = some name) (change : NodeType → NodeType) :
    types.modify i change = types.map fun t => if t.name = name then change t else t := by
  refine List.ext_getElem? fun j => ?_
  rw [List.getElem?_modify, List.getElem?_map]
  cases hj : types[j]? with
  | none => rfl
  | some t =>
    have hiff := number_eq_iff hnodup hi hj
    by_cases h : t.name = name
    · simp [hiff.mpr h, h]
    · simp [mt hiff.mp h, h]

/-- **The types after a production that binds a node**: the one with the bound name has the fields
of the binding as well. -/
theorem nodeTypes_addBinding (s : Shapes) (hnodup : (s.nodeTypes.map (·.name)).Nodup)
    (name : String) (fields : List Field) :
    (s.addBinding (some (.node name fields))).nodeTypes = (findType s.nodeTypes name).2.map
      fun t => if t.name = name then fields.foldl addField t else t := by
  exact modify_eq_map (nodup_findType hnodup name) (findType_spec s.nodeTypes name).1 _

/-! ## The pass over the productions -/

namespace Collects

variable {done : List Production} {s : Shapes}

/-- A type that is not found begins without fields, and none have been bound. -/
theorem findType (h : Collects done types) (name : String) :
    let found := (Shapes.findType types name).2
    (∀ n, n ∈ found.map (·.name) ↔ n = name ∨ ∃ p ∈ done, p.BindsType n) ∧
    ∀ t ∈ found, t.fields.Nodup ∧ ∀ f, f ∈ t.fields ↔ ∃ p ∈ done, p.BindsField t.name f := by
  rw [findType_snd]
  intro found
  by_cases hname : name ∈ types.map (·.name)
  · rw [show found = types from if_pos hname]
    refine ⟨fun n => ?_, fun t ht => ⟨h.fields_nodup t ht, h.mem_fields t ht⟩⟩
    rw [← h.mem_names]
    constructor
    · exact .inr
    · rintro (rfl | hn)
      · exact hname
      · exact hn
  · rw [show found = types ++ [⟨name, []⟩] from if_neg hname]
    refine ⟨fun n => ?_, fun t ht => ?_⟩
    · rw [← h.mem_names, List.map_append, List.mem_append, or_comm]
      simp
    · rcases List.mem_append.mp ht with ht | ht
      · exact ⟨h.fields_nodup t ht, h.mem_fields t ht⟩
      · obtain rfl : t = ⟨name, []⟩ := by simpa using ht
        refine ⟨List.nodup_nil, fun f => iff_of_false List.not_mem_nil ?_⟩
        rintro ⟨p, hp, hfield⟩
        exact hname ((h.mem_names name).mpr ⟨p, hp, hfield.bindsType⟩)

/-- **One more production.** -/
theorem addBinding (h : Collects done s.nodeTypes) (p : Production) :
    Collects (done ++ [p]) (s.addBinding p.binding).nodeTypes := by
  have happend (P : Production → Prop) : (∃ q ∈ done ++ [p], P q) ↔ (∃ q ∈ done, P q) ∨ P p := by
    simp [or_and_right, exists_or]
  match hbinding : p.binding with
  | none | some .suppressed =>
    have hnode (nodeType : String) : ¬ p.BindsType nodeType := by
      simp [Production.BindsType, hbinding]
    refine ⟨h.names_nodup, fun name => ?_, h.fields_nodup, fun t ht f => ?_⟩
    · rw [happend, or_iff_left (hnode name)]
      exact h.mem_names name
    · rw [happend, or_iff_left fun hfield => hnode t.name hfield.bindsType]
      exact h.mem_fields t ht f
  | some (.node name fields) =>
    obtain ⟨hnames, hfields⟩ := h.findType name
    rw [nodeTypes_addBinding s h.names_nodup]
    set found := (Shapes.findType s.nodeTypes name).2
    have hname (t : NodeType) :
        (if t.name = name then fields.foldl addField t else t).name = t.name := by
      split
      · exact name_addFields fields t
      · rfl
    have hmap : (found.map fun t => if t.name = name then fields.foldl addField t else t).map
        (·.name) = found.map (·.name) := by
      rw [List.map_map]
      exact List.map_congr_left fun t _ => hname t
    constructor
    · rw [hmap]
      exact nodup_findType h.names_nodup name
    · intro n
      rw [hmap, hnames, happend, Production.bindsType_iff hbinding, or_comm]
    · intro t' ht'
      obtain ⟨t, ht, rfl⟩ := List.mem_map.mp ht'
      split
      · exact nodup_fields_addFields (hfields t ht).1 fields
      · exact (hfields t ht).1
    · intro t' ht' f
      obtain ⟨t, ht, rfl⟩ := List.mem_map.mp ht'
      rw [hname, happend, ← (hfields t ht).2, Production.bindsField_iff hbinding]
      by_cases htype : t.name = name
      · rw [if_pos htype, mem_fields_addFields, and_iff_right htype]
      · rw [if_neg htype, or_iff_left fun hfield => htype hfield.1]

end Collects

/-- **The types of nodes of a grammar** are collected from all of its productions. -/
theorem collects_ofGrammar (g : Grammar) :
    Collects g.productions.toList (ofGrammar g).nodeTypes := by
  have hfold (done rest : List Production) (s : Shapes) (h : Collects done s.nodeTypes) :
      Collects (done ++ rest) (rest.foldl (fun s p => s.addBinding p.binding) s).nodeTypes := by
    induction rest generalizing done s with
    | nil => rwa [List.append_nil]
    | cons p rest ih =>
      have hstep := ih (done ++ [p]) (s.addBinding p.binding) (h.addBinding p)
      rwa [List.append_assoc, List.singleton_append] at hstep
  refine hfold [] g.productions.toList {} ⟨List.nodup_nil, ?_, ?_, ?_⟩ <;> simp

/-- The number of the type of node that a production makes. -/
def nodeTypeOf? (s : Shapes) (p : Nat) : Option Nat :=
  match s.shape? p with
  | some (.node i _) => some i
  | _ => none

section

variable {g : Grammar} {p q : Nat} {production production' : Production} {name name' : String}
  {fields fields' : List Field}

/-- **A production that binds a node** makes one of the type with the name. -/
theorem exists_nodeType (h : g.productions[p]? = some production)
    (hbinding : production.binding = some (.node name fields)) : ∃ i t,
      (ofGrammar g).nodeTypeOf? p = some i ∧ (ofGrammar g).nodeTypes[i]? = some t ∧
      t.name = name := by
  obtain ⟨shape, hshape, hof⟩ := exists_isShapeOf h
  rw [hbinding] at hof
  obtain ⟨i, hi, rfl⟩ := hof
  rw [List.getElem?_map, Option.map_eq_some_iff] at hi
  obtain ⟨t, ht, hname⟩ := hi
  exact ⟨i, t, by rw [nodeTypeOf?, hshape], ht, hname⟩

/-- **Two productions have the same type of node if they bind the same name.** -/
theorem nodeTypeOf?_eq_iff (h : g.productions[p]? = some production)
    (hbinding : production.binding = some (.node name fields))
    (h' : g.productions[q]? = some production')
    (hbinding' : production'.binding = some (.node name' fields')) :
    (ofGrammar g).nodeTypeOf? p = (ofGrammar g).nodeTypeOf? q ↔ name = name' := by
  obtain ⟨i, t, hi, ht, rfl⟩ := exists_nodeType h hbinding
  obtain ⟨j, u, hj, hu, rfl⟩ := exists_nodeType h' hbinding'
  rw [hi, hj, Option.some_inj, eq_comm (a := t.name)]
  refine number_eq_iff (collects_ofGrammar g).names_nodup ?_ hu
  rw [List.getElem?_map, ht, Option.map_some]

end

end Shapes

end PredictiveParsing
