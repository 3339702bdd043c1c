import Mathlib.Data.List.Induction
import PredictiveParsing.Emission.NodeStruct
import PredictiveParsing.Emission.Run
import PredictiveParsing.Pattern.Engine
import PredictiveParsing.Proofs.Emission.Identifier
import PredictiveParsing.Proofs.Grammar.Build
import PredictiveParsing.Proofs.Grammar.Supported
import PredictiveParsing.Proofs.Prediction
import PredictiveParsing.Proofs.Renumbering.Parse
import PredictiveParsing.Proofs.Tree.NodeTypes
import PredictiveParsing.Samples

/-!
# Members of emitted nodes are fields

A field of a node is looked up among its attributes, and the first one with its name counts.
Emitted source has a member for each field of a type instead, and of several attributes with one key
the last one stays in the member. Both come to the same where keys that are written the same are the
same, since no binding names a field twice. A discarded value has a key in the source as well, which
is written `_`. Names stand for other fields, but a binding that is not given by names can have a
field that is written so, too, and then its member can hold a discarded value.

## Main definitions

* `NodeConstructor.Distinct`: no key has two members, and no member has two keys
* `Value.lastWritten?`: the last attribute of a node whose key has a written form
* `Declarations.BindsByNames`: all bindings are given by names

## Main results

* `NodeConstructor.code_ofType`: the source of the function for a type of node
* `NodeConstructor.member?_run`: a member holds the last value with its key
* `SourceNames.nodup_memberNames`: all members of a node have different names
* `Value.getD_lastWritten?`: the last attribute with a written form is the field
* `Compiled.member_eq_field`: members hold what is looked up as fields
-/

namespace PredictiveParsing

/-! ## Members -/

namespace NodeStruct

variable {node : NodeStruct} {member other : String} {v : Value}

theorem map_fst_assign (node : NodeStruct) (member : String) (v : Value) :
    (node.assign member v).members.map (·.1) = node.members.map (·.1) := by
  rw [assign, List.map_map]
  refine List.map_congr_left fun m _ => ?_
  by_cases h : m.1 = member <;> simp [h]

/-- A value that has been put into a member is there. -/
theorem member?_assign (h : member ∈ node.members.map (·.1)) (v : Value) :
    (node.assign member v).member? member = some v := by
  show (node.members.map _).lookup member = some v
  generalize node.members = members at h ⊢
  induction members with
  | nil => cases h
  | cons m members ih =>
    by_cases hm : m.1 = member
    · simp [hm]
    · have hne : (member == m.1) = false := by simpa using Ne.symm hm
      rw [List.map_cons, if_neg hm, List.lookup_cons, hne]
      refine ih ?_
      rcases List.mem_cons.mp h with h | h
      · exact absurd h.symm hm
      · exact h

/-- No other member changes. -/
theorem member?_assign_of_ne (h : other ≠ member) (node : NodeStruct) (v : Value) :
    (node.assign member v).member? other = node.member? other := by
  show (node.members.map _).lookup other = node.members.lookup other
  generalize node.members = members
  induction members with
  | nil => rfl
  | cons m members ih =>
    obtain ⟨name, w⟩ := m
    by_cases hm : name = member
    · have hne : (other == name) = false := by simpa [hm] using h
      simp only [List.map_cons, if_pos hm, List.lookup_cons, hne]
      exact ih
    · simp only [List.map_cons, if_neg hm, List.lookup_cons]
      cases other == name with
      | true => rfl
      | false => exact ih

end NodeStruct

namespace SourceNames

variable {α : Type} {pairs : List (String × α)} {name : String}

theorem latest?_append (pairs : List (String × α)) (p : String × α) (name : String) :
    latest? (pairs ++ [p]) name = if p.1 = name then some p.2 else latest? pairs name := by
  rw [latest?, latest?, List.reverse_append, List.reverse_singleton, List.singleton_append,
    List.lookup_cons]
  by_cases h : p.1 = name
  · simp [h]
  · rw [if_neg h, show (name == p.1) = false by simpa using Ne.symm h]

/-- Keys are looked up by their written forms. -/
theorem latest?_map {β : Type} (form : β → String) (pairs : List (β × α)) (name : String) :
    latest? (pairs.map fun p => (form p.1, p.2)) name =
      (pairs.reverse.find? (form ·.1 == name)).map (·.2) := by
  rw [latest?, ← List.map_reverse]
  induction pairs.reverse with
  | nil => rfl
  | cons p pairs ih =>
    by_cases h : form p.1 = name
    · simp [h]
    · have hne : (name == form p.1) = false := by simpa using Ne.symm h
      simp [List.lookup_cons, hne, h, ih]

end SourceNames

/-! ## The function that makes a node -/

namespace NodeConstructor

/-- **The source of the function for a type of node** is the one of its constructor. -/
theorem code_ofType (names : SourceNames) (t : NodeType) :
    (ofType names t).code = ParserModule.nodeConstructor names t := by
  simp [code, ofType, ParserModule.nodeConstructor, Function.comp_def]

/-- **No key has two members, and no member has two keys.** None is the one for all attributes. -/
structure Distinct (new : NodeConstructor) : Prop where
  /-- The members are those that values go into. -/
  members_eq : new.members = new.arms.map (·.2)
  /-- No two keys are the same. -/
  keys_nodup : (new.arms.map (·.1)).Nodup
  /-- No two members are the same. -/
  members_nodup : (new.arms.map (·.2)).Nodup
  /-- No member has the name of the one for all attributes. -/
  not_attributes : SourceNames.attributesName ∉ new.members

variable {new : NodeConstructor} {key member : String}

theorem map_fst_take (node : NodeStruct) (entry : String × Value) :
    (new.take node entry).members.map (·.1) = node.members.map (·.1) := by
  rw [take]
  split
  · exact node.map_fst_assign _ _
  · rfl

theorem map_fst_foldl_take (node : NodeStruct) (attributes : List (String × Value)) :
    (attributes.foldl new.take node).members.map (·.1) = node.members.map (·.1) := by
  induction attributes generalizing node with
  | nil => rfl
  | cons entry attributes ih => rw [List.foldl_cons, ih, map_fst_take]

namespace Distinct

variable (h : new.Distinct)

include h

/-- The arm with a key is the one that is taken. -/
theorem lookup_eq_some (harm : (key, member) ∈ new.arms) : new.arms.lookup key = some member := by
  have hnodup : (new.arms.reverse.map (·.1)).Nodup := by
    rw [List.map_reverse, List.nodup_reverse]
    exact h.keys_nodup
  have hlatest := SourceNames.latest?_eq_some hnodup (List.mem_reverse.mpr harm)
  rwa [SourceNames.latest?, List.reverse_reverse] at hlatest

/-- **One attribute** goes into the member for its key and into no other. -/
theorem member?_take (harm : (key, member) ∈ new.arms) {node : NodeStruct}
    (hmember : member ∈ node.members.map (·.1)) (entry : String × Value) :
    (new.take node entry).member? member =
      if entry.1 = key then some entry.2 else node.member? member := by
  rw [take]
  by_cases hkey : entry.1 = key
  · rw [hkey, h.lookup_eq_some harm, if_pos rfl]
    exact NodeStruct.member?_assign hmember entry.2
  · rw [if_neg hkey]
    split
    · rename_i other hother
      have harm' : (entry.1, other) ∈ new.arms := by
        obtain ⟨l₁, l₂, harms, -⟩ := List.lookup_eq_some_iff.mp hother
        rw [harms]
        simp
      apply NodeStruct.member?_assign_of_ne
      rintro rfl
      exact hkey (congrArg Prod.fst (List.inj_on_of_nodup_map h.members_nodup harm' harm rfl))
    · rfl

/-- A member holds the last value with its key. -/
theorem member?_foldl_take (harm : (key, member) ∈ new.arms) {node : NodeStruct}
    (hmember : member ∈ node.members.map (·.1)) (attributes : List (String × Value)) :
    (attributes.foldl new.take node).member? member =
      (SourceNames.latest? attributes key).or (node.member? member) := by
  induction attributes using List.reverseRecOn with
  | nil => rfl
  | append_singleton attributes entry ih =>
    rw [List.foldl_append, List.foldl_cons, List.foldl_nil, h.member?_take harm, ih,
      SourceNames.latest?_append]
    · split <;> rfl
    · rwa [map_fst_foldl_take]

theorem member?_blank (harm : (key, member) ∈ new.arms) :
    member ∈ new.blank.members.map (·.1) ∧ new.blank.member? member = some .empty := by
  have hmem : member ∈ new.members := by
    rw [h.members_eq]
    exact List.mem_map.mpr ⟨_, harm, rfl⟩
  constructor
  · simpa [blank] using hmem
  · show (new.members.map fun member => (member, Value.empty)).lookup member = _
    generalize new.members = members at hmem ⊢
    induction members with
    | nil => cases hmem
    | cons other members ih =>
      by_cases hother : member = other
      · simp [hother]
      · rw [List.map_cons, List.lookup_cons, show (member == other) = false by simpa using hother]
        exact ih ((List.mem_cons.mp hmem).resolve_left hother)

/-- **In the node that is made a member holds the last value with its key**, or nothing if no value
has it. -/
theorem member?_run (harm : (key, member) ∈ new.arms) (attributes : List (String × Value)) :
    (new.run attributes).member? member =
      some ((SourceNames.latest? attributes key).getD .empty) := by
  have harms : ¬ new.arms.isEmpty = true := by
    rw [List.isEmpty_iff]
    exact List.ne_nil_of_mem harm
  obtain ⟨hmem, hblank⟩ := h.member?_blank harm
  rw [run, if_neg harms]
  show (attributes.foldl new.take new.blank).member? member = _
  rw [h.member?_foldl_take harm hmem, hblank]
  cases SourceNames.latest? attributes key <;> rfl

end Distinct

end NodeConstructor

namespace SourceNames

variable {m : ParserModule} {t : NodeType} {snake pascal : List Char → List Char}

/-- A type of a parser module has its own members. -/
theorem members_ofModule (hnodup : (m.nodeTypes.map (·.name)).Nodup) (ht : t ∈ m.nodeTypes) :
    (ofModule m snake pascal).members t.name = membersOf t snake := by
  have hlatest : latest? (ofModule m snake pascal).fields t.name = some (membersOf t snake) := by
    refine latest?_eq_some ?_ (List.mem_map.mpr ⟨t, ht, rfl⟩)
    simpa [ofModule, Function.comp_def] using hnodup
  rw [members, hlatest, Option.getD_some]

/-- Each field of a type has a member. -/
theorem map_fst_membersOf (t : NodeType) (snake : List Char → List Char) :
    (membersOf t snake).map (·.1) = t.fields :=
  Namer.map_fst_nameAll ..

/-- **All members of a node have different names**, the one for all attributes among them. -/
theorem nodup_memberNames (hnodup : (m.nodeTypes.map (·.name)).Nodup) (ht : t ∈ m.nodeTypes) :
    (((ofModule m snake pascal).members t.name).map (·.2) ++ [attributesName]).Nodup := by
  obtain ⟨hdifferent, hreserved⟩ := Namer.nodup_answers ⟨[attributesName]⟩
    (t.fields.map fun raw => ⟨snake, raw, "field"⟩)
  rw [members_ofModule hnodup ht, membersOf, Namer.map_snd_nameAll, ← List.concat_eq_append,
    List.nodup_concat]
  exact ⟨fun hmem => hreserved _ hmem List.mem_cons_self, hdifferent⟩

/-- The function for a type of a parser module tells its keys and its members apart. -/
theorem distinct_ofType (hnodup : (m.nodeTypes.map (·.name)).Nodup) (ht : t ∈ m.nodeTypes)
    (hfields : t.fields.Nodup) : (NodeConstructor.ofType (ofModule m snake pascal) t).Distinct := by
  have hmembers :
      (((ofModule m snake pascal).members t.name).map (·.2) ++ [attributesName]).Nodup :=
    nodup_memberNames hnodup ht
  rw [← List.concat_eq_append, List.nodup_concat] at hmembers
  obtain ⟨hreserved, hdifferent⟩ := hmembers
  constructor
  case members_eq => rfl
  case keys_nodup =>
    rw [NodeConstructor.ofType, members_ofModule hnodup ht, map_fst_membersOf]
    exact hfields
  case members_nodup => exact hdifferent
  case not_attributes => exact hreserved

end SourceNames

/-! ## First and last attributes -/

namespace Shapes

variable {fields : List Field} {f : String}

theorem named_mem_keysOf {position : Nat} :
    .named f ∈ keysOf position fields ↔ .named f ∈ fields := by
  induction fields generalizing position with
  | nil => simp [keysOf]
  | cons field fields ih => cases field <;> simp [keysOf, ih]

/-- A position among the keys is that of a discarded field. -/
theorem discarded_mem_keysOf {position i : Nat} (h : .discarded i ∈ keysOf position fields) :
    position ≤ i ∧ fields[i - position]? = some .discard := by
  induction fields generalizing position with
  | nil => cases h
  | cons field fields ih =>
    have hrest (h : .discarded i ∈ keysOf (position + 1) fields) :
        position ≤ i ∧ (field :: fields)[i - position]? = some .discard := by
      obtain ⟨hle, hfield⟩ := ih h
      refine ⟨by omega, ?_⟩
      rwa [show i - position = i - (position + 1) + 1 by omega, List.getElem?_cons_succ]
    cases field with
    | named name => exact hrest ((List.mem_cons.mp h).resolve_left (by simp))
    | discard =>
      rcases List.mem_cons.mp h with hfirst | h
      · obtain rfl := FieldKey.discarded.inj hfirst
        simp
      · exact hrest h

/-- **Keys are different** if no name stands twice. -/
theorem nodup_keysOf (hnodup : (Field.namesOf fields).Nodup) (position : Nat) :
    (keysOf position fields).Nodup := by
  induction fields generalizing position with
  | nil => exact List.nodup_nil
  | cons field fields ih =>
    cases field with
    | named name =>
      obtain ⟨hname, hnodup⟩ := List.nodup_cons.mp hnodup
      refine List.nodup_cons.mpr ⟨fun hmem => hname ?_, ih hnodup _⟩
      exact Field.mem_namesOf.mpr (named_mem_keysOf.mp hmem)
    | discard =>
      refine List.nodup_cons.mpr ⟨fun hmem => ?_, ih hnodup _⟩
      exact absurd (discarded_mem_keysOf hmem).1 (by omega)

end Shapes

namespace Value

/-- **The last attribute** of a node whose key has a written form. -/
def lastWritten? (v : Value) (form : String) : Option (FieldKey × Value) :=
  v.attributes.reverse.find? (·.1.describe == form)

variable {v : Value} {f : String}

/-- A field that holds nothing is as good as one that is missing. -/
theorem getD_field? (v : Value) (f : String) :
    (v.field? f).getD .empty = ((v.attributes.find? (·.1 == .named f)).map (·.2)).getD .empty := by
  rw [field?]
  cases (v.attributes.find? (·.1 == .named f)).map (·.2) with
  | none => rfl
  | some w => cases w <;> rfl

/-- The attribute with a key is the one that is found. -/
theorem find?_attributes (hkeys : (v.attributes.map (·.1)).Nodup) {key : FieldKey} {w : Value}
    (h : (key, w) ∈ v.attributes) : v.attributes.find? (·.1 == key) = some (key, w) := by
  cases hfind : v.attributes.find? (·.1 == key) with
  | none => exact absurd (List.find?_eq_none.mp hfind _ h) (by simp)
  | some entry =>
    have hkey : entry.1 = key := by simpa using List.find?_some hfind
    exact congrArg some
      (List.inj_on_of_nodup_map hkeys (List.mem_of_find?_eq_some hfind) h hkey)

/-- No attribute is found under a key that none has. -/
theorem find?_attributes_eq_none {key : FieldKey} (h : key ∉ v.attributes.map (·.1)) :
    v.attributes.find? (·.1 == key) = none := by
  rw [List.find?_eq_none]
  intro entry hentry hkey
  exact h (List.mem_map.mpr ⟨entry, hentry, eq_of_beq hkey⟩)

/-- The last attribute with a written form is an attribute with this form. -/
theorem of_lastWritten? {entry : FieldKey × Value} (h : v.lastWritten? f = some entry) :
    entry ∈ v.attributes ∧ entry.1.describe = f :=
  ⟨List.mem_reverse.mp (List.mem_of_find?_eq_some h), by simpa using List.find?_some h⟩

/-- **The last attribute with a written form is the field** of this name if keys are different,
unless it is a discarded one. -/
theorem getD_lastWritten? (hkeys : (v.attributes.map (·.1)).Nodup)
    (hdiscarded : ∀ i w, v.lastWritten? f ≠ some (.discarded i, w)) :
    ((v.lastWritten? f).map (·.2)).getD .empty = (v.field? f).getD .empty := by
  rw [getD_field?]
  cases hlast : v.lastWritten? f with
  | none =>
    have hmissing : .named f ∉ v.attributes.map (·.1) := by
      intro hmem
      obtain ⟨entry, hentry, hkey⟩ := List.mem_map.mp hmem
      exact List.find?_eq_none.mp hlast entry (List.mem_reverse.mpr hentry)
        (by simp [hkey, FieldKey.describe])
    rw [find?_attributes_eq_none hmissing]
  | some entry =>
    obtain ⟨key, w⟩ := entry
    cases key with
    | discarded i => exact absurd hlast (hdiscarded i w)
    | named name =>
      obtain ⟨hentry, rfl : name = f⟩ := of_lastWritten? hlast
      rw [find?_attributes hkeys hentry]

end Value

/-! ## Fields of nodes -/

/-- **All bindings are given by names**, among which `_` stands for a discarded value. -/
def Declarations.BindsByNames (d : Declarations) : Prop :=
  ∀ rule ∈ d.rules, ∀ nodeType fields, rule.binding = some (.node nodeType fields) →
    ∃ names : List String, fields = names.map Field.ofName

section

variable {engine : PatternEngine} {d : Declarations} {g : Grammar}

/-- A binding of a production is that of a declared rule. -/
theorem Declarations.exists_rule_of_binding (hbuild : d.build engine = .ok g) {p : Production}
    (hp : p ∈ g.productions) {b : Binding} (hb : p.binding = some b) :
    ∃ rule ∈ d.rules, rule.binding = some b := by
  obtain ⟨i, hi, rfl⟩ := Array.mem_iff_getElem.mp hp
  have hflat : (g.productions.toList.map g.ruleOf)[i]? = some (g.ruleOf g.productions[i]) := by
    simp [hi]
  obtain ⟨rule, hrule, hbecomes⟩ := exists_rule_of_expandRules (map_ruleOf_of_build hbuild) hflat
    (by simp [Grammar.ruleOf, hb])
  exact ⟨rule, List.mem_of_getElem? hrule, hbecomes.binding_eq.symm.trans hb⟩

/-- **Bindings by name declare no field with the written form of discarded values.** -/
theorem Declarations.discardMark_not_mem_fields (hbuild : d.build engine = .ok g)
    (hnames : d.BindsByNames) {t : NodeType} (ht : t ∈ (Shapes.ofGrammar g).nodeTypes) :
    Field.discardMark ∉ t.fields := by
  intro hmark
  obtain ⟨p, hp, fields, hbinding, hfield⟩ :=
    ((Shapes.collects_ofGrammar g).mem_fields t ht _).mp hmark
  obtain ⟨rule, hrule, hrulebinding⟩ :=
    exists_rule_of_binding hbuild (Array.mem_toList_iff.mp hp) hbinding
  obtain ⟨names, rfl⟩ := hnames rule hrule _ _ hrulebinding
  obtain ⟨name, -, hname⟩ := List.mem_map.mp hfield
  by_cases h : name = Field.discardMark
  · simp [Field.ofName, h] at hname
  · simp [Field.ofName, h] at hname

variable {p : Production} {name : String} {fields : List Field}

theorem Production.attributes_value (hbinding : p.binding = some (.node name fields))
    (values : List Value) : (p.value values).attributes = (Shapes.keysOf 0 fields).zip values := by
  rw [value, hbinding, Value.attributes]

/-- The keys of a node are those of the fields that are bound. -/
theorem Production.keys_value_sublist (hbinding : p.binding = some (.node name fields))
    (values : List Value) :
    ((p.value values).attributes.map (·.1)).Sublist (Shapes.keysOf 0 fields) := by
  rw [attributes_value hbinding, List.zip_eq_zip_take_min, List.map_fst_zip (by simp)]
  exact List.take_sublist ..

/-- A field that a production does not bind is missing in its nodes. -/
theorem Production.field?_value_eq_none (hbinding : p.binding = some (.node name fields))
    {f : String} (hf : .named f ∉ fields) (values : List Value) :
    (p.value values).field? f = none := by
  have hmissing : .named f ∉ (p.value values).attributes.map (·.1) := fun hmem =>
    hf (Shapes.named_mem_keysOf.mp ((keys_value_sublist hbinding values).subset hmem))
  rw [Value.field?, Value.find?_attributes_eq_none hmissing]
  rfl

/-- The attributes of a node have different keys. -/
theorem Production.nodup_keys_value (hbinds : p.Binds)
    (hbinding : p.binding = some (.node name fields)) (values : List Value) :
    ((p.value values).attributes.map (·.1)).Nodup := by
  rw [Binds, hbinding] at hbinds
  exact (Shapes.nodup_keysOf hbinds.2 0).sublist (keys_value_sublist hbinding values)

/-- A discarded attribute is written with the mark of discarded values, and its field is one that
discards. -/
theorem Production.discard_of_lastWritten? (hbinding : p.binding = some (.node name fields))
    {values : List Value} {f : String} {i : Nat} {v : Value}
    (h : (p.value values).lastWritten? f = some (.discarded i, v)) :
    f = Field.discardMark ∧ fields[i]? = some .discard := by
  obtain ⟨hentry, hform⟩ := Value.of_lastWritten? h
  have hkey := (keys_value_sublist hbinding values).subset (List.mem_map_of_mem hentry)
  exact ⟨hform.symm, (Shapes.discarded_mem_keysOf hkey).2⟩

end

namespace Compiled

/-- **Members of emitted nodes are fields.** The types of nodes are those that some production
binds, each with the fields that are bound under its name, and two productions have the same type if
they bind the same name. The function that emitted source has for a type keeps all attributes, and
it has a member for each field, however the letters of names are converted.

For the attributes of a production, each member holds the value of the last one whose key is written
like its field, or nothing if there is none. Unless this is a discarded one, it is what is looked up
under the field in the node of that production, and the field is missing if the production does not
bind it. The keys of discarded attributes are written `_`, and no type has a field of this name if
all bindings are given by names. A binding that is put together otherwise can have such a field; its
member then holds the value that is discarded last, unless the field is bound behind that. -/
theorem member_eq_field {engine : PatternEngine} {d : Declarations} {c : Compiled}
    (hbuild : d.build engine = .ok c.grammar) (hshapes : c.shapes = .ofGrammar c.grammar) :
    Shapes.Collects c.grammar.productions.toList c.shapes.nodeTypes ∧
    (d.BindsByNames → ∀ t ∈ c.shapes.nodeTypes, Field.discardMark ∉ t.fields) ∧
    ∀ (p : Nat) production name fields, c.grammar.productions[p]? = some production →
      production.binding = some (.node name fields) →
      (∀ (p' : Nat) production' name' fields', c.grammar.productions[p']? = some production' →
        production'.binding = some (.node name' fields') →
        (c.shapes.nodeTypeOf? p = c.shapes.nodeTypeOf? p' ↔ name = name')) ∧
      ∃ i t, c.shapes.nodeTypeOf? p = some i ∧ c.shapes.nodeTypes[i]? = some t ∧ t.name = name ∧
        ∀ header withMain snake pascal,
          let names := SourceNames.ofModule (c.parserModule header withMain) snake pascal
          let new := NodeConstructor.ofType names t
          new.code = ParserModule.nodeConstructor names t ∧ new.Distinct ∧
          (names.members name).map (·.1) = t.fields ∧
          ∀ values,
            let attributes := (c.routineResult p).attributes values
            let node := c.shapes.build p values
            (c.routineResult p).value values =
              .node name (attributes.map fun entry => (.named entry.1, entry.2)) ∧
            (new.run attributes).attributes = attributes ∧
            ∀ f member, (f, member) ∈ names.members name →
              (.named f ∉ fields → node.field? f = none) ∧
              (new.run attributes).member? member =
                some (((node.lastWritten? f).map (·.2)).getD .empty) ∧
              (∀ i v, node.lastWritten? f = some (.discarded i, v) →
                f = Field.discardMark ∧ fields[i]? = some .discard) ∧
              ((∀ i v, node.lastWritten? f ≠ some (.discarded i, v)) →
                (new.run attributes).member? member = some ((node.field? f).getD .empty)) := by
  have wf := Declarations.wellFormed_of_build hbuild
  rw [hshapes]
  have hcollects := Shapes.collects_ofGrammar c.grammar
  refine ⟨hcollects, ?_, ?_⟩
  · exact fun hnames t ht => Declarations.discardMark_not_mem_fields hbuild hnames ht
  intro p production name fields hp hbinding
  refine ⟨fun p' production' name' fields' hp' hbinding' =>
    Shapes.nodeTypeOf?_eq_iff hp hbinding hp' hbinding', ?_⟩
  obtain ⟨i, t, hi, ht, rfl⟩ := Shapes.exists_nodeType hp hbinding
  have hmem := List.mem_of_getElem? ht
  refine ⟨i, t, hi, ht, rfl, fun header withMain snake pascal => ?_⟩
  intro names new
  have htypes :
      (c.parserModule header withMain).nodeTypes = (Shapes.ofGrammar c.grammar).nodeTypes :=
    congrArg Shapes.nodeTypes hshapes
  have hdistinct : new.Distinct := by
    apply SourceNames.distinct_ofType
    · rw [htypes]
      exact hcollects.names_nodup
    · rwa [htypes]
    · exact hcollects.fields_nodup t hmem
  have hmembers : names.members t.name = SourceNames.membersOf t snake := by
    apply SourceNames.members_ofModule
    · rw [htypes]
      exact hcollects.names_nodup
    · rwa [htypes]
  refine ⟨NodeConstructor.code_ofType names t, hdistinct, ?_, fun values => ?_⟩
  · rw [hmembers, SourceNames.map_fst_membersOf]
  intro attributes node
  have hresult : c.routineResult p = .node t.name (Shapes.keysOf 0 fields) := by
    rw [routineResult_eq_result hshapes hp, hbinding, Binding.result]
  have hnode : node = production.value values := Shapes.build_ofGrammar hp values
  have hattributes : attributes = node.attributes.map fun entry => (entry.1.describe, entry.2) := by
    show (c.routineResult p).attributes values = _
    rw [hresult, hnode, Production.attributes_value hbinding, RoutineResult.attributes,
      List.zip_map_left]
    rfl
  refine ⟨?_, ?_, fun f member harm => ?_⟩
  · rw [hresult, hattributes, hnode, Production.attributes_value hbinding, RoutineResult.value]
    simp [List.zip_map_left, Function.comp_def, Prod.map]
  · rw [NodeConstructor.run]
    split <;> rfl
  have hmember : (new.run attributes).member? member =
      some (((node.lastWritten? f).map (·.2)).getD .empty) := by
    rw [hdistinct.member?_run harm, hattributes, SourceNames.latest?_map]
    rfl
  refine ⟨fun hf => ?_, hmember, fun i v hlast => ?_, fun hlast => ?_⟩
  · rw [hnode]
    exact Production.field?_value_eq_none hbinding hf values
  · rw [hnode] at hlast
    exact Production.discard_of_lastWritten? hbinding hlast
  · have hbinds := wf.binds production (Array.mem_of_getElem? hp)
    have hkeys : (node.attributes.map (·.1)).Nodup := by
      rw [hnode]
      exact Production.nodup_keys_value hbinds hbinding values
    rw [hmember, Value.getD_lastWritten? hkeys hlast]

/-- Two rules make pairs, and the second one leaves a field empty whose name is a keyword. -/
theorem member_eq_field_sharedType : ∃ (c : Compiled) (t : NodeType),
    Samples.sharedType.build Pattern.engine = .ok c.grammar ∧
    c.shapes = .ofGrammar c.grammar ∧ c.shapes.nodeTypes = [t] ∧ t.fields = ["first", "type"] ∧
    let node := (NodeConstructor.ofType (.ofModule (c.parserModule none true)) t).run
      ((c.routineResult 1).attributes [.token "(", .token "a", .token ")"])
    node.member? "first" = some (.token "a") ∧ node.member? "type_" = some .empty := by
  have hrun : ((Samples.sharedType.build Pattern.engine).toOption.bind fun g =>
      g.compile.toOption.map fun c => decide (c.shapes.nodeTypes = [⟨"Pair", ["first", "type"]⟩] ∧
        g.productions[1]?.map (·.binding) =
          some (some (.node "Pair" [.discard, .named "first", .discard])) ∧
        (SourceNames.ofModule (c.parserModule none true)).members "Pair" =
          [("first", "first"), ("type", "type_")])) = some true := by
    decide +kernel
  simp only [Option.bind_eq_some_iff, Option.map_eq_some_iff, toOption_eq_some,
    decide_eq_true_eq] at hrun
  obtain ⟨g, hbuild, c, hcompile, htypes, ⟨production, hp, hbinding⟩, hmembers⟩ := hrun
  obtain ⟨rfl, hc⟩ := coherent hbuild hcompile
  obtain ⟨-, -, hnode⟩ := member_eq_field hbuild hc.shapes
  obtain ⟨-, i, t, -, ht, -, hfunction⟩ := hnode 1 production _ _ hp hbinding
  obtain rfl : t = ⟨"Pair", ["first", "type"]⟩ := by
    simpa [htypes] using List.mem_of_getElem? ht
  obtain ⟨-, -, -, hvalues⟩ := hfunction none true WordCase.snake WordCase.pascal
  obtain ⟨-, -, hfields⟩ := hvalues [.token "(", .token "a", .token ")"]
  obtain ⟨-, -, hmark, hfirst⟩ := hfields "first" "first" (by simp [hmembers])
  obtain ⟨htype, -, hmark', hempty⟩ := hfields "type" "type_" (by simp [hmembers])
  refine ⟨c, _, hbuild, hc.shapes, htypes, rfl, ?_, ?_⟩
  · rw [hfirst fun i v h => absurd (hmark i v h).1 (by decide), hc.shapes,
      Shapes.build_ofGrammar hp, Production.value, hbinding]
    rfl
  · rw [hempty fun i v h => absurd (hmark' i v h).1 (by decide), htype (by simp)]
    rfl

/-- **A member that is not the field**: the binding of the pair names the first value `_` and
discards the second one, which is then what the member holds. -/
theorem member_ne_field_marked : ∃ (c : Compiled) (t : NodeType),
    Samples.marked.build Pattern.engine = .ok c.grammar ∧
    c.shapes = .ofGrammar c.grammar ∧ c.shapes.nodeTypes = [t] ∧ t.fields = ["_"] ∧
    let names := SourceNames.ofModule (c.parserModule none true)
    let values := [.token "a", .token "b"]
    let node := (NodeConstructor.ofType names t).run ((c.routineResult 0).attributes values)
    names.members t.name = [("_", "field")] ∧ node.member? "field" = some (.token "b") ∧
    (c.shapes.build 0 values).field? "_" = some (.token "a") := by
  have hrun : ((Samples.marked.build Pattern.engine).toOption.bind fun g =>
      g.compile.toOption.map fun c => decide (c.shapes.nodeTypes = [⟨"Pair", ["_"]⟩] ∧
        g.productions[0]?.map (·.binding) = some (some (.node "Pair" [.named "_", .discard])) ∧
        c.routineResult 0 = .node "Pair" [.named "_", .discarded 1] ∧
        (SourceNames.ofModule (c.parserModule none true)).members "Pair" =
          [("_", "field")])) = some true := by
    decide +kernel
  simp only [Option.bind_eq_some_iff, Option.map_eq_some_iff, toOption_eq_some,
    decide_eq_true_eq] at hrun
  obtain ⟨g, hbuild, c, hcompile, htypes, ⟨production, hp, hbinding⟩, hresult, hmembers⟩ := hrun
  obtain ⟨rfl, hc⟩ := coherent hbuild hcompile
  refine ⟨c, _, hbuild, hc.shapes, htypes, rfl, hmembers, ?_, ?_⟩
  · rw [hresult, NodeConstructor.ofType, hmembers]
    rfl
  · rw [hc.shapes, Shapes.build_ofGrammar hp, Production.value, hbinding]
    rfl

end Compiled

end PredictiveParsing
