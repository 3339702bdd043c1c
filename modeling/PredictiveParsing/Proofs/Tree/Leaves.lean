import PredictiveParsing.Proofs.Parse.Soundness
import PredictiveParsing.Proofs.Tree.Shape
import PredictiveParsing.Samples

/-!
# The tokens of a value

A tuple holds the values of all symbols of a body, and so does a node, whose binding has been
checked to have a field for each of them. Only productions without symbols have their values
suppressed. So the tokens that a parse has consumed stand in its value, in order.

## Main definitions

* `Value.leaves`: the texts of tokens in a value, from left to right
* `Value.IsPartOf`, `SyntaxTree.IsPartOf`: the parts of values and of syntax trees

## Main results

* `Production.leaves_value`: the value of a production has the tokens of the values of its symbols
* `Grammar.IsForest.leaves_values`: the value of a tree has the tokens of the tree
* `Compiled.parse_lossless`: what is parsed has all tokens of the text
-/

namespace PredictiveParsing

open SyntaxTree (yieldAll values)

/-! ## Leaves and parts -/

namespace Value

mutual

/-- **The texts of tokens in a value**, from left to right, at discarded positions as well. -/
def leaves : Value → List String
  | empty => []
  | token text => [text]
  | tuple values => leavesAll values
  | node _ attributes => attributeLeaves attributes

/-- The texts of tokens in a list of values. -/
def leavesAll : List Value → List String
  | [] => []
  | v :: rest => leaves v ++ leavesAll rest

/-- The texts of tokens in attributes. -/
def attributeLeaves : List (FieldKey × Value) → List String
  | [] => []
  | (_, v) :: rest => leaves v ++ attributeLeaves rest

end

/-- **A value is part of another**: it is that value, or part of an entry of it. -/
inductive IsPartOf (w : Value) : Value → Prop
  | refl : IsPartOf w w
  | component {v : Value} {values : List Value} (hv : v ∈ values) (h : IsPartOf w v) :
      IsPartOf w (tuple values)
  | field {key : FieldKey} {v : Value} {kind : String} {attributes : List (FieldKey × Value)}
      (hv : (key, v) ∈ attributes) (h : IsPartOf w v) : IsPartOf w (node kind attributes)

/-- As long as no value is cut off, keys do not matter for the leaves. -/
theorem attributeLeaves_zip {keys : List FieldKey} {values : List Value}
    (h : keys.length = values.length) : attributeLeaves (keys.zip values) = leavesAll values := by
  induction keys generalizing values with
  | nil =>
    rw [List.length_nil, eq_comm, List.length_eq_zero_iff] at h
    subst h
    rfl
  | cons key keys ih =>
    cases values with
    | nil => simp at h
    | cons v values =>
      rw [List.zip_cons_cons, attributeLeaves, leavesAll, ih (by simpa using h)]

end Value

/-- **A syntax tree is part of another**: it is that tree, or part of a child of it. -/
inductive SyntaxTree.IsPartOf (u : SyntaxTree) : SyntaxTree → Prop
  | refl : IsPartOf u u
  | child {t : SyntaxTree} {p : Nat} {children : List SyntaxTree} (ht : t ∈ children)
      (h : IsPartOf u t) : IsPartOf u (.node p children)

/-! ## The values of productions -/

theorem Shapes.length_keysOf (position : Nat) (fields : List Field) :
    (keysOf position fields).length = fields.length := by
  induction fields generalizing position with
  | nil => rfl
  | cons field fields ih => cases field <;> simp [keysOf, ih]

/-- **The value of a production has the tokens of the values of its symbols.** -/
theorem Production.leaves_value {p : Production} (hbinds : p.Binds) {values : List Value}
    (hlength : values.length = p.body.length) :
    (p.value values).leaves = Value.leavesAll values := by
  unfold Binds at hbinds
  unfold value
  match p.binding, hbinds with
  | none, _ =>
    cases values with
    | nil => rfl
    | cons v values => rfl
  | some .suppressed, hbody =>
    -- only a production without symbols is suppressed
    rw [hbody, List.length_nil, List.length_eq_zero_iff] at hlength
    subst hlength
    rfl
  | some (.node nodeType fields), ⟨hfields, _⟩ =>
    rw [Value.leaves]
    refine Value.attributeLeaves_zip ?_
    rw [Shapes.length_keysOf, hfields, hlength]

/-- A node in the value of a production is the node of its binding, with an attribute for each
symbol, or it is part of the value of a symbol. -/
theorem Production.node_isPartOf_value {p : Production} (hbinds : p.Binds) {values : List Value}
    (hlength : values.length = p.body.length) {kind : String}
    {attributes : List (FieldKey × Value)}
    (h : (Value.node kind attributes).IsPartOf (p.value values)) :
    (∃ fields, p.binding = some (.node kind fields) ∧
      attributes = (Shapes.keysOf 0 fields).zip values ∧ attributes.length = p.body.length) ∨
      ∃ v ∈ values, (Value.node kind attributes).IsPartOf v := by
  unfold Binds at hbinds
  unfold value at h
  match hbinding : p.binding with
  | none =>
    rw [hbinding] at h
    by_cases hempty : values.isEmpty = true
    · simp only [hempty, if_true] at h
      cases h
    · simp only [if_neg hempty] at h
      cases h with
      | component hv h => exact .inr ⟨_, hv, h⟩
  | some .suppressed =>
    rw [hbinding] at h
    cases h
  | some (.node nodeType fields) =>
    rw [hbinding] at h hbinds
    cases h with
    | refl =>
      refine .inl ⟨fields, rfl, rfl, ?_⟩
      rw [List.length_zip, Shapes.length_keysOf, hbinds.1, hlength, Nat.min_self]
    | field hv h => exact .inr ⟨_, (List.of_mem_zip hv).2, h⟩

/-! ## The values of trees -/

namespace Grammar.IsForest

variable {g : Grammar} {shapes : Shapes} {xs : List Symbol} {ts : List SyntaxTree}

theorem length_eq (h : g.IsForest xs ts) : ts.length = xs.length := by
  induction h with
  | nil => rfl
  | leaf t _ ih => simp [ih]
  | node _ _ _ _ ih => simp [ih]

theorem length_values (shapes : Shapes) (ts : List SyntaxTree) :
    (values shapes ts).length = ts.length := by
  induction ts with
  | nil => rfl
  | cons t ts ih => simp [values, ih]

variable (wf : g.WellFormed)

include wf

/-- **The values of a forest have the tokens of the forest.** -/
theorem leaves_values (h : g.IsForest xs ts) :
    Value.leavesAll (values (.ofGrammar g) ts) = (yieldAll ts).map (·.text) := by
  induction h with
  | nil => rfl
  | leaf t _ ih =>
    rw [values, Value.leavesAll, ih]
    rfl
  | @node xs ts children p production hp hinner _ ihinner ihrest =>
    have hbinds := wf.binds production (Array.mem_of_getElem? hp)
    have hlength : (values (.ofGrammar g) children).length = production.body.length := by
      rw [length_values, hinner.length_eq]
    rw [values, Value.leavesAll, ihrest, SyntaxTree.value, Shapes.build_ofGrammar hp,
      Production.leaves_value hbinds hlength, ihinner]
    simp [yieldAll, SyntaxTree.yield]

/-- **Every node in the values of a forest is the value of a tree in it**: there is a production
with a binding to its type, and it has an attribute for each symbol of that. -/
theorem exists_of_isPartOf (h : g.IsForest xs ts) {v : Value} (hv : v ∈ values (.ofGrammar g) ts)
    {kind : String} {attributes : List (FieldKey × Value)}
    (hpart : (Value.node kind attributes).IsPartOf v) :
    ∃ t ∈ ts, ∃ p production children fields, (SyntaxTree.node p children).IsPartOf t ∧
      g.productions[p]? = some production ∧ production.binding = some (.node kind fields) ∧
      attributes = (Shapes.keysOf 0 fields).zip (values (.ofGrammar g) children) ∧
      attributes.length = production.body.length := by
  -- Induction on the forest: a node is made at its root, in the forest of the body, or behind it.
  induction h generalizing v with
  | nil => simp [values] at hv
  | leaf t _ ih =>
    rcases List.mem_cons.mp hv with rfl | hv
    · cases hpart
    · obtain ⟨u, hu, hbuilt⟩ := ih hv hpart
      exact ⟨u, List.mem_cons_of_mem _ hu, hbuilt⟩
  | @node xs ts children p production hp hinner _ ihinner ihrest =>
    rcases List.mem_cons.mp hv with rfl | hv
    · rw [SyntaxTree.value, Shapes.build_ofGrammar hp] at hpart
      have hbinds := wf.binds production (Array.mem_of_getElem? hp)
      have hlength : (values (.ofGrammar g) children).length = production.body.length := by
        rw [length_values, hinner.length_eq]
      rcases Production.node_isPartOf_value hbinds hlength hpart with
        ⟨fields, hbinding, hattributes, hcount⟩ | ⟨w, hw, hpart⟩
      · exact ⟨_, List.mem_cons_self, p, production, children, fields, .refl, hp, hbinding,
          hattributes, hcount⟩
      · obtain ⟨u, hu, q, production', children', fields, hsub, hbuilt⟩ := ihinner hw hpart
        exact ⟨_, List.mem_cons_self, q, production', children', fields, .child hu hsub, hbuilt⟩
    · obtain ⟨u, hu, hbuilt⟩ := ihrest hv hpart
      exact ⟨u, List.mem_cons_of_mem _ hu, hbuilt⟩

end Grammar.IsForest

/-! ## Texts -/

namespace Compiled

/-- **What is parsed has all tokens of the text**, none missing and none repeated. The value is
that of the syntax tree that the parse has walked through, and each node in it has one attribute
for each symbol of the production that has made it. -/
theorem parse_lossless {engine : PatternEngine} {d : Declarations} {g : Grammar} {c : Compiled}
    (hbuild : d.build engine = .ok g) (hcompile : g.compile = .ok c) {text : String} {v : Value}
    {rest : Scan} {events : List Event} (hparse : c.parse text = .ok v rest events) :
    v.leaves = (g.lexicon.scan text.toList).tokens.map (·.text) ∧
      ∃ tree line, g.IsTree (.nonterminal g.start) tree ∧
        g.lexicon.scan text.toList = Scan.prepend tree.yield (.done line) ∧
        v = tree.value c.shapes ∧ events = tree.trace g (.done line) ∧
        ∀ kind attributes, (Value.node kind attributes).IsPartOf v →
          ∃ p production children fields, (SyntaxTree.node p children).IsPartOf tree ∧
            g.productions[p]? = some production ∧
            production.binding = some (.node kind fields) ∧
            attributes = (Shapes.keysOf 0 fields).zip (values c.shapes children) ∧
            attributes.length = production.body.length := by
  obtain ⟨rfl, hc⟩ := coherent hbuild hcompile
  obtain ⟨tree, line, htree, hscan, -, rfl, rfl⟩ := hc.exists_tree_of_parse hparse
  refine ⟨?_, tree, line, htree, hscan, rfl, rfl, fun kind attributes hpart => ?_⟩
  · have hleaves := htree.leaves_values hc.wellFormed
    simp only [values, Value.leavesAll, yieldAll, List.append_nil] at hleaves
    rw [hscan, Scan.tokens_prepend, Scan.tokens, List.append_nil, hc.shapes, hleaves]
  · rw [hc.shapes] at hpart ⊢
    obtain ⟨t, ht, hbuilt⟩ :=
      htree.exists_of_isPartOf hc.wellFormed (List.mem_singleton_self _) hpart
    obtain rfl := List.mem_singleton.mp ht
    exact hbuilt

/-- A list in parentheses keeps them in discarded positions of its node. -/
theorem parse_lossless_nested : ∃ g c v rest events attributes production,
    Samples.nested.build Pattern.engine = .ok g ∧ g.compile = .ok c ∧
    c.parse "( a )" = .ok v rest events ∧ v.leaves = ["(", "a", ")"] ∧
    v = .node "Cons" attributes ∧ production ∈ g.productions ∧
    attributes.length = production.body.length := by
  have hrun : ((Samples.nested.build Pattern.engine).toOption.bind fun g =>
      g.compile.toOption.bind fun c => match c.parse "( a )" with
        | .ok v _ _ => some (v.kind?, (g.lexicon.scan "( a )".toList).tokens.map (·.text))
        | _ => none) = some (some "Cons", ["(", "a", ")"]) := by
    decide +kernel
  simp only [Option.bind_eq_some_iff, toOption_eq_some] at hrun
  obtain ⟨g, hbuild, c, hcompile, hrun⟩ := hrun
  split at hrun
  · rename_i v rest events hparse
    obtain ⟨hkind, htexts⟩ := Prod.mk.inj (Option.some.inj hrun)
    obtain ⟨hleaves, tree, line, -, -, -, -, hnodes⟩ := parse_lossless hbuild hcompile hparse
    cases v with
    | node kind attributes =>
      obtain rfl : kind = "Cons" := Option.some.inj hkind
      obtain ⟨p, production, children, fields, -, hp, -, -, hlength⟩ := hnodes _ _ .refl
      exact ⟨g, c, _, rest, events, attributes, production, hbuild, hcompile, hparse,
        hleaves.trans htexts, rfl, Array.mem_of_getElem? hp, hlength⟩
    | _ => simp [Value.kind?] at hkind
  · cases hrun

end Compiled

end PredictiveParsing
