import PredictiveParsing.Grammar.Basic
import PredictiveParsing.Tree.Value

/-!
# Shapes

The binding of each production is turned once into the shape of the value that it makes. The
types of nodes are collected on the way: a type has the named fields of all its bindings, in
order of first appearance.

## Main definitions

* `NodeType`, `Shape`: a type of node with its fields, and how a production makes its value
* `Shapes`: the shapes of all productions
* `Shapes.build?`: the value of a production, from the values of its symbols
-/

namespace PredictiveParsing

/-- A type of node. -/
structure NodeType where
  /-- The name of the type. -/
  name : String
  /-- The fields that some binding to the type names, in order of first appearance. -/
  fields : List String
deriving DecidableEq, Inhabited

/-- **How a production makes its value.** -/
inductive Shape where
  /-- The tuple of the values; nothing, if there are none. -/
  | tuple
  /-- Nothing. -/
  | suppressed
  /-- A node of the type with the given number, with a key for each value. -/
  | node (nodeType : Nat) (keys : List FieldKey)
deriving DecidableEq, Inhabited

/-- **The shapes of the productions** of a grammar, and the types of nodes they make. -/
structure Shapes where
  /-- The types of nodes in order of first appearance. -/
  nodeTypes : List NodeType := []
  /-- The shapes of the productions. -/
  shapes : Array Shape := #[]
deriving DecidableEq

namespace Shapes

/-- The keys for the fields of a binding; `position` is the position of the first one. -/
def keysOf (position : Nat) : List Field → List FieldKey
  | [] => []
  | .named name :: rest => .named name :: keysOf (position + 1) rest
  | .discard :: rest => .discarded position :: keysOf (position + 1) rest

/-- Adds a field to a type that does not have it. -/
def addField (t : NodeType) : Field → NodeType
  | .named name => if name ∈ t.fields then t else { t with fields := t.fields ++ [name] }
  | .discard => t

/-- The number of the type with a name, and the types with one of that name among them. -/
def findType (types : List NodeType) (name : String) : Nat × List NodeType :=
  match types.findIdx? (·.name == name) with
  | some i => (i, types)
  | none => (types.length, types ++ [⟨name, []⟩])

/-- Adds the shape of one more production. -/
def addBinding (s : Shapes) : Option Binding → Shapes
  | none => { s with shapes := s.shapes.push .tuple }
  | some .suppressed => { s with shapes := s.shapes.push .suppressed }
  | some (.node nodeType fields) =>
    let (i, types) := findType s.nodeTypes nodeType
    { nodeTypes := types.modify i fun t => fields.foldl addField t
      shapes := s.shapes.push (.node i (keysOf 0 fields)) }

/-- **The shapes of the productions of a grammar.** -/
def ofGrammar (g : Grammar) : Shapes :=
  g.productions.toList.foldl (fun s p => s.addBinding p.binding) {}

/-- The shape of a production. -/
def shape? (s : Shapes) (p : Nat) : Option Shape := s.shapes[p]?

/-- The name of a type of node. -/
def typeName (s : Shapes) (i : Nat) : String := (s.nodeTypes[i]?.map (·.name)).getD ""

/-- The value of a shape, from the values of the symbols. Keys and values are paired in order. -/
def buildShape (s : Shapes) (shape : Shape) (values : List Value) : Value :=
  match shape with
  | .tuple => if values.isEmpty then .empty else .tuple values
  | .suppressed => .empty
  | .node nodeType keys => .node (s.typeName nodeType) (keys.zip values)

/-- The value of a production, from the values of its symbols; there is none for a number that
no production has. -/
def build? (s : Shapes) (p : Nat) (values : List Value) : Option Value :=
  (s.shape? p).map (s.buildShape · values)

/-- **The value of a production**, from the values of its symbols. -/
def build (s : Shapes) (p : Nat) (values : List Value) : Value :=
  (s.build? p values).getD .empty

end Shapes

end PredictiveParsing
