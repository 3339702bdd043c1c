import PredictiveParsing.Emission.Rendering

/-!
# What nodes of emitted parsers hold

The source has a type for each type of node, with a member for each of its fields. A node is made
from its attributes: all members begin empty, and then the attributes are gone through in order,
each of which goes into the member for its key, if there is one.

## Main definitions

* `NodeStruct`: a node as emitted source has it
* `NodeConstructor`: the function that makes a node
* `NodeConstructor.code`, `NodeConstructor.run`: its source, and what it does
-/

namespace PredictiveParsing

/-- **A node as emitted source has it.** -/
structure NodeStruct where
  /-- The values of the members. -/
  members : List (String × Value)
  /-- All attributes, also those that no member is for. -/
  attributes : List (String × Value)

namespace NodeStruct

/-- The value of a member. -/
def member? (node : NodeStruct) (member : String) : Option Value := node.members.lookup member

/-- Puts a value into a member. -/
def assign (node : NodeStruct) (member : String) (v : Value) : NodeStruct :=
  { node with members := node.members.map fun m => if m.1 = member then (m.1, v) else m }

end NodeStruct

/-- **A function that makes a node** from its attributes. -/
structure NodeConstructor where
  /-- The type of the node. -/
  nodeType : String
  /-- The members that begin empty. -/
  members : List String
  /-- The keys that are told apart, each with the member that its value goes into. -/
  arms : List (String × String)
deriving DecidableEq

namespace NodeConstructor

/-- The function for a type of node. -/
def ofType (names : SourceNames) (t : NodeType) : NodeConstructor where
  nodeType := names.nodeType t.name
  members := (names.members t.name).map (·.2)
  arms := names.members t.name

variable (new : NodeConstructor)

/-- The source of the function. -/
def code : Code :=
  .block ("pub fn new(attrs: " ++ ParserModule.attributesType ++ ") -> Self") <|
    if new.arms.isEmpty then [.line "Self \x7b attrs \x7d"]
    else
      [.braces ("let mut node = " ++ new.nodeType)
          (new.members.map (fun member => .line (member ++ ": super::Value::Empty,")) ++
            [.line "attrs: Vec::new(),"]) ";",
        .block "for (key, value) in &attrs" [
          .block "match *key"
            (new.arms.map (fun (key, member) =>
                .line (Quoted.quote key ++ " => node." ++ member ++ " = value.clone(),")) ++
              [.line "_ => \x7b\x7d"])],
        .line "node.attrs = attrs;",
        .line "node"]

/-- All members are empty at the start. -/
def blank : NodeStruct := ⟨new.members.map fun member => (member, .empty), []⟩

/-- One attribute: the first arm with its key is taken. -/
def take (node : NodeStruct) (entry : String × Value) : NodeStruct :=
  match new.arms.lookup entry.1 with
  | some member => node.assign member entry.2
  | none => node

/-- **The node that is made.** -/
def run (attributes : List (String × Value)) : NodeStruct :=
  if new.arms.isEmpty then ⟨[], attributes⟩
  else { attributes.foldl new.take new.blank with attributes }

end NodeConstructor

/-- The attributes that the source passes to the function for the node of a result. -/
def RoutineResult.attributes (values : List Value) : RoutineResult → List (String × Value)
  | node _ keys => (keys.map FieldKey.describe).zip values
  | _ => []

end PredictiveParsing
