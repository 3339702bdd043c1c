import PredictiveParsing.Text.Quoted

/-!
# Values

A parse makes a value: the text of a token, the tuple of the values of a body, a node with
attributes, or nothing.

## Main definitions

* `Value`: the values
* `Value.field?`, `Value.discarded?`: the attributes of a node
* `Value.describe`: the written form of a value
-/

namespace PredictiveParsing

/-- The key of an attribute: the name of a field, or the position of a discarded value. -/
inductive FieldKey where
  /-- A named field. -/
  | named (name : String)
  /-- A discarded value, by its position in the body. -/
  | discarded (position : Nat)
deriving DecidableEq, Inhabited

/-- The written form of a key; positions are not shown. -/
def FieldKey.describe : FieldKey → String
  | named name => name
  | discarded _ => "_"

/-- **The value of a parse.** -/
inductive Value where
  /-- Nothing: what an empty body makes, and what a suppressed one leaves. -/
  | empty
  /-- The text of a token. -/
  | token (text : String)
  /-- The values of a body. -/
  | tuple (values : List Value)
  /-- A node with attributes in the order of the body, discarded ones included. -/
  | node (kind : String) (attributes : List (FieldKey × Value))
deriving Inhabited

namespace Value

/-- Whether a value is nothing. -/
def isEmpty : Value → Bool
  | empty => true
  | _ => false

/-- The text of a token. -/
def text? : Value → Option String
  | token text => some text
  | _ => none

/-- The values of a tuple. -/
def values? : Value → Option (List Value)
  | tuple values => some values
  | _ => none

/-- The kind of a node. -/
def kind? : Value → Option String
  | node kind _ => some kind
  | _ => none

/-- The attributes of a node; other values have none. -/
def attributes : Value → List (FieldKey × Value)
  | node _ attributes => attributes
  | _ => []

/-- **A named field** of a node. A field that holds nothing counts as missing. -/
def field? (v : Value) (name : String) : Option Value :=
  ((v.attributes.find? (·.1 == .named name)).map (·.2)).filter (!·.isEmpty)

/-- The value at a discarded position of a node. -/
def discarded? (v : Value) (position : Nat) : Option Value :=
  (v.attributes.find? (·.1 == .discarded position)).map (·.2)

/-- A step from a value to a part of it. -/
inductive Step where
  /-- To a named field. -/
  | field (name : String)
  /-- To a discarded position. -/
  | discarded (position : Nat)
  /-- To a component of a tuple. -/
  | component (index : Nat)
deriving DecidableEq

/-- The part of a value to which a step leads. -/
def step? (v : Value) : Step → Option Value
  | .field name => v.field? name
  | .discarded position => v.discarded? position
  | .component index => v.values?.bind (·[index]?)

/-- The part of a value to which steps lead. -/
def walk? (v : Value) (steps : List Step) : Option Value :=
  steps.foldlM step? v

mutual

/-- **The written form of a value**: tokens are quoted, tuples stand in parentheses, and the
attributes of a node stand in brackets behind its kind. -/
def describe : Value → String
  | empty => "None"
  | token text => Quoted.quote text
  | tuple values => "(" ++ describeValues values ++ ")"
  | node kind attributes => kind ++ "[" ++ describeAttributes attributes ++ "]"

/-- The written forms of values, with commas between them. -/
def describeValues : List Value → String
  | [] => ""
  | [v] => describe v
  | v :: rest => describe v ++ ", " ++ describeValues rest

/-- The written forms of attributes, with commas between them. -/
def describeAttributes : List (FieldKey × Value) → String
  | [] => ""
  | [(key, v)] => key.describe ++ ": " ++ describe v
  | (key, v) :: rest => key.describe ++ ": " ++ describe v ++ ", " ++ describeAttributes rest

end

end Value

end PredictiveParsing
