import PredictiveParsing.Emission.Identifier
import PredictiveParsing.Emission.ParserModule
import PredictiveParsing.Emission.SupportCode
import PredictiveParsing.Text.WordCase

/-!
# Parser modules as source

A parser module is written out as one file of Rust source. Names of the grammar stand in it as
quoted texts; where the source needs identifiers, they are made from the names.

## Main definitions

* `SourceNames`: the identifiers for the names of a parser module
* `ParserModule.items`: the items of the source
* `ParserModule.render`: the source
-/

namespace PredictiveParsing

/-- **The identifiers for the names of a parser module.** Each list pairs names with what stands
for them; where a name occurs twice the later pair counts. -/
structure SourceNames where
  /-- The functions for the nonterminals. -/
  routines : List (String × String)
  /-- The types for the types of nodes. -/
  nodeTypes : List (String × String)
  /-- The members for the fields of each type of node. -/
  fields : List (String × List (String × String))
deriving DecidableEq

namespace SourceNames

/-- The function that starts a parse, without its common first part. -/
def rootName : String := "root"

/-- The member that every type of node has. -/
def attributesName : String := "attrs"

/-- The function for a nonterminal, from its identifier. -/
def functionName (ident : String) : String := "parse_" ++ ident

/-- The identifiers for the nonterminals. -/
def routineIdentifiers (m : ParserModule) (snake : List Char → List Char := WordCase.snake) :
    List (String × String) :=
  Namer.nameAll ⟨[rootName]⟩ snake "nonterminal" (m.routines.map (·.nonterminal))

/-- The members for the fields of a type of node. -/
def membersOf (t : NodeType) (snake : List Char → List Char := WordCase.snake) :
    List (String × String) :=
  Namer.nameAll ⟨[attributesName]⟩ snake "field" t.fields

/-- **The identifiers for the names of a parser module.** The letters of a name are converted in one
way for functions and members, and in another one for types. -/
def ofModule (m : ParserModule) (snake : List Char → List Char := WordCase.snake)
    (pascal : List Char → List Char := WordCase.pascal) : SourceNames where
  routines := (routineIdentifiers m snake).map fun (name, ident) => (name, functionName ident)
  nodeTypes := Namer.nameAll ⟨[]⟩ pascal "Node" (m.nodeTypes.map (·.name))
  fields := m.nodeTypes.map fun t => (t.name, membersOf t snake)

variable (names : SourceNames)

/-- What stands for a name in a list of pairs. -/
def latest? {α : Type} (pairs : List (String × α)) (name : String) : Option α :=
  pairs.reverse.lookup name

/-- The function for a nonterminal; a nonterminal without one is read from the start. -/
def routine (nonterminal : String) : String :=
  (latest? names.routines nonterminal).getD (functionName rootName)

/-- The type for a type of node; a name that has none stands for itself. -/
def nodeType (name : String) : String := (latest? names.nodeTypes name).getD name

/-- The members for the fields of a type of node. -/
def members (name : String) : List (String × String) := (latest? names.fields name).getD []

end SourceNames

namespace ParserModule

open Quoted (quote)

/-- Texts with commas between them. -/
def commaList (texts : List String) : String := ", ".intercalate texts

/-- A constant list of names. -/
def nameList (names : List String) : String := "&[" ++ commaList (names.map quote) ++ "]"

/-- The comment at the head of the source. The empty line behind it belongs to it. -/
def headerText (m : ParserModule) : String :=
  let lines := match m.header with
    | none => []
    | some text => (textLines text.toList).map String.ofList
  "// Parser for `" ++ m.start ++ "` generated by llgen. Do not edit.\n" ++
    String.join (lines.map fun l => "// " ++ l ++ "\n")

/-- The types that the emitted types can be compared, copied and shown by. -/
def derivation : Code := .line "#[derive(Clone, Debug, PartialEq, Eq)]"

section Nodes

variable (names : SourceNames)

/-- The type of the attributes of a node. -/
def attributesType : String := "Vec<(&'static str, super::Value)>"

/-- The type for a type of node. -/
def nodeStruct (t : NodeType) : List Code :=
  let members := (names.members t.name).map fun (_, member) =>
    Code.line ("pub " ++ member ++ ": super::Value,")
  [derivation,
    .block ("pub struct " ++ names.nodeType t.name)
      (members ++ [.line ("pub attrs: " ++ attributesType ++ ",")])]

/-- The function that makes a node from its attributes: each member gets the value of its
field, and one whose field is not among the attributes stays empty. -/
def nodeConstructor (t : NodeType) : Code :=
  let members := names.members t.name
  .block ("pub fn new(attrs: " ++ attributesType ++ ") -> Self") <|
    if members.isEmpty then [.line "Self \x7b attrs \x7d"]
    else
      [.braces ("let mut node = " ++ names.nodeType t.name)
          (members.map (fun (_, member) => .line (member ++ ": super::Value::Empty,")) ++
            [.line "attrs: Vec::new(),"]) ";",
        .block "for (key, value) in &attrs" [
          .block "match *key"
            (members.map (fun (field, member) =>
                .line (quote field ++ " => node." ++ member ++ " = value.clone(),")) ++
              [.line "_ => \x7b\x7d"])],
        .line "node.attrs = attrs;",
        .line "node"]

/-- The types of nodes, in a name space of their own. -/
def nodeItem (types : List NodeType) : Code :=
  .block "pub mod nodes" <| Code.separated <| types.flatMap fun t =>
    [nodeStruct names t,
      [.block ("impl " ++ names.nodeType t.name) [nodeConstructor names t]]]

/-- The type that has all types of nodes as its cases. -/
def nodeSum (types : List NodeType) : List Code :=
  [derivation,
    .block "pub enum Node" <| types.map fun t =>
      let name := names.nodeType t.name
      .line (name ++ "(nodes::" ++ name ++ "),")]

/-- A function that looks at the case of a node. -/
def nodeMatch (types : List NodeType) (case : NodeType → String) : Code :=
  if types.isEmpty then .line "match *self \x7b\x7d"
  else .block "match self" (types.map fun t => .line (case t))

/-- The kind and the attributes of a node. -/
def nodeFunctions (types : List NodeType) : Code :=
  .block "impl Node" [
    .block "pub fn kind(&self) -> &'static str" [
      nodeMatch types fun t =>
        "Node::" ++ names.nodeType t.name ++ "(_) => " ++ quote t.name ++ ","],
    .gap,
    .block "pub fn attrs(&self) -> &[(&'static str, Value)]" [
      nodeMatch types fun t => "Node::" ++ names.nodeType t.name ++ "(node) => &node.attrs,"]]

end Nodes

/-- The rules for tokens. -/
def tokenRuleItem (rules : List (String × String)) : Code :=
  .nest "const LEX_RULES: &[(&str, &str)] = &["
    (rules.map fun (name, pattern) => .line ("(" ++ quote name ++ ", " ++ quote pattern ++ "),"))
    "];"

section Routines

variable (names : SourceNames)

/-- The variable that holds the value of a step. -/
def valueName (step : Nat) : String := "v" ++ toString step

/-- The expression for the result of a body with a number of steps. -/
def resultText (count : Nat) : RoutineResult → String
  | .suppressed => "Value::Empty"
  | .tuple =>
    if count = 0 then "Value::Empty"
    else "Value::Tuple(vec![" ++ commaList ((List.range count).map valueName) ++ "])"
  | .node nodeType keys =>
    let name := names.nodeType nodeType
    let attributes := (keys.zip (List.range count)).map fun (key, step) =>
      "(" ++ quote key.describe ++ ", " ++ valueName step ++ ")"
    let list :=
      if attributes.isEmpty then "Vec::new()" else "vec![" ++ commaList attributes ++ "]"
    "Value::Node(Box::new(Node::" ++ name ++ "(nodes::" ++ name ++ "::new(" ++ list ++ "))))"

/-- The statement for a step. -/
def stepText (position : Nat) (step : RoutineStep) : String :=
  "let " ++ valueName position ++ " = self." ++
    (match step with
      | .consume token => "consume(" ++ quote token ++ ")"
      | .call nonterminal => names.routine nonterminal ++ "()") ++ "?;"

/-- The statements for the steps of a body. -/
def stepLines (body : RoutineBody) : List Code :=
  body.steps.zipIdx.map fun (step, position) => .line (stepText names position step)

/-- The expression for the success of a body. -/
def successText (body : RoutineBody) : String :=
  "Ok(" ++ resultText names body.steps.length body.result ++ ")"

/-- The code for a branch. -/
def branchCode (branch : Branch) : Code :=
  .block ("if starts(next, " ++ nameList branch.lookahead ++ ")")
    (stepLines names branch.body ++
      [.line ("return " ++ successText names branch.body ++ ";")])

/-- The code for a fallback. -/
def fallbackCode (nonterminal : String) : Fallback → List Code
  | .epsilon body => stepLines names body ++ [.line (successText names body)]
  | .fail expected =>
    [.line ("Err(self.no_alternative(" ++ quote nonterminal ++ ", &[" ++
      commaList (expected.map fun alternative => nameList alternative ++ "[..]") ++ "]))")]

/-- A function of a parser that yields a value. -/
def parseFunction (name : String) (body : List Code) : Code :=
  .block ("fn " ++ name ++ "(&mut self) -> Result<Value, ParseFailure>") body

/-- **The function for a routine.** -/
def routineFunction (r : Routine) : Code :=
  let enter := "self.enter(" ++ quote r.nonterminal ++ ")?;"
  parseFunction (names.routine r.nonterminal) <|
    .line (if r.branches.isEmpty then enter else "let next = " ++ enter) ::
      (r.branches.map (branchCode names) ++ fallbackCode names r.nonterminal r.fallback)

/-- The functions of a parser: the one that starts a parse, and one for each routine. -/
def parserItem (m : ParserModule) : Code :=
  .block "impl<'l, 'i> Parser<'l, 'i>" <| Code.separated <|
    [parseFunction (SourceNames.functionName SourceNames.rootName)
        [.line ("self." ++ names.routine m.start ++ "()")]] ::
      m.routines.map fun r => [routineFunction names r]

end Routines

/-- **The items of the source.** -/
def items (m : ParserModule) : List (List Code) :=
  let names := SourceNames.ofModule m
  [[.line m.headerText],
    [.line SupportCode.text],
    [nodeItem names m.nodeTypes],
    nodeSum names m.nodeTypes,
    [nodeFunctions names m.nodeTypes],
    [tokenRuleItem m.tokenRules],
    [parserItem names m]] ++
  if m.withMain then SupportCode.programItems else []

/-- **The source of a parser.** -/
def render (m : ParserModule) : String := Code.renderItems m.items

end ParserModule

end PredictiveParsing
