import PredictiveParsing.GrammarText.Document
import PredictiveParsing.Tree.Value

/-!
# Grammar files from their values

The value of a parsed grammar file is a node for each rule that was used. Lists are chains of
nodes, each with one part and the rest of the chain; where a chain ends, the rest is nothing.

## Main definitions

* `Malformed`: a value is not one of a grammar file
* `documentOf`: the contents of a grammar file, from its value
-/

namespace PredictiveParsing

/-- A value is smaller than the node that has it as a field. -/
theorem Value.sizeOf_lt_of_field? {v w : Value} {name : String} (h : v.field? name = some w) :
    sizeOf w < sizeOf v := by
  simp only [Value.field?, Option.filter_eq_some_iff, Option.map_eq_some_iff] at h
  obtain ⟨⟨a, ha, rfl⟩, -⟩ := h
  have hmem := List.mem_of_find?_eq_some ha
  cases v with
  | node kind attributes =>
    have := List.sizeOf_lt_of_mem (show a ∈ attributes from hmem)
    obtain ⟨key, w⟩ := a
    simp only [Prod.mk.sizeOf_spec] at this
    simp only [Value.node.sizeOf_spec]
    omega
  | _ => simp [Value.attributes] at hmem

namespace GrammarText

/-- **A value is not one of a grammar file**: something is not there, or is of another kind. -/
structure Malformed where
  /-- The kind or the field that was expected. -/
  expected : String
deriving DecidableEq

/-- The message of a malformed value. -/
def Malformed.message (e : Malformed) : String :=
  "malformed grammar tree: expected " ++ e.expected

/-- Checks the kind of a node. -/
def expectKind (kind : String) (v : Value) : Except Malformed Unit :=
  if v.kind? == some kind then .ok () else .error ⟨kind⟩

/-- The text of the token in a field. -/
def tokenOf (v : Value) (field : String) : Except Malformed String :=
  match (v.field? field).bind (·.text?) with
  | some text => .ok text
  | none => .error ⟨field⟩

/-- A text without the quotes around it. -/
def stripQuotes (quoted : String) : Except Malformed String :=
  if quoted.length < 2 then .error ⟨"string"⟩
  else .ok (String.ofList (quoted.toList.tail.dropLast))

/-- The character that a backslash before a character stands for. -/
def unescapeChar (c : Char) : Char :=
  match c with
  | 'n' => '\n'
  | 't' => '\t'
  | 'r' => '\r'
  | '0' => '\x00'
  | c => c

/-- The characters that a quoted text stands for. A backslash at the end stands for itself. -/
def unescape : List Char → List Char
  | '\\' :: c :: rest => unescapeChar c :: unescape rest
  | c :: rest => c :: unescape rest
  | [] => []

mutual

/-- The expression that a value stands for. -/
def exprOf (v : Value) : Except Malformed Expr :=
  match v.kind? with
  | some "Name" => do return .symbol (← tokenOf v "val")
  | some "Literal" => do
    let text ← stripQuotes (← tokenOf v "val")
    return .literal (String.ofList (unescape text.toList))
  | some "Repeat" => do return .anyNumber (← partsOf v)
  | some "Optional" => do return .optional (← partsOf v)
  | some "Set" => do return .set (← partsOf v)
  | _ => .error ⟨"Exp"⟩
termination_by 3 * sizeOf v + 2

/-- The expressions in a node: the one in the field `exp`, then those of the chain in `exps`. -/
def partsOf (v : Value) : Except Malformed (List Expr) :=
  match _h : v.field? "exp" with
  | none => .error ⟨"Exp"⟩
  | some first => do
    let first ← exprOf first
    match _h' : v.field? "exps" with
    | none => return [first]
    | some links => return first :: (← linksOf links)
termination_by 3 * sizeOf v + 1
decreasing_by
  · have := Value.sizeOf_lt_of_field? _h
    omega
  · have := Value.sizeOf_lt_of_field? _h'
    omega

/-- The expressions of a chain. -/
def linksOf (v : Value) : Except Malformed (List Expr) := do
  expectKind "Exps" v
  match _h : v.field? "exp" with
  | none => .error ⟨"Exp"⟩
  | some first => do
    let first ← exprOf first
    match _h' : v.field? "rest" with
    | none => return [first]
    | some links => return first :: (← linksOf links)
termination_by 3 * sizeOf v
decreasing_by
  · have := Value.sizeOf_lt_of_field? _h
    omega
  · have := Value.sizeOf_lt_of_field? _h'
    omega

end

/-- What stands in the links of a chain of nodes of one kind, which may be absent. -/
def chainOf {α : Type} (kind : String) (item : Value → Except Malformed α) (v : Option Value) :
    Except Malformed (List α) :=
  match v with
  | none => .ok []
  | some v => do
    expectKind kind v
    let first ← item v
    return first :: (← chainOf kind item (v.field? "rest"))
termination_by v.elim 0 (sizeOf · + 1)
decreasing_by
  cases h : v.field? "rest" with
  | none => simp
  | some w => simpa using Value.sizeOf_lt_of_field? h

/-- The binding that a value stands for: the mark alone suppresses the value. -/
def bindingOf (v : Option Value) : Except Malformed (Option Binding) :=
  match v with
  | none => .ok none
  | some v => do
    expectKind "Binding" v
    let name ← tokenOf v "name"
    let fields ← chainOf "Names" (tokenOf · "name") (v.field? "names")
    return some (if name == Field.discardMark && fields.isEmpty then .suppressed
      else .ofNames name fields)

/-- The alternative that a value stands for. -/
def alternativeOf (v : Option Value) : Except Malformed Alternative :=
  match v with
  | none => .error ⟨"Alt"⟩
  | some v => do
    let parts ← match v.kind? with
      | some "Alt" => partsOf v
      | some "Epsilon" => pure []
      | _ => throw ⟨"Alt"⟩
    return ⟨parts, ← bindingOf (v.field? "binding")⟩

/-- The declaration in the link of a chain. -/
def declarationOf (link : Value) : Except Malformed Declaration :=
  match link.field? "decl" with
  | none => .error ⟨"Decl"⟩
  | some v => do
    expectKind "Decl" v
    let head ← tokenOf v "name"
    let first ← alternativeOf (v.field? "alt")
    let others ← chainOf "Alts" (fun link => alternativeOf (link.field? "alt")) (v.field? "alts")
    return ⟨head, first :: others⟩

/-- The token declared in the link of a chain. -/
def tokenPairOf (link : Value) : Except Malformed (String × String) := do
  let pattern ← stripQuotes (← tokenOf link "pattern")
  return (← tokenOf link "name", pattern)

/-- **The contents of a grammar file**, from its value. -/
def documentOf (v : Value) : Except Malformed Document := do
  expectKind "Spec" v
  let root ← tokenOf v "root"
  let tokens ← chainOf "TokenPair" tokenPairOf (v.field? "tokens")
  let declarations ← chainOf "Decls" declarationOf (v.field? "decls")
  return ⟨root, tokens, declarations⟩

end GrammarText

end PredictiveParsing
