/-!
# Identifiers

Names of a grammar become identifiers of emitted source. An identifier has only ASCII letters,
digits and underscores, begins with no digit, is no keyword, and differs from all identifiers
that were handed out before it.

## Main definitions

* `Namer`: the identifiers that are in use
* `Identifier.base`: the identifier that a name asks for
* `Namer.name`: the identifier that it gets
-/

namespace PredictiveParsing

namespace Identifier

/-- The words that the language of emitted source keeps for itself. -/
def keywords : List String :=
  ["abstract", "as", "async", "await", "become", "box", "break", "const", "continue", "crate",
    "do", "dyn", "else", "enum", "extern", "false", "final", "fn", "for", "gen", "if", "impl",
    "in", "let", "loop", "macro", "match", "mod", "move", "mut", "override", "priv", "pub",
    "ref", "return", "self", "Self", "static", "struct", "super", "trait", "true", "try",
    "type", "typeof", "union", "unsafe", "unsized", "use", "virtual", "where", "while", "yield"]

/-- Whether a character may stand in an identifier. -/
def isAllowed (c : Char) : Bool := c.isAlphanum || c == '_'

/-- What a name leaves of itself: the allowed characters of its converted form. If nothing but
underscores is left the fallback replaces it, and if a digit would come first the fallback stands
before it. -/
def stem (convert : List Char → List Char) (name : String) (fallback : String) : List Char :=
  let kept := (convert name.toList).filter isAllowed
  if kept.all (· == '_') then fallback.toList
  else if kept.head?.any Char.isDigit then fallback.toList ++ kept
  else kept

/-- **The identifier that a name asks for.** A keyword gets an underscore behind it. -/
def base (convert : List Char → List Char) (name : String) (fallback : String) : String :=
  let ident := String.ofList (stem convert name fallback)
  -- no keyword ends with an underscore, so one is enough
  if ident ∈ keywords then ident.push '_' else ident

/-- The identifiers that are tried one after the other. -/
def candidate (ident : String) : Nat → String
  | 0 => ident
  | n + 1 => ident ++ "_" ++ toString (n + 1)

/-- The first candidate that is not in use. There are more candidates than used identifiers, so
one is found. -/
def fresh (used : List String) (ident : String) : String :=
  (((List.range (used.length + 1)).map (candidate ident)).find? (· ∉ used)).getD ident

end Identifier

/-- **The identifiers that are in use** in one scope. -/
structure Namer where
  /-- The identifiers, the latest first, reserved ones last. -/
  used : List String
deriving DecidableEq

namespace Namer

/-- **The identifier for a name**, and the identifiers in use after it. -/
def name (n : Namer) (convert : List Char → List Char) (raw fallback : String) :
    String × Namer :=
  let ident := Identifier.fresh n.used (Identifier.base convert raw fallback)
  (ident, ⟨ident :: n.used⟩)

/-- The identifiers for names one after the other, each with its name. -/
def nameAll (n : Namer) (convert : List Char → List Char) (fallback : String) :
    List String → List (String × String)
  | [] => []
  | raw :: rest =>
    let (ident, n) := n.name convert raw fallback
    (raw, ident) :: n.nameAll convert fallback rest

end Namer

end PredictiveParsing
