/-!
# Blocks of code

Emitted source is put together from lines and from blocks whose insides are indented.

## Main definitions

* `Code`: a line or a block
* `Code.render`: the written form at some depth
* `Code.renderItems`: the written form of items with an empty line between each two of them
-/

namespace PredictiveParsing

/-- The lines of a text. A line feed ends a line, together with a carriage return right before
it; the last line needs no end. -/
def textLines : List Char → List (List Char)
  | [] => []
  | '\n' :: rest => [] :: textLines rest
  | '\r' :: '\n' :: rest => [] :: textLines rest
  | c :: rest =>
    match textLines rest with
    | [] => [[c]]
    | l :: ls => (c :: l) :: ls

/-- **A piece of code.** -/
inductive Code where
  /-- A line. It may hold line feeds; then it is several. -/
  | line (text : String)
  /-- A block between two lines. -/
  | nest (opening : String) (body : List Code) (closing : String)

namespace Code

/-- A block in braces, with some text behind the closing one. -/
def braces (opening : String) (body : List Code) (behind : String) : Code :=
  nest (opening ++ " \x7b") body ("\x7d" ++ behind)

/-- A block in braces. -/
def block (opening : String) (body : List Code) : Code := braces opening body ""

/-- The line without text. -/
def gap : Code := line ""

/-- A line at some depth: each level indents by four spaces, but an empty line stays empty. -/
def indentLine (depth : Nat) (l : List Char) : List Char :=
  if l.isEmpty then [] else List.replicate (4 * depth) ' ' ++ l

/-- A text with its lines at some depth. -/
def indentText (depth : Nat) (text : String) : String :=
  let l := ['\n'].intercalate ((textLines text.toList).map (indentLine depth))
  String.ofList (if text.toList.getLast? = some '\n' then l ++ ['\n'] else l)

mutual

/-- **The written form of a piece of code** at some depth. -/
def render (depth : Nat) : Code → String
  | line text => indentText depth text ++ "\n"
  | nest opening body closing =>
    indentText depth opening ++ "\n" ++ renderAll (depth + 1) body ++
      indentText depth closing ++ "\n"

/-- The written forms of pieces of code, one after the other. -/
def renderAll (depth : Nat) : List Code → String
  | [] => ""
  | code :: rest => render depth code ++ renderAll depth rest

end

/-- **The written form of items** with an empty line between each two of them. -/
def renderItems (items : List (List Code)) : String :=
  "\n".intercalate (items.map (renderAll 0))

/-- Items with an empty line between each two of them. -/
def separated : List (List Code) → List Code
  | [] => []
  | [item] => item
  | item :: rest => item ++ gap :: separated rest

end Code

end PredictiveParsing
