import PredictiveParsing.Journal
import PredictiveParsing.Pattern.Engine

/-!
# Which notes are shown

Directives say up to which level notes are shown. A directive may be limited to parts of the
program whose names begin with a given text; of the directives that apply, the one with the
longest such text decides, and of several the last. In writing, directives stand with commas
between them, and a pattern that the notes must match may stand behind a slash.

## Main definitions

* `Directive`, `NoteFilter`: which notes are shown
* `NoteFilter.addText`: the filter that a text describes, added to another
* `NoteFilter.shows`: whether a note is shown
* `noteLines`: the written form of notes
-/

namespace PredictiveParsing

/-- **Up to which level notes are shown**, for parts of the program whose names begin with a
text. -/
structure Directive where
  /-- What the names begin with. -/
  target : String
  /-- The last level that is shown, if any. -/
  limit : Option Level
deriving DecidableEq

namespace Directive

/-- Whether a directive applies to a note. -/
def applies (d : Directive) (n : Note) : Bool := d.target.toList.isPrefixOf n.target.toList

/-- Whether a directive shows a note to which it applies. -/
def shows (d : Directive) (n : Note) : Bool := d.limit.any fun level => n.level.rank ≤ level.rank

/-- The directive that decides: the later one, if its text is no shorter. -/
def stronger (d e : Directive) : Directive :=
  if d.target.length ≤ e.target.length then e else d

end Directive

/-- **Which notes are shown.** -/
structure NoteFilter where
  /-- The directives. -/
  directives : List Directive
  /-- A pattern that occurs in the texts of all notes that are shown. -/
  pattern : Option Pattern.Automaton := none

namespace NoteFilter

/-- The directive that decides about a note. -/
def decisive? (f : NoteFilter) (n : Note) : Option Directive :=
  match f.directives.filter (·.applies n) with
  | [] => none
  | d :: rest => some (rest.foldl Directive.stronger d)

/-- **Whether a note is shown.** -/
def shows (f : NoteFilter) (n : Note) : Bool :=
  (f.decisive? n).any (·.shows n) && f.pattern.all (·.isFoundIn n.message.toList)

/-- The filter for the number of times that more output was asked for. -/
def ofVerbosity (verbosity : Nat) : NoteFilter where
  directives := [⟨"", match verbosity with
    | 0 => some .warn
    | 1 => some .debug
    | _ => some .trace⟩]

/-- The limit with a name; letter case does not matter. -/
def limit? (name : String) : Option (Option Level) :=
  let name := name.toUpper
  if name == "OFF" then some none
  else ([.error, .warn, .info, .debug, .trace].find? (·.name == name)).map some

/-- A text without the white space around it. -/
def trim (text : String) : String :=
  let l := text.toList.dropWhile Unicode.isBlank
  String.ofList (l.reverse.dropWhile Unicode.isBlank).reverse

/-- The directive that a text describes, or the part of the text that describes none. A name
alone shows everything of its part of the program. -/
def directive (text : String) : Except String Directive :=
  match text.splitOn "=" with
  | [single] =>
    match limit? single with
    | some limit => .ok ⟨"", limit⟩
    | none => .ok ⟨single, some .trace⟩
  | [target, name] =>
    let name := trim name
    if name.isEmpty then .ok ⟨target, some .trace⟩
    else
      match limit? name with
      | some limit => .ok ⟨target, limit⟩
      | none => .error name
  | _ => .error text

/-- The warning about a text that describes nothing. -/
def warning (text : String) : String :=
  "warning: invalid logging spec '" ++ text ++ "', ignoring it"

/-- **The filter that a text describes**, added to an earlier one, and the warnings about the
text. -/
def addText (f : NoteFilter) (text : String) : NoteFilter × List String :=
  let (parts, pattern) := match text.splitOn "/" with
    | [parts] => (some parts, none)
    | [parts, pattern] => (some parts, Pattern.automatonOf? pattern.toList)
    | _ => (none, none)
  match parts with
  | none => (f, [warning text ++ " (too many '/'s)"])
  | some parts =>
    let read := ((parts.splitOn ",").filter (!·.isEmpty)).map directive
    ({ directives := f.directives ++ read.filterMap (·.toOption), pattern },
      read.filterMap fun
        | .ok _ => none
        | .error part => some (warning part))

end NoteFilter

/-- A text with blanks behind it, up to a width. -/
def padded (width : Nat) (text : String) : String :=
  text ++ String.ofList (List.replicate (width - text.length) ' ')

/-- The written form of notes. Names of parts of the program are as wide as the longest one up to
their line, which is at least `width`. -/
def noteLines (width : Nat) : List Note → List String
  | [] => []
  | n :: rest =>
    let width := max width n.target.length
    (" " ++ padded 5 n.level.name ++ " " ++ padded width n.target ++ " > " ++ n.message) ::
      noteLines width rest

end PredictiveParsing
