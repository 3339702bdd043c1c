import PredictiveParsing.Grammar.Declarations

/-!
# The grammar of grammar files

A grammar file names the start symbol, lists tokens with their patterns, and gives the rules:

```text
%root E
%tokens NUM '[0-9]+' PLUS '\+'
%grammar
  E := T [ PLUS T ] # Sum first rest ;
  T := NUM # Num val | '(' E ')' # Paren _ inner _ ;
```

`[ .. ]` stands for any number of rounds, `< .. >` for at most one, `$` for the empty body, and a
hash mark comes before a binding. Quoted names in bodies stand for themselves.

## Main definitions

* `GrammarText.declarations`: the declarations of this grammar
-/

namespace PredictiveParsing.GrammarText

/-- The pattern of quoted texts, in single or double quotes. -/
def stringPattern : String := "'(?:[^'\\\\]|\\\\.)*'|\"(?:[^\"\\\\]|\\\\.)*\""

/-- The tokens of grammar files. -/
def tokens : List (String × String) :=
  [("pound", "#"), ("bar", "\\|"), ("epsilon", "\\$"), ("lrepeat", "\\["), ("rrepeat", "\\]"),
    ("lset", "\\\x7b"), ("rset", "\\\x7d"), ("lopt", "<"), ("ropt", ">"),
    ("string", stringPattern), ("name", "\\w+"), ("root", "%root"), ("tokens", "%tokens"),
    ("grammar", "%grammar"), ("define", ":="), ("semi", ";")]

/-- A rule for plain symbols that makes a node. -/
def nodeRule (head : String) (body : List String) (kind : String) (fields : List String) : Rule :=
  ⟨head, body.map .symbol, some (.ofNames kind fields)⟩

/-- A rule for the empty body. -/
def emptyRule (head : String) : Rule := ⟨head, [], none⟩

/-- The rules of grammar files. -/
def rules : List Rule :=
  [nodeRule "Spec" ["root", "name", "tokens", "TokenPairs", "grammar", "Decls"]
      "Spec" ["_", "root", "_", "tokens", "_", "decls"],
    nodeRule "TokenPairs" ["name", "string", "TokenPairs"] "TokenPair" ["name", "pattern", "rest"],
    emptyRule "TokenPairs",
    nodeRule "Decls" ["Decl", "Decls"] "Decls" ["decl", "rest"],
    emptyRule "Decls",
    nodeRule "Decl" ["name", "define", "Alt", "Alts", "semi"]
      "Decl" ["name", "_", "alt", "alts", "_"],
    nodeRule "Alts" ["bar", "Alt", "Alts"] "Alts" ["_", "alt", "rest"],
    emptyRule "Alts",
    nodeRule "Alt" ["Exp", "Exps", "Binding"] "Alt" ["exp", "exps", "binding"],
    nodeRule "Alt" ["epsilon", "Binding"] "Epsilon" ["_", "binding"],
    nodeRule "Exps" ["Exp", "Exps"] "Exps" ["exp", "rest"],
    emptyRule "Exps",
    nodeRule "Exp" ["lrepeat", "Exp", "Exps", "rrepeat"] "Repeat" ["_", "exp", "exps", "_"],
    nodeRule "Exp" ["lset", "Exp", "Exps", "rset"] "Set" ["_", "exp", "exps", "_"],
    nodeRule "Exp" ["lopt", "Exp", "Exps", "ropt"] "Optional" ["_", "exp", "exps", "_"],
    nodeRule "Exp" ["name"] "Name" ["val"],
    nodeRule "Exp" ["string"] "Literal" ["val"],
    nodeRule "Binding" ["pound", "name", "Names"] "Binding" ["_", "name", "names"],
    emptyRule "Binding",
    nodeRule "Names" ["name", "Names"] "Names" ["name", "rest"],
    emptyRule "Names"]

/-- **The declarations of the grammar of grammar files.** -/
def declarations : Declarations := { start := "Spec", terminals := tokens, rules := rules }

end PredictiveParsing.GrammarText
