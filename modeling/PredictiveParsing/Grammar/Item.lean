import PredictiveParsing.Grammar.BuildError

/-!
# Items of rules and their expansion

The body of a rule is a list of items: symbols, and repetitions of items. Repetitions are
expanded into plain rules for fresh nonterminals:

* any number of rounds of `x`: `r := x r | $`
* at most one round of `x`: `o := x | $`
* at least one round of `x`: `r := x s` and `s := x s | $`

The recursion is on the right, so one token of lookahead still tells whether another round
follows. A fresh name is drawn before the items inside are expanded, and its rules are added
after theirs. The rules for fresh nonterminals have no binding and stand after all declared ones.

## Main definitions

* `Item`, `Rule`: rules with repetitions
* `FlatRule`: rules without
* `expandRules`: the expansion
-/

namespace PredictiveParsing

/-- A bound on the number of rounds of a repetition. -/
inductive Bound where
  /-- A number of rounds. -/
  | finite (rounds : Nat)
  /-- No bound. -/
  | infinite
deriving DecidableEq

/-- **An item of a rule.** -/
inductive Item where
  /-- A symbol, by its name. -/
  | symbol (name : String)
  /-- Rounds of some items, as many as the bounds allow. -/
  | repeated (items : List Item) (low high : Bound)
  /-- Some items in any order. -/
  | oneOfEach (items : List Item)
deriving Inhabited

namespace Item

/-- Any number of rounds. -/
def anyNumber (items : List Item) : Item := repeated items (.finite 0) .infinite

/-- At most one round. -/
def optional (items : List Item) : Item := repeated items (.finite 0) (.finite 1)

/-- At least one round. -/
def atLeastOne (items : List Item) : Item := repeated items (.finite 1) .infinite

end Item

/-- A rule: one alternative of a nonterminal. -/
structure Rule where
  /-- The name of the nonterminal. -/
  head : String
  /-- The items of the alternative. -/
  items : List Item
  /-- How the value is made. -/
  binding : Option Binding
deriving Inhabited

/-- A rule without repetitions. -/
structure FlatRule where
  /-- The name of the nonterminal. -/
  head : String
  /-- The names of the symbols. -/
  body : List String
  /-- How the value is made. -/
  binding : Option Binding
deriving DecidableEq, Inhabited

/-- The beginning of the names that are kept for fresh nonterminals. -/
def freshPrefix : String := "_anon_"

/-- What an expansion has produced: the rules for fresh nonterminals, and the number of the next
fresh name. -/
structure Expansion where
  /-- The rules for fresh nonterminals, in order. -/
  fresh : List FlatRule := []
  /-- The number of the next fresh name. -/
  counter : Nat := 0
deriving DecidableEq, Inhabited

namespace Expansion

/-- The fresh name for a kind of repetition and a number. -/
def nameOf (kind : String) (number : Nat) : String := freshPrefix ++ kind ++ toString number

/-- Draws a fresh name for a kind of repetition. -/
def draw (s : Expansion) (kind : String) : String × Expansion :=
  (nameOf kind s.counter, { s with counter := s.counter + 1 })

/-- Adds a rule for a fresh nonterminal. -/
def add (s : Expansion) (head : String) (body : List String) : Expansion :=
  { s with fresh := s.fresh ++ [⟨head, body, none⟩] }

end Expansion

mutual

/-- **Expands an item** into the name of one symbol. -/
def Item.expand : Item → Expansion → Except BuildError (String × Expansion)
  | .symbol name, s => .ok (name, s)
  | .oneOfEach _, _ => .error (.unsupportedOperator .set)
  | .repeated items low high, s =>
    if items.isEmpty then .error (.unsupportedOperator .emptyRepetition)
    else
      match low, high with
      | .finite 0, .infinite => do
        let (name, s) := s.draw "Repeat"
        let (body, s) ← Item.expandAll items s
        return (name, (s.add name (body ++ [name])).add name [])
      | .finite 0, .finite 1 => do
        let (name, s) := s.draw "Optional"
        let (body, s) ← Item.expandAll items s
        return (name, (s.add name body).add name [])
      | .finite 1, .infinite => do
        let (name, s) := s.draw "Repeat"
        let (more, s) := s.draw "Repeat"
        -- the items are expanded twice, each time with fresh names of their own
        let (body, s) ← Item.expandAll items s
        let s := (s.add more (body ++ [more])).add more []
        let (body, s) ← Item.expandAll items s
        return (name, s.add name (body ++ [more]))
      | _, _ => .error (.unsupportedOperator .bounds)

/-- Expands items one after the other. -/
def Item.expandAll : List Item → Expansion → Except BuildError (List String × Expansion)
  | [], s => .ok ([], s)
  | item :: items, s => do
    let (name, s) ← item.expand s
    let (names, s) ← Item.expandAll items s
    return (name :: names, s)

end

/-- Expands declared rules one after the other, with one sequence of fresh names for all. -/
def expandDeclared : List Rule → Expansion → Except BuildError (List FlatRule × Expansion)
  | [], s => .ok ([], s)
  | rule :: rules, s =>
    if freshPrefix.toList.isPrefixOf rule.head.toList then .error (.reservedName rule.head)
    else do
      let (body, s) ← Item.expandAll rule.items s
      let (rest, s) ← expandDeclared rules s
      return (⟨rule.head, body, rule.binding⟩ :: rest, s)

/-- **Expands the repetitions of declared rules**: the declared rules in order, then those for
fresh nonterminals. -/
def expandRules (rules : List Rule) : Except BuildError (List FlatRule) := do
  let (declared, s) ← expandDeclared rules {}
  return declared ++ s.fresh

end PredictiveParsing
