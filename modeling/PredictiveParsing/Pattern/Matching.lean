import PredictiveParsing.Pattern.Automaton

/-!
# Matching

A pattern is found at the leftmost position from which it matches at all, and of the matches from
there the preferred one counts.

The automaton of the pattern is run along the text. At each position there is a list of the
states that wait for the next character, the preferred one first and each once. When an accepting
state is among them a match has been found, and the states after it are dropped: what they lead
to is less preferred. Those before it may still lead to a match that is preferred over the one
found. As long as no match is found a match may start at the position at hand, but that is less
preferred than all that has started earlier.

## Main definitions

* `Pattern.Position`: the neighbours of a place in a text
* `Pattern.Automaton.waiting`: the states that wait at a position
* `Pattern.Automaton.find`: where the leftmost, preferred match ends
-/

namespace PredictiveParsing.Pattern

/-- **A place in a text**, by its neighbours. -/
structure Position where
  /-- The character before the position, if any. -/
  before : Option Char
  /-- The character after the position, if any. -/
  after : Option Char
deriving DecidableEq

/-- Whether a condition holds at a position. -/
def Assertion.holds (a : Assertion) (p : Position) : Bool :=
  let word : Option Char → Bool := fun c => c.any Unicode.isWord
  match a with
  | textStart => p.before.isNone
  | textEnd => p.after.isNone
  | lineStart => p.before.isNone || p.before == some '\n'
  | lineEnd => p.after.isNone || p.after == some '\n'
  | wordBoundary => word p.before != word p.after
  | noWordBoundary => word p.before == word p.after
  | wordStart => !word p.before && word p.after
  | wordEnd => word p.before && !word p.after
  | noWordBefore => !word p.before
  | noWordAfter => !word p.after

/-- What has been entered at a position. -/
structure Entered where
  /-- The states entered. -/
  seen : List Nat := []
  /-- Those of them that read or accept, the latest first. -/
  waiting : List Nat := []

namespace Automaton

variable (a : Automaton)

/-- Enters a state, and those that it leads to without reading. A state that was entered before
is passed over. At most `depth` states are nested, and no two of them are the same. -/
def enter (p : Position) : (depth : Nat) → (state : Nat) → Entered → Entered
  | 0, _, e => e
  | depth + 1, state, e =>
    if e.seen.contains state then e
    else
      let e := { e with seen := state :: e.seen }
      match a.states[state]? with
      | some (.choice nexts) => nexts.foldl (fun e next => enter p depth next e) e
      | some (.assertion c next) => if c.holds p then enter p depth next e else e
      | _ => { e with waiting := state :: e.waiting }

/-- **The states that wait at a position** when some states are entered one after the other. -/
def waiting (p : Position) (states : List Nat) : List Nat :=
  (states.foldl (fun e state => a.enter p a.states.size state e) {}).waiting.reverse

/-- Whether a state accepts. -/
def accepts (state : Nat) : Bool := a.states[state]? == some .accept

/-- The state that follows a state when it reads a character. -/
def next? (c : Char) (state : Nat) : Option Nat :=
  match a.states[state]? with
  | some (.chars s next) => if s.mem c then some next else none
  | _ => none

/-- The end of the preferred match, where `found` is the one found before the position at hand,
`before` is the character before it, and `states` are to be entered there. -/
def search (offset : Nat) (before : Option Char) (found : Option Nat)
    (states : List Nat) : List Char → Option Nat
  | [] => if (a.waiting ⟨before, none⟩ states).any a.accepts then some offset else found
  | c :: rest =>
    let waiting := a.waiting ⟨before, some c⟩ states
    let found := if waiting.any a.accepts then some offset else found
    let nexts := (waiting.takeWhile (!a.accepts ·)).filterMap (a.next? c)
    let nexts := if a.anchored || found.isSome then nexts else nexts ++ [a.start]
    -- without a state to enter nothing more can be found
    if nexts.isEmpty then found else search (offset + 1) (some c) found nexts rest

/-- **Where the leftmost match ends**, the preferred one if there are several: the number of
characters of the text up to that end. -/
def find (text : List Char) : Option Nat := a.search 0 none none [a.start] text

/-- Whether there is a match somewhere in a text. -/
def isFoundIn (text : List Char) : Bool := (a.find text).isSome

end Automaton

end PredictiveParsing.Pattern
