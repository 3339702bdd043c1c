import PredictiveParsing.Pattern.Basic

/-!
# Automata of patterns

A pattern is run as an automaton with numbered states. A state reads a character, tests a
condition, offers other states in order of preference, or accepts.

The states of a pattern are made from the end: the state to go on with afterwards is given, and
the state to start from is the result. Each round that a count asks for has states of its own;
the rounds of a repetition without limit share theirs. Which states are shared matters, because
a run enters a state only once at each position. A repetition of something that always reads is
entered at the state that decides on further rounds. If a round may be empty, the decision on
the first round has a state apart; otherwise an empty first round would lead back to a state
that was entered before, and nothing could follow it.

## Main definitions

* `Pattern.State`, `Pattern.Automaton`: states and automata
* `Pattern.automaton`: the automaton of a pattern
-/

namespace PredictiveParsing.Pattern

/-- **A state of an automaton**, with the numbers of the states after it. -/
inductive State where
  /-- Reads a character of a set. -/
  | chars (s : CharSet) (next : Nat)
  /-- Goes on where a condition holds. -/
  | assertion (a : Assertion) (next : Nat)
  /-- Goes on with any of some states, the preferred one first. -/
  | choice (nexts : List Nat)
  /-- The end of a match. -/
  | accept
deriving DecidableEq

/-- The choice between another round and going on: a greedy repetition prefers the round. -/
def State.decision (greedy : Bool) (round next : Nat) : State :=
  choice (if greedy then [round, next] else [next, round])

/-- **An automaton.** -/
structure Automaton where
  /-- The states. -/
  states : Array State
  /-- The number of the state to start from. -/
  start : Nat
  /-- Whether matches are only looked for at the start of a text. -/
  anchored : Bool := false
deriving DecidableEq

/-- Adds a state, to start from. -/
def Automaton.ofState (s : State) (states : Array State) : Automaton :=
  -- the number is taken first, so that the array can grow in place
  let start := states.size
  { states := states.push s, start }

/-- Whether a pattern may match without reading. Conditions are not taken into account. -/
def mayBeEmpty : Pattern → Bool
  | empty => true
  | chars _ => false
  | assertion _ => true
  | seq p q => p.mayBeEmpty && q.mayBeEmpty
  | alt p q => p.mayBeEmpty || q.mayBeEmpty
  | repeated p low _ _ => low == 0 || p.mayBeEmpty

/-- Puts the states of a pattern in front of the start of an automaton. -/
def before : Pattern → Automaton → Automaton
  | empty, a => a
  | chars s, a => .ofState (.chars s a.start) a.states
  | assertion c, a => .ofState (.assertion c a.start) a.states
  | seq p q, a => p.before (q.before a)
  | alt p q, a =>
    let second := q.before a
    let first := p.before { second with start := a.start }
    .ofState (.choice [first.start, second.start]) first.states
  | repeated p low none greedy, a =>
    -- the deciding state is added first, since the states of a round lead back to it
    let loop := Automaton.ofState .accept a.states
    let round := p.before loop
    let decision := State.decision greedy round.start a.start
    let states := round.states.setIfInBounds loop.start decision
    if low == 0 then
      if p.mayBeEmpty then .ofState decision states else { loop with states }
    else Nat.repeat p.before (low - 1) { round with states }
  | repeated p low (some high) greedy, a =>
    let round (b : Automaton) : Automaton :=
      let c := p.before b
      .ofState (.decision greedy c.start a.start) c.states
    Nat.repeat p.before low (Nat.repeat round (high - low) a)

/-- The number of states that a pattern needs. -/
def size : Pattern → Nat
  | empty => 0
  | chars _ => 1
  | assertion _ => 1
  | seq p q => p.size + q.size
  | alt p q => p.size + q.size + 1
  | repeated p low none _ =>
    if low == 0 then p.size + (if p.mayBeEmpty then 2 else 1) else low * p.size + 1
  | repeated p low (some high) _ => low * p.size + (high - low) * (p.size + 1)

/-- Whether a pattern can only match at the start of a text. -/
def isAnchored : Pattern → Bool
  | assertion .textStart => true
  | seq p q => p.isAnchored || (p == empty && q.isAnchored)
  | alt p q => p.isAnchored && q.isAnchored
  | _ => false

/-- The largest size of a pattern that is run: larger counts make a text no pattern. -/
def maxSize : Nat := 327680

/-- **The automaton of a pattern.** -/
def automaton (p : Pattern) : Automaton :=
  { p.before (.ofState .accept #[]) with anchored := p.isAnchored }

end PredictiveParsing.Pattern
