import PredictiveParsing.Parse.ParseError

/-!
# Outcomes of stretches of a parse

A stretch of a parse reads some items of a scan. It yields a value and the rest of the scan, or
fails; either way it reports what happened on the way, the entries of nonterminals and the
tokens consumed. A stretch is given a number of nested calls, and one that needs more is neither
a success nor a failure.

## Main definitions

* `Event`: what is reported
* `Outcome`: what a stretch comes to
* `Outcome.bind`: one stretch after another
-/

namespace PredictiveParsing

/-- **What is reported of a parse.** -/
inductive Event where
  /-- A nonterminal is entered on a line. -/
  | enter (nonterminal : String) (line : Nat)
  /-- A token is consumed. -/
  | consume (token text : String)
deriving DecidableEq

/-- **What a stretch of a parse comes to**, with the events of the stretch. `σ` is what is left
to read. -/
inductive Outcome (σ ε α : Type) where
  /-- A value, and what is left to read. -/
  | ok (value : α) (rest : σ) (events : List Event)
  /-- A failure. -/
  | failed (error : ε) (events : List Event)
  /-- More nested calls would be needed. -/
  | exhausted

namespace Outcome

variable {σ ε α β : Type}

/-- The events of a stretch. -/
def events : Outcome σ ε α → List Event
  | ok _ _ events => events
  | failed _ events => events
  | exhausted => []

/-- The outcome after earlier events. -/
def after (earlier : List Event) : Outcome σ ε α → Outcome σ ε α
  | ok v rest events => ok v rest (earlier ++ events)
  | failed e events => failed e (earlier ++ events)
  | exhausted => exhausted

/-- **One stretch after another**: the second one starts with the value and the rest of the
first. -/
def bind (o : Outcome σ ε α) (next : α → σ → Outcome σ ε β) : Outcome σ ε β :=
  match o with
  | ok v rest events => (next v rest).after events
  | failed e events => failed e events
  | exhausted => exhausted

/-- The outcome with another value. -/
def map (f : α → β) : Outcome σ ε α → Outcome σ ε β
  | ok v rest events => ok (f v) rest events
  | failed e events => failed e events
  | exhausted => exhausted

end Outcome

end PredictiveParsing
