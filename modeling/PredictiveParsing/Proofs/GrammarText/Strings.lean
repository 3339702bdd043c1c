import Mathlib.Tactic.IntervalCases
import PredictiveParsing.GrammarText.Rules
import PredictiveParsing.Pattern.Engine
import PredictiveParsing.Proofs.Grammar.Build
import PredictiveParsing.Proofs.GrammarText.Written
import PredictiveParsing.Proofs.Lexicon.Scan
import PredictiveParsing.Proofs.Pattern.Reading

/-!
# Strings in grammar files are in quotes

The pattern of strings has one branch for each kind of quotes. A branch reads the quote that opens,
then single characters and pairs with a backslash, and then the same quote again. So wherever a run
of its automaton stands, it is known how the rest of the string ends.

## Main definitions

* `stringAutomaton`: the automaton of the pattern of strings
* `Awaited`: what has yet to be read from a state of it
* `PatternEngine.ReadsStrings`: what the pattern of strings matches is in quotes

## Main results

* `isQuoted_of_reads`: what the automaton reads is in quotes
* `Pattern.readsStrings_engine`: the engine of lexica reads strings
* `isQuoted_of_mem_tokens`: the strings in the scan of a grammar file are in quotes
-/

namespace PredictiveParsing

open Pattern (Automaton)

namespace GrammarText

/-- Any character but a quote and a backslash. -/
def plainIn (quote : Char) : CharSet :=
  .complement (.union (.union .nothing (.single quote)) (.single '\\'))

/-- Any character but a line feed. -/
def inLine : CharSet := .complement (.single '\n')

/-- **The automaton of the pattern of strings.** It has the states 1 to 7 for double quotes, and 8
to 14 for single ones. -/
def stringAutomaton : Automaton where
  states := #[.accept,
    .chars (.single '"') 0, .choice [6, 1], .chars inLine 2, .chars (.single '\\') 3,
    .chars (plainIn '"') 2, .choice [5, 4], .chars (.single '"') 2,
    .chars (.single '\'') 0, .choice [13, 8], .chars inLine 9, .chars (.single '\\') 10,
    .chars (plainIn '\'') 9, .choice [12, 11], .chars (.single '\'') 9,
    .choice [14, 7], .assertion .textStart 15]
  start := 16
  anchored := true

theorem automatonOf?_stringPattern :
    Pattern.automatonOf? (Pattern.anchor stringPattern.toList) = some stringAutomaton := by
  decide +kernel

/-! ## What is read from the states -/

/-- A text ends with a quote. -/
def Closes (quote : Char) (text : List Char) : Prop := ∃ inner, text = inner ++ [quote]

/-- A text stands between two quotes. -/
def Encloses (quote : Char) (text : List Char) : Prop := ∃ inner, text = quote :: inner ++ [quote]

section Quotes

variable {quote c : Char} {text : List Char}

theorem Closes.cons (h : Closes quote text) (c : Char) : Closes quote (c :: text) := by
  obtain ⟨inner, rfl⟩ := h
  exact ⟨c :: inner, rfl⟩

theorem Closes.of_mem (hc : (CharSet.single quote).mem c = true) (h : text = []) :
    Closes quote (c :: text) := by
  rw [CharSet.mem_single.mp hc, h]
  exact ⟨[], rfl⟩

theorem Encloses.of_mem (hc : (CharSet.single quote).mem c = true) (h : Closes quote text) :
    Encloses quote (c :: text) := by
  obtain ⟨inner, rfl⟩ := h
  rw [CharSet.mem_single.mp hc]
  exact ⟨inner, rfl⟩

end Quotes

/-- **What has yet to be read** from a state: nothing, a closing quote at the end, or all of the
string. -/
def Awaited (m : Nat) (text : List Char) : Prop :=
  match m with
  | 0 => text = []
  | 1 | 2 | 3 | 4 | 5 | 6 => Closes '"' text
  | 7 => Encloses '"' text
  | 8 | 9 | 10 | 11 | 12 | 13 => Closes '\'' text
  | 14 => Encloses '\'' text
  | _ => Encloses '\'' text ∨ Encloses '"' text

theorem awaited_of_reads {m : Nat} {text : List Char} (h : stringAutomaton.Reads m text) :
    Awaited m text := by
  have hlt {m : Nat} {s : Pattern.State} (h : stringAutomaton.states[m]? = some s) : m < 17 :=
    (Array.getElem?_eq_some_iff.mp h).1
  induction h with
  | @accept m h =>
    have hm := hlt h
    interval_cases m <;> first | rfl | cases h
  | @char m next s c text h hc hrest ih =>
    have hm := hlt h
    interval_cases m <;> cases h
    all_goals first
      | exact .of_mem hc ih
      | exact ih.cons c
  | @assertion m next x text h hrest ih =>
    have hm := hlt h
    interval_cases m <;> cases h
    exact ih
  | @choice m next nexts text h hnext hrest ih =>
    have hm := hlt h
    interval_cases m <;> cases h
    all_goals rcases hnext with _ | ⟨_, _ | ⟨_, ⟨⟩⟩⟩
    -- only the choice between the two kinds of quotes makes a difference
    all_goals first
      | exact ih
      | exact .inl ih
      | exact .inr ih

/-- **What the automaton of strings reads is in quotes.** -/
theorem isQuoted_of_reads {text : List Char}
    (h : stringAutomaton.Reads stringAutomaton.start text) :
    ∃ inner, IsQuoted (String.ofList text) inner := by
  rcases awaited_of_reads h with ⟨inner, rfl⟩ | ⟨inner, rfl⟩
  · exact ⟨inner, .inl (String.toList_ofList ..)⟩
  · exact ⟨inner, .inr (String.toList_ofList ..)⟩

end GrammarText

/-- **An engine reads strings** if what the pattern of strings matches is a text in quotes. -/
def PatternEngine.ReadsStrings (engine : PatternEngine) : Prop :=
  ∀ find, engine GrammarText.stringPattern = some find →
    ∀ l n, find l = some n → ∃ inner, GrammarText.IsQuoted (String.ofList (l.take n)) inner

theorem Pattern.readsStrings_engine : PatternEngine.ReadsStrings engine := by
  intro find hengine l n hfind
  rw [engine, GrammarText.automatonOf?_stringPattern] at hengine
  obtain rfl := Option.some.inj hengine
  exact GrammarText.isQuoted_of_reads (Automaton.reads_of_find rfl hfind)

namespace GrammarText

/-! ## Strings in a scan -/

variable {engine : PatternEngine} {g : Grammar}

/-- In the grammar of grammar files, the terminal for strings has the pattern of strings. -/
theorem pattern_of_build (hbuild : declarations.build engine = .ok g)
    {terminal : Terminal} (hmem : terminal ∈ g.terminals) (hname : terminal.name = "string") :
    terminal.pattern = stringPattern := by
  have hall : ∀ entry ∈ tokens, entry.1 = "string" → entry.2 = stringPattern := by decide
  rw [(Declarations.terminals_of_build hbuild).1, List.mem_toArray] at hmem
  obtain ⟨entry, hentry, rfl⟩ := List.mem_map.mp hmem
  exact hall entry hentry hname

/-- **The strings in the scan of a grammar file are in quotes.** -/
theorem isQuoted_of_mem_tokens (hstrings : engine.ReadsStrings)
    (hbuild : declarations.build engine = .ok g) {line : Nat} {text : List Char} {t : Token}
    (ht : t ∈ (g.lexicon.scanFrom line text).tokens)
    (hstring : g.terminalName t.terminal = "string") : ∃ inner, IsQuoted t.text inner := by
  obtain ⟨rule, before, n, hrule, hfind, htext⟩ := Lexicon.reads_of_mem_tokens ht
  obtain ⟨hlt, hname⟩ := (Declarations.wellFormed_of_build hbuild).rule_succ hrule
  obtain ⟨find, hengine, hrule'⟩ :=
    Declarations.exists_rule_of_build hbuild (Array.getElem?_eq_getElem hlt)
  obtain rfl := Option.some.inj (hrule.symm.trans hrule')
  rw [pattern_of_build hbuild (Array.getElem_mem hlt) (hname.trans hstring)] at hengine
  rw [htext]
  exact hstrings find hengine _ _ hfind

end GrammarText

end PredictiveParsing
