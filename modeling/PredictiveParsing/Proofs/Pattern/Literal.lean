import PredictiveParsing.Pattern.Engine
import PredictiveParsing.Pattern.Literal

/-!
# Patterns of given texts match just these texts

The pattern that is written for a text has a backslash before each character with a meaning of its
own, so all its characters are read as themselves. Its automaton has a state for each of them, one
behind the other: a run is in one state at a time, and it compares the text with what comes next.

## Main definitions

* `Pattern.ofText`: the characters of a text, one after another
* `Automaton.Spells`: from a state on, an automaton reads just one text
* `PatternEngine.ReadsTexts`: the pattern of a text matches where this text begins, and nowhere else

## Main results

* `read?_anchor_escape`: what the written form of the pattern of a text denotes
* `Automaton.search_of_spells`: a run compares a text with what comes next
* `readsTexts_engine`: the engine of lexica reads texts
-/

namespace PredictiveParsing

namespace Pattern

/-! ## Reading -/

/-- A backslash takes the meaning from a character that has one. -/
theorem readEscape_of_isMeta {c : Char} (hc : isMeta c = true) (rest : List Char) :
    readEscape {} (c :: rest) = some (.char c, rest) := by
  have hmem : c ∈ ['\\', '.', '+', '*', '?', '(', ')', '|', '[', ']', '{', '}', '^', '$', '#', '&',
      '-', '~'] := of_decide_eq_true hc
  simp only [List.mem_cons, List.not_mem_nil, or_false] at hmem
  rcases hmem with rfl | rfl | rfl | rfl | rfl | rfl | rfl | rfl | rfl | rfl | rfl | rfl | rfl |
    rfl | rfl | rfl | rfl | rfl <;> rfl

/-- **A character is read as itself**, with a backslash if it would have a meaning of its own. -/
theorem readBranches_escapeChar (fuel : Nat) (names : List (List Char)) (branches : List Pattern)
    (parts : List (Option Pattern)) (c : Char) (rest : List Char) :
    readBranches (fuel + 1) {} names branches parts (escapeChar c ++ rest) =
      readBranches fuel {} names branches (some (.chars (.single c)) :: parts) rest := by
  by_cases hc : isMeta c = true
  · rw [escapeChar, if_pos hc, List.cons_append, List.singleton_append, readBranches]
    simp [skip, readEscape_of_isMeta hc, withCase]
  · rw [escapeChar, if_neg hc, List.singleton_append]
    have hne (d : Char) (hd : isMeta d = true) : c ≠ d := by
      rintro rfl
      exact hc hd
    rw [readBranches]
    simp only [skip, Bool.false_eq_true, if_false]
    split
    case h_1 heq => cases heq
    case h_14 heq =>
      obtain ⟨rfl, rfl⟩ := List.cons.inj heq
      rfl
    all_goals
      rename_i heq
      exact absurd (List.cons.inj heq).1 (hne _ rfl)

/-- **A text is read character by character.** -/
theorem readBranches_escape (fuel : Nat) (names : List (List Char)) (branches : List Pattern)
    (parts : List (Option Pattern)) (text rest : List Char) :
    readBranches (fuel + text.length) {} names branches parts (escape text ++ rest) =
      readBranches fuel {} names branches
        ((text.map fun c => some (.chars (.single c))).reverse ++ parts) rest := by
  induction text generalizing parts with
  | nil => rfl
  | cons c text ih =>
    rw [escape, List.flatMap_cons, ← escape, List.append_assoc, List.length_cons, ← Nat.add_assoc,
      readBranches_escapeChar, ih]
    simp

/-- A closing parenthesis ends a branch. -/
theorem readBranches_close (fuel : Nat) (names : List (List Char)) (parts : List (Option Pattern))
    (rest : List Char) : readBranches (fuel + 1) {} names [] parts (')' :: rest) =
      some (branchOf parts, names, ')' :: rest) := by
  rw [readBranches]
  rfl

/-- A group is read like a text of its own. -/
theorem readBranches_group {fuel : Nat} {names names' : List (List Char)} {rest rest' : List Char}
    {p : Pattern}
    (h : readBranches fuel {} names [] [] rest = some (p, names', ')' :: rest'))
    (branches : List Pattern) (parts : List (Option Pattern)) :
    readBranches (fuel + 1) {} names branches parts ('(' :: '?' :: ':' :: rest) =
      readBranches fuel {} names' branches (some p :: parts) rest' := by
  rw [readBranches]
  simp [skip, readOpening, readFlags, h]

/-- The characters of a text, one after another. -/
def ofText (text : List Char) : Pattern := seqs (text.map fun c => chars (.single c))

theorem length_le_length_escape (text : List Char) : text.length ≤ (escape text).length := by
  induction text with
  | nil => exact Nat.zero_le _
  | cons c text ih =>
    have hc : 1 ≤ (escapeChar c).length := by
      unfold escapeChar
      split <;> simp
    rw [escape, List.flatMap_cons, ← escape, List.length_cons, List.length_append]
    omega

/-- **The written form of a pattern of a text** denotes the characters of the text, behind the
condition for the start. -/
theorem read?_anchor_escape (text : List Char) :
    read? (anchor (escape text)) = some (seq (assertion .textStart) (ofText text)) := by
  have hanchor : anchor (escape text) =
      '\\' :: 'A' :: '(' :: '?' :: ':' :: (escape text ++ [')']) := rfl
  have hgroup (fuel : Nat) (hfuel : text.length < fuel) :
      readBranches fuel {} [] [] [] (escape text ++ [')']) = some (ofText text, [], [')']) := by
    obtain ⟨k, rfl⟩ : ∃ k, fuel = k + 1 + text.length := ⟨fuel - 1 - text.length, by omega⟩
    rw [readBranches_escape, readBranches_close]
    simp [branchOf, ofText, List.filterMap_map]
  -- the text that is read is longer than the text that is meant, so the fuel is enough
  have hlength := length_le_length_escape text
  have hfuel : (anchor (escape text)).length + 1 = (escape text).length + 4 + 1 + 1 + 1 := by
    rw [hanchor]
    simp
  rw [read?, hfuel, hanchor]
  have hstart (fuel : Nat) (rest : List Char) :
      readBranches (fuel + 1) {} [] [] [] ('\\' :: 'A' :: rest) =
        readBranches fuel {} [] [] [some (assertion .textStart)] rest := by
    rw [readBranches]
    rfl
  rw [hstart, readBranches_group (hgroup _ (by omega))]
  rfl

/-! ## Running -/

namespace Automaton

/-- **From a state on, an automaton reads just one text**: there is a state for each character, and
behind the last one the end of a match. -/
inductive Spells (a : Automaton) : Nat → List Char → Prop
  | nil {m : Nat} (h : a.states[m]? = some .accept) : Spells a m []
  | cons {m next : Nat} {c : Char} {text : List Char}
      (h : a.states[m]? = some (.chars (.single c) next)) (hrest : Spells a next text) :
      Spells a m (c :: text)

namespace Spells

variable {a a' : Automaton} {m : Nat} {text : List Char}

theorem lt_size (h : a.Spells m text) : m < a.states.size := by
  cases h with
  | nil h => exact (Array.getElem?_eq_some_iff.mp h).1
  | cons h => exact (Array.getElem?_eq_some_iff.mp h).1

/-- A state that is added leaves the others in their places. -/
theorem push (h : a.Spells m text) {state : State} (hstates : a'.states = a.states.push state) :
    a'.Spells m text := by
  have hle {n : Nat} {s : State} (hn : a.states[n]? = some s) : a'.states[n]? = some s := by
    have hlt : n < a.states.size := (Array.getElem?_eq_some_iff.mp hn).1
    rw [hstates, Array.getElem?_push_lt hlt, ← Array.getElem?_eq_getElem hlt]
    exact hn
  induction h with
  | nil h => exact .nil (hle h)
  | cons h _ ih => exact .cons (hle h) ih

/-- A character before a text. -/
theorem before_single (h : a.Spells a.start text) (c : Char) :
    ((chars (.single c)).before a).Spells ((chars (.single c)).before a).start (c :: text) := by
  refine .cons ?_ (h.push rfl)
  rw [before, Automaton.ofState]
  exact Array.getElem?_push_size

/-- A text before a text. -/
theorem before_ofText (h : a.Spells a.start text) (text' : List Char) :
    ((ofText text').before a).Spells ((ofText text').before a).start (text' ++ text) := by
  induction text' with
  | nil => exact h
  | cons c text' ih =>
    cases text' with
    | nil => exact h.before_single c
    | cons d text' => exact ih.before_single c

end Spells

variable {a : Automaton} {m : Nat} {text : List Char}

/-- A state that reads or accepts waits for itself. -/
theorem enter_of_spells (h : a.Spells m text) (p : Position) (depth : Nat) {e : Entered}
    (hm : m ∉ e.seen) :
    a.enter p (depth + 1) m e = { seen := m :: e.seen, waiting := m :: e.waiting } := by
  cases h with
  | nil h => simp [enter, h, hm]
  | cons h => simp [enter, h, hm]

theorem waiting_of_spells (h : a.Spells m text) (p : Position) : a.waiting p [m] = [m] := by
  obtain ⟨depth, hdepth⟩ : ∃ depth, a.states.size = depth + 1 :=
    ⟨a.states.size - 1, by have := h.lt_size; omega⟩
  rw [waiting, List.foldl_cons, List.foldl_nil, hdepth, enter_of_spells h p depth (by simp)]
  rfl

/-- At the start of a text, the condition for the start leads on to the state behind it. -/
theorem waiting_of_textStart {next : Nat}
    (hm : a.states[m]? = some (.assertion .textStart next)) (h : a.Spells next text)
    (after : Option Char) : a.waiting ⟨none, after⟩ [m] = [next] := by
  -- the state behind the condition reads or accepts, so it is another one
  have hne : next ≠ m := by
    rintro rfl
    cases h with
    | nil h => simp [h] at hm
    | cons h => simp [h] at hm
  obtain ⟨depth, hdepth⟩ : ∃ depth, a.states.size = depth + 1 + 1 := by
    have hlt := h.lt_size
    have hlt' := (Array.getElem?_eq_some_iff.mp hm).1
    exact ⟨a.states.size - 2, by omega⟩
  rw [waiting, List.foldl_cons, List.foldl_nil, hdepth, enter]
  simp [hm, Assertion.holds, enter_of_spells h _ depth, hne]

/-- Where a run goes on depends on the states that wait, not on how they were entered. -/
theorem search_congr {states states' : List Nat} {offset : Nat} {before : Option Char}
    {found : Option Nat} {l : List Char}
    (h : a.waiting ⟨before, l.head?⟩ states = a.waiting ⟨before, l.head?⟩ states') :
    a.search offset before found states l = a.search offset before found states' l := by
  cases l with
  | nil =>
    rw [List.head?_nil] at h
    rw [search, search, h]
  | cons c rest =>
    rw [List.head?_cons] at h
    rw [search, search, h]

/-- **A run from a state that spells a text** compares it with what comes next. -/
theorem search_of_spells (ha : a.anchored = true) (h : a.Spells m text) (offset : Nat)
    (before : Option Char) (l : List Char) : a.search offset before none [m] l =
      if text <+: l then some (offset + text.length) else none := by
  induction h generalizing offset before l with
  | @nil m h =>
    have haccepts : a.accepts m = true := by simp [accepts, h]
    cases l with
    | nil => simp [search, waiting_of_spells (.nil h), haccepts]
    | cons c rest => simp [search, waiting_of_spells (.nil h), haccepts, ha]
  | @cons m next c text h hrest ih =>
    have haccepts : a.accepts m = false := by simp [accepts, h]
    cases l with
    | nil => simp [search, waiting_of_spells (.cons h hrest), haccepts]
    | cons d rest =>
      have hwaiting := waiting_of_spells (.cons h hrest) ⟨before, some d⟩
      by_cases hd : d = c
      · have hnext : a.next? d m = some next := by simp [next?, h, CharSet.mem_single, hd]
        rw [search, hwaiting]
        simp only [List.any_cons, haccepts, List.any_nil, Bool.or_false, Bool.false_eq_true,
          if_false, ha, Bool.true_or, if_true, List.takeWhile_cons, Bool.not_false,
          List.takeWhile_nil, List.filterMap_cons, hnext, List.filterMap_nil, List.isEmpty_cons]
        rw [ih, List.length_cons, hd]
        simp only [List.cons_prefix_cons, true_and]
        split
        · congr 1
          omega
        · rfl
      · have hnext : a.next? d m = none := by simp [next?, h, CharSet.mem_single, hd]
        simp [search, hwaiting, haccepts, hnext, ha, Ne.symm hd]

end Automaton

/-- Behind the condition for the start, the characters of a text match just this text. -/
theorem find_automaton_ofText (text l : List Char) :
    (automaton (seq (assertion .textStart) (ofText text))).find l =
      if text <+: l then some text.length else none := by
  generalize ha : automaton (seq (assertion .textStart) (ofText text)) = a
  generalize hb : (ofText text).before (.ofState .accept #[]) = b
  have haccept : (Automaton.ofState .accept #[]).Spells (Automaton.ofState .accept #[]).start [] :=
    .nil rfl
  have hspells : b.Spells b.start text := by
    rw [← hb]
    simpa using haccept.before_ofText text
  have hstates : a.states = b.states.push (.assertion .textStart b.start) := by
    rw [← ha, ← hb]
    rfl
  have hstart : a.states[a.start]? = some (.assertion .textStart b.start) := by
    have hsize : a.start = b.states.size := by
      rw [← ha, ← hb]
      rfl
    rw [hstates, hsize]
    exact Array.getElem?_push_size
  have hanchored : a.anchored = true := by
    rw [← ha]
    rfl
  have hspells' : a.Spells b.start text := hspells.push hstates
  have hwaiting := Automaton.waiting_of_textStart hstart hspells' l.head?
  rw [Automaton.find,
    Automaton.search_congr (hwaiting.trans (Automaton.waiting_of_spells hspells' _).symm),
    Automaton.search_of_spells hanchored hspells', Nat.zero_add]

end Pattern

/-- **An engine reads texts** if the pattern of a text matches at the start of a text just if it
begins with that text, and the match is as long as that text. -/
def PatternEngine.ReadsTexts (engine : PatternEngine) : Prop :=
  ∀ text find, engine (String.ofList (Pattern.escape text)) = some find →
    ∀ l, find l = if text <+: l then some text.length else none

theorem Pattern.readsTexts_engine : PatternEngine.ReadsTexts engine := by
  intro text find h l
  obtain ⟨a, ha, rfl⟩ := Option.map_eq_some_iff.mp h
  rw [String.toList_ofList, automatonOf?, read?_anchor_escape] at ha
  obtain ⟨p, hp, rfl⟩ := Option.map_eq_some_iff.mp ha
  obtain ⟨⟨⟩, -⟩ := Option.filter_eq_some_iff.mp hp
  exact find_automaton_ofText text l

end PredictiveParsing
