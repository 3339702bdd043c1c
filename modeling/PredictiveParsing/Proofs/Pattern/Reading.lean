import PredictiveParsing.Pattern.Matching

/-!
# What is found has been read

A run keeps lists of states, and what it returns is only a number. But each state on a list was
entered from states before it, back to the start, and each step from one position to the next read
a character. So the text up to the place that is found can be read from the start to the end of a
match. Conditions are left out of this: they can only rule out what could be read otherwise.

## Main definitions

* `Automaton.Reads`: from a state on, a text can be read to the end of a match

## Main results

* `Automaton.reads_of_search`: what a run finds can be read from one of its states
* `Automaton.reads_of_find`: what is found at the start of a text can be read
-/

namespace PredictiveParsing.Pattern.Automaton

/-- **From a state on, a text can be read** to the end of a match. -/
inductive Reads (a : Automaton) : Nat → List Char → Prop
  | accept {m : Nat} (h : a.states[m]? = some .accept) : Reads a m []
  | char {m next : Nat} {s : CharSet} {c : Char} {text : List Char}
      (h : a.states[m]? = some (.chars s next)) (hc : s.mem c = true) (hrest : Reads a next text) :
      Reads a m (c :: text)
  | assertion {m next : Nat} {x : Assertion} {text : List Char}
      (h : a.states[m]? = some (.assertion x next)) (hrest : Reads a next text) : Reads a m text
  | choice {m next : Nat} {nexts : List Nat} {text : List Char}
      (h : a.states[m]? = some (.choice nexts)) (hnext : next ∈ nexts) (hrest : Reads a next text) :
      Reads a m text

variable {a : Automaton}

theorem forall_waiting_foldl {P : Nat → Prop} {f : Entered → Nat → Entered} {states : List Nat}
    {e : Entered} (he : ∀ w ∈ e.waiting, P w)
    (hf : ∀ e : Entered, (∀ w ∈ e.waiting, P w) → ∀ s ∈ states, ∀ w ∈ (f e s).waiting, P w) :
    ∀ w ∈ (states.foldl f e).waiting, P w :=
  List.foldlRecOn (motive := fun e : Entered => ∀ w ∈ e.waiting, P w) states f he hf

/-- **What holds of the states that are entered** holds of those that wait, if it is passed on where
nothing is read. -/
theorem forall_waiting_enter {P : Nat → Prop}
    (hchoice : ∀ {m nexts next}, a.states[m]? = some (.choice nexts) → next ∈ nexts → P m → P next)
    (hassertion : ∀ {m x next}, a.states[m]? = some (.assertion x next) → P m → P next)
    (p : Position) (depth : Nat) {m : Nat} (hm : P m) {e : Entered} (he : ∀ w ∈ e.waiting, P w) :
    ∀ w ∈ (a.enter p depth m e).waiting, P w := by
  -- the nested states are entered with less depth, from whatever has been entered so far
  induction depth generalizing m e with
  | zero => exact he
  | succ depth ih =>
    rw [enter]
    split
    · exact he
    · dsimp only
      split
      · rename_i nexts hstate
        exact forall_waiting_foldl he fun e he next hnext => ih (hchoice hstate hnext hm) he
      · rename_i x next hstate
        split
        · exact ih (hassertion hstate hm) he
        · exact he
      · exact List.forall_mem_cons.mpr ⟨hm, he⟩

/-- A state that waits was entered from a state that reads what it reads. -/
theorem exists_of_mem_waiting {p : Position} {states : List Nat} {w : Nat}
    (hw : w ∈ a.waiting p states) : ∃ s ∈ states, ∀ text, a.Reads w text → a.Reads s text := by
  have hall : ∀ w ∈ (states.foldl (fun e s => a.enter p a.states.size s e) {}).waiting,
      ∃ s ∈ states, ∀ text, a.Reads w text → a.Reads s text := by
    refine forall_waiting_foldl (fun w hw => absurd hw List.not_mem_nil) fun e he s hs => ?_
    refine forall_waiting_enter ?_ ?_ p a.states.size ⟨s, hs, fun _ => id⟩ he
    · rintro m nexts next hstate hnext ⟨s, hs, hreads⟩
      exact ⟨s, hs, fun text htext => hreads text (.choice hstate hnext htext)⟩
    · rintro m x next hstate ⟨s, hs, hreads⟩
      exact ⟨s, hs, fun text htext => hreads text (.assertion hstate htext)⟩
  exact hall w (List.mem_reverse.mp hw)

/-- Where a state that waits accepts, the match can end. -/
theorem exists_reads_nil {p : Position} {states : List Nat}
    (h : (a.waiting p states).any a.accepts = true) : ∃ s ∈ states, a.Reads s [] := by
  obtain ⟨w, hw, haccepts⟩ := List.any_eq_true.mp h
  obtain ⟨s, hs, hreads⟩ := exists_of_mem_waiting hw
  exact ⟨s, hs, hreads [] (.accept (beq_iff_eq.mp haccepts))⟩

/-- A state that follows a state reads what is left behind the character. -/
theorem reads_of_next? {c : Char} {m next : Nat} (h : a.next? c m = some next) {text : List Char}
    (htext : a.Reads next text) : a.Reads m (c :: text) := by
  unfold next? at h
  split at h
  · rename_i s next' hstate
    split at h
    · rename_i hc
      obtain rfl := Option.some.inj h
      exact .char hstate hc htext
    · cases h
  · cases h

/-- **What a run finds can be read** from one of the states that it starts with, unless it was found
before. -/
theorem reads_of_search (ha : a.anchored = true) {offset n : Nat} {before : Option Char}
    {found : Option Nat} {states : List Nat} {l : List Char}
    (h : a.search offset before found states l = some n) :
    found = some n ∨ offset ≤ n ∧ ∃ s ∈ states, a.Reads s (l.take (n - offset)) := by
  induction l generalizing offset before found states with
  | nil =>
    rw [search] at h
    split at h
    · rename_i haccepts
      obtain rfl := Option.some.inj h
      simpa using .inr (exists_reads_nil haccepts)
    · exact .inl h
  | cons c rest ih =>
    simp only [search, ha, Bool.true_or, if_true] at h
    generalize hfound : (if (a.waiting ⟨before, some c⟩ states).any a.accepts then some offset
      else found) = found' at h
    have hhere (h : found' = some n) :
        found = some n ∨ offset ≤ n ∧ ∃ s ∈ states, a.Reads s ((c :: rest).take (n - offset)) := by
      rw [← hfound] at h
      split at h
      · rename_i haccepts
        obtain rfl := Option.some.inj h
        simpa using .inr (exists_reads_nil haccepts)
      · exact .inl h
    split at h
    · exact hhere h
    · rcases ih h with h | ⟨hle, next, hnext, hreads⟩
      · exact hhere h
      · obtain ⟨w, hw, hw'⟩ := List.mem_filterMap.mp hnext
        obtain ⟨s, hs, hcovers⟩ := exists_of_mem_waiting (List.takeWhile_subset _ hw)
        refine .inr ⟨by omega, s, hs, hcovers _ ?_⟩
        rw [show n - offset = n - (offset + 1) + 1 by omega, List.take_succ_cons]
        exact reads_of_next? hw' hreads

/-- **What is found at the start of a text can be read** from the start state. -/
theorem reads_of_find (ha : a.anchored = true) {l : List Char} {n : Nat}
    (h : a.find l = some n) : a.Reads a.start (l.take n) := by
  rcases reads_of_search ha h with h | ⟨-, s, hs, hreads⟩
  · cases h
  · obtain rfl := List.mem_singleton.mp hs
    exact hreads

end PredictiveParsing.Pattern.Automaton
