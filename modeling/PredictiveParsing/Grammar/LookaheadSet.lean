import PredictiveParsing.IndexSet

/-!
# Lookahead sets

What can come next is a set of terminals, together with two marks: one for the end of the input
and one for the empty text. For a grammar of `size` terminals the terminals have the numbers
below `size`, the end of the input has number `size` and the empty text number `size + 1`. A set
may hold any number; those beyond the second mark stand for nothing.

## Main definitions

* `LookaheadSet`: the sets, with the number of terminals they are made for
* `LookaheadSet.add`, `remove`, `absorb`: changes that tell whether they changed anything
* `LookaheadSet.describe`: the written form of a set

## Main results

* `LookaheadSet.mem_absorb`: absorbing a set adds just its members
-/

namespace PredictiveParsing

/-- **A set of terminals**, and of the marks for the end of the input and the empty text. -/
structure LookaheadSet where
  /-- The number of terminals. -/
  size : Nat
  /-- The numbers in the set. -/
  slots : IndexSet
deriving DecidableEq, Inhabited

namespace LookaheadSet

/-- The empty set for a number of terminals. -/
def empty (size : Nat) : LookaheadSet := ⟨size, ∅⟩

/-- Whether a terminal is in the set. -/
def hasTerminal (s : LookaheadSet) (t : Nat) : Bool := s.slots.contains t

/-- Whether the mark for the end of the input is in the set. -/
def hasEnd (s : LookaheadSet) : Bool := s.slots.contains s.size

/-- Whether the mark for the empty text is in the set. -/
def hasEpsilon (s : LookaheadSet) : Bool := s.slots.contains (s.size + 1)

/-- The set with one more number. -/
def insert (s : LookaheadSet) (slot : Nat) : LookaheadSet := { s with slots := s.slots.insert slot }

/-- The set of one terminal. -/
def singleton (size t : Nat) : LookaheadSet := (empty size).insert t

/-- The set with the mark for the end of the input. -/
def withEnd (s : LookaheadSet) : LookaheadSet := s.insert s.size

/-- The set with the mark for the empty text. -/
def withEpsilon (s : LookaheadSet) : LookaheadSet := s.insert (s.size + 1)

/-- The set without the mark for the empty text. -/
def withoutEpsilon (s : LookaheadSet) : LookaheadSet :=
  { s with slots := s.slots.erase (s.size + 1) }

/-- The set with the members of another. -/
def union (s t : LookaheadSet) : LookaheadSet := { s with slots := s.slots.union t.slots }

/-- The members of both sets. -/
def inter (s t : LookaheadSet) : LookaheadSet := { s with slots := s.slots.inter t.slots }

/-- Whether the set has no members, marks included. -/
def isEmpty (s : LookaheadSet) : Bool := s.slots.isEmpty

/-- Adds a number, and tells whether it was new. -/
def add (s : LookaheadSet) (slot : Nat) : LookaheadSet × Bool :=
  (s.insert slot, !s.slots.contains slot)

/-- Removes a number, and tells whether it was there. -/
def remove (s : LookaheadSet) (slot : Nat) : LookaheadSet × Bool :=
  ({ s with slots := s.slots.erase slot }, s.slots.contains slot)

/-- **Adds the members of another set**, and tells whether there was a new one: the number of
members shows it. -/
def absorb (s t : LookaheadSet) : LookaheadSet × Bool :=
  (s.union t, (s.union t).slots.card != s.slots.card)

/-- The terminals of the set, in order of declaration. -/
def terminals (s : LookaheadSet) : List Nat := s.slots.toList.takeWhile (· < s.size)

/-- Numbers of terminals are words of 32 bits. -/
def terminalSlot (t : Nat) : Nat := t % UInt32.size

/-- The names of the terminals of the set, given the names of all terminals. -/
def names (s : LookaheadSet) (terminalNames : Array String) : List String :=
  s.terminals.filterMap (terminalNames[·]?)

/-- Whether every terminal of the set has a name. -/
def isNamed (s : LookaheadSet) (terminalNames : Array String) : Bool :=
  s.terminals.all (· < terminalNames.size)

/-- The written form of a set: the names of its terminals, then its marks. -/
def describe (s : LookaheadSet) (terminalNames : Array String) : String :=
  let marks := (if s.hasEnd then ["EOF"] else []) ++ (if s.hasEpsilon then ["$"] else [])
  "\x7b" ++ ", ".intercalate (s.names terminalNames ++ marks) ++ "\x7d"

/-- The names of the terminals of a set and its written form, if every terminal has a name. -/
def shown? (s : LookaheadSet) (terminalNames : Array String) : Option (List String × String) :=
  if s.isNamed terminalNames then some (s.names terminalNames, s.describe terminalNames) else none

@[simp] theorem hasTerminal_iff {s : LookaheadSet} {t : Nat} :
    s.hasTerminal t = true ↔ t ∈ s.slots := by
  simp [hasTerminal]

@[simp] theorem hasEnd_iff {s : LookaheadSet} : s.hasEnd = true ↔ s.size ∈ s.slots := by
  simp [hasEnd]

@[simp] theorem hasEpsilon_iff {s : LookaheadSet} :
    s.hasEpsilon = true ↔ s.size + 1 ∈ s.slots := by
  simp [hasEpsilon]

@[simp] theorem mem_slots_insert {s : LookaheadSet} {a x : Nat} :
    x ∈ (s.insert a).slots ↔ x = a ∨ x ∈ s.slots := by
  simp [insert]

@[simp] theorem mem_slots_union {s t : LookaheadSet} {x : Nat} :
    x ∈ (s.union t).slots ↔ x ∈ s.slots ∨ x ∈ t.slots := by
  simp [union]

@[simp] theorem mem_slots_inter {s t : LookaheadSet} {x : Nat} :
    x ∈ (s.inter t).slots ↔ x ∈ s.slots ∧ x ∈ t.slots := by
  simp [inter]

@[simp] theorem mem_slots_withoutEpsilon {s : LookaheadSet} {x : Nat} :
    x ∈ s.withoutEpsilon.slots ↔ x ∈ s.slots ∧ x ≠ s.size + 1 := by
  simp [withoutEpsilon]

/-- Absorbing a set adds just its members. -/
theorem mem_absorb {s t : LookaheadSet} {x : Nat} :
    x ∈ (s.absorb t).1.slots ↔ x ∈ s.slots ∨ x ∈ t.slots :=
  mem_slots_union

@[simp] theorem size_union (s t : LookaheadSet) : (s.union t).size = s.size := rfl

@[simp] theorem size_inter (s t : LookaheadSet) : (s.inter t).size = s.size := rfl

@[simp] theorem size_withoutEpsilon (s : LookaheadSet) : s.withoutEpsilon.size = s.size := rfl

/-- The terminals of a set are its members below the marks. -/
theorem mem_terminals {s : LookaheadSet} {t : Nat} :
    t ∈ s.terminals ↔ t ∈ s.slots ∧ t < s.size := by
  have hsorted := s.slots.increasing
  rw [IndexSet.mem_def, terminals]
  generalize s.slots.toList = l at hsorted
  induction l with
  | nil => simp
  | cons a l ih =>
    have ⟨hlt, hl⟩ := List.pairwise_cons.mp hsorted
    by_cases ha : a < s.size
    · simp only [List.takeWhile_cons, ha, decide_true, if_true, List.mem_cons, ih hl]
      constructor
      · rintro (rfl | ⟨h, h'⟩)
        · exact ⟨.inl rfl, ha⟩
        · exact ⟨.inr h, h'⟩
      · rintro ⟨rfl | h, h'⟩
        · exact .inl rfl
        · exact .inr ⟨h, h'⟩
    · simp only [List.takeWhile_cons, ha, decide_false, Bool.false_eq_true, if_false,
        List.not_mem_nil, List.mem_cons, false_iff, not_and]
      rintro (rfl | h)
      · exact ha
      · have := hlt t h; omega

end LookaheadSet

end PredictiveParsing
