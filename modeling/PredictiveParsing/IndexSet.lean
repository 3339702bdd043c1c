/-!
# Finite sets of indices

Terminals, nonterminals and symbols are numbered, and every set that the analysis computes is a
set of such numbers. A set is held as its members in increasing order, so equal sets are equal
values and the members are listed in a fixed order.

## Main definitions

* `IndexSet`: a finite set of natural numbers
* `IndexSet.insert`, `erase`, `union`, `inter`: the set operations

## Main results

* `IndexSet.ext`: sets with the same members are equal
* `IndexSet.mem_insert`, `mem_erase`, `mem_union`, `mem_inter`: the members of each operation
-/

namespace PredictiveParsing

/-- **A finite set of natural numbers**, held as its members in increasing order. -/
structure IndexSet where
  /-- The members, in increasing order. -/
  toList : List Nat
  /-- No member is listed twice or out of order. -/
  increasing : toList.Pairwise (· < ·)
deriving DecidableEq

namespace IndexSet

/-- The set without members. -/
def empty : IndexSet := ⟨[], .nil⟩

instance : EmptyCollection IndexSet := ⟨empty⟩

instance : Inhabited IndexSet := ⟨empty⟩

instance : Membership Nat IndexSet := ⟨fun s a => a ∈ s.toList⟩

instance (a : Nat) (s : IndexSet) : Decidable (a ∈ s) :=
  inferInstanceAs (Decidable (a ∈ s.toList))

theorem mem_def {a : Nat} {s : IndexSet} : a ∈ s ↔ a ∈ s.toList := Iff.rfl

@[simp] theorem not_mem_empty (a : Nat) : a ∉ (∅ : IndexSet) := List.not_mem_nil

/-- A list in increasing order with one more number at its place; a number already there is
kept once. -/
def place (a : Nat) : List Nat → List Nat
  | [] => [a]
  | b :: l => if a < b then a :: b :: l else if a = b then b :: l else b :: place a l

theorem mem_place {a x : Nat} {l : List Nat} : x ∈ place a l ↔ x = a ∨ x ∈ l := by
  induction l with
  | nil => simp [place]
  | cons b l ih =>
    unfold place
    split
    · simp
    · split
      · rename_i h; subst h; simp
      · simp only [List.mem_cons, ih]
        constructor
        · rintro (h | h | h) <;> simp [h]
        · rintro (h | h | h) <;> simp [h]

theorem pairwise_place {a : Nat} {l : List Nat} (h : l.Pairwise (· < ·)) :
    (place a l).Pairwise (· < ·) := by
  induction l with
  | nil => simp [place]
  | cons b l ih =>
    have hb := List.pairwise_cons.mp h
    unfold place
    split
    · rename_i hab
      refine List.pairwise_cons.mpr ⟨fun x hx => ?_, h⟩
      rcases List.mem_cons.mp hx with rfl | hx
      · exact hab
      · exact Nat.lt_trans hab (hb.1 x hx)
    · split
      · exact h
      · refine List.pairwise_cons.mpr ⟨fun x hx => ?_, ih hb.2⟩
        rcases mem_place.mp hx with rfl | hx
        · omega
        · exact hb.1 x hx

/-- The set with one more member. -/
def insert (s : IndexSet) (a : Nat) : IndexSet := ⟨place a s.toList, pairwise_place s.increasing⟩

/-- The members that pass a test. -/
def filter (s : IndexSet) (p : Nat → Bool) : IndexSet :=
  ⟨s.toList.filter p, s.increasing.filter p⟩

/-- The set without one number. -/
def erase (s : IndexSet) (a : Nat) : IndexSet := s.filter (· != a)

/-- The members of either set. -/
def union (s t : IndexSet) : IndexSet := t.toList.foldl insert s

/-- The members of both sets. -/
def inter (s t : IndexSet) : IndexSet := s.filter (decide <| · ∈ t)

/-- The number of members. -/
def card (s : IndexSet) : Nat := s.toList.length

/-- Whether a number is a member. -/
def contains (s : IndexSet) (a : Nat) : Bool := decide (a ∈ s)

/-- Whether the set has no members. -/
def isEmpty (s : IndexSet) : Bool := s.toList.isEmpty

@[simp] theorem mem_insert {s : IndexSet} {a x : Nat} : x ∈ s.insert a ↔ x = a ∨ x ∈ s :=
  mem_place

@[simp] theorem mem_filter {s : IndexSet} {p : Nat → Bool} {x : Nat} :
    x ∈ s.filter p ↔ x ∈ s ∧ p x = true :=
  List.mem_filter

@[simp] theorem mem_erase {s : IndexSet} {a x : Nat} : x ∈ s.erase a ↔ x ∈ s ∧ x ≠ a := by
  simp [erase]

theorem mem_foldl_insert {l : List Nat} {s : IndexSet} {x : Nat} :
    x ∈ l.foldl insert s ↔ x ∈ s ∨ x ∈ l := by
  induction l generalizing s with
  | nil => simp
  | cons a l ih =>
    rw [List.foldl_cons, ih, mem_insert, List.mem_cons]
    constructor
    · rintro ((h | h) | h) <;> simp [h]
    · rintro (h | h | h) <;> simp [h]

@[simp] theorem mem_union {s t : IndexSet} {x : Nat} : x ∈ s.union t ↔ x ∈ s ∨ x ∈ t :=
  mem_foldl_insert

@[simp] theorem mem_inter {s t : IndexSet} {x : Nat} : x ∈ s.inter t ↔ x ∈ s ∧ x ∈ t := by
  simp [inter]

@[simp] theorem contains_eq_true {s : IndexSet} {a : Nat} : s.contains a = true ↔ a ∈ s := by
  simp [contains]

/-- Two lists in increasing order with the same members are the same list. -/
theorem eq_of_pairwise_of_mem_iff {l m : List Nat} (hl : l.Pairwise (· < ·))
    (hm : m.Pairwise (· < ·)) (h : ∀ x, x ∈ l ↔ x ∈ m) : l = m := by
  induction l generalizing m with
  | nil =>
    cases m with
    | nil => rfl
    | cons b m => exact absurd ((h b).mpr List.mem_cons_self) List.not_mem_nil
  | cons a l ih =>
    cases m with
    | nil => exact absurd ((h a).mp List.mem_cons_self) List.not_mem_nil
    | cons b m =>
      have ha := List.pairwise_cons.mp hl
      have hb := List.pairwise_cons.mp hm
      have hab : a = b := by
        rcases List.mem_cons.mp ((h a).mp List.mem_cons_self) with e | e
        · exact e
        · rcases List.mem_cons.mp ((h b).mpr List.mem_cons_self) with e' | e'
          · exact e'.symm
          · exact absurd (Nat.lt_trans (ha.1 b e') (hb.1 a e)) (Nat.lt_irrefl _)
      subst hab
      refine congrArg (a :: ·) (ih ha.2 hb.2 fun x => ⟨fun hx => ?_, fun hx => ?_⟩)
      · rcases List.mem_cons.mp ((h x).mp (List.mem_cons_of_mem _ hx)) with e | e
        · exact absurd (e ▸ ha.1 x hx) (Nat.lt_irrefl _)
        · exact e
      · rcases List.mem_cons.mp ((h x).mpr (List.mem_cons_of_mem _ hx)) with e | e
        · exact absurd (e ▸ hb.1 x hx) (Nat.lt_irrefl _)
        · exact e

/-- **Sets with the same members are equal.** -/
theorem ext {s t : IndexSet} (h : ∀ x, x ∈ s ↔ x ∈ t) : s = t := by
  have := eq_of_pairwise_of_mem_iff s.increasing t.increasing h
  cases s; cases t; simp_all

end IndexSet

end PredictiveParsing
