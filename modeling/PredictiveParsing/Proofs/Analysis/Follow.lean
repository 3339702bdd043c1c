import Mathlib.Algebra.Order.BigOperators.Group.Finset
import PredictiveParsing.Analysis.Follow
import PredictiveParsing.Proofs.Grammar.WellFormed

/-!
# The rounds come to rest

Passing sets on only adds members, and a round that adds none has passed on all there is. The
sets hold no more than the terminals and the mark for the end of the input, so the rounds that
are made are enough, and in the end nothing is left to pass on.

## Main definitions

* `FollowTable.Fits`: the sets of a grammar, without the mark for the empty text
* `FollowTable.Grows`: the sets have gained members
* `FollowTable.weight`: the number of members of all sets
* `FollowTable.Settled`: nothing is left to pass on
* `Grammar.Settles`: rounds until nothing changes, however many it takes

## Main results

* `Grammar.sweep_changed`, `sweep_unchanged`: what a round does
* `Grammar.Settles.settled`, `Grammar.Settles.grows`: in the end nothing is left to pass on, and no
  member has been lost
* `Grammar.settles_settle`: a bound on the rounds that is large enough is not reached
-/

namespace PredictiveParsing

/-! ## Growing sets -/

namespace IndexSet

variable {s t : IndexSet}

theorem nodup_toList (s : IndexSet) : s.toList.Nodup := s.increasing.imp Nat.ne_of_lt

theorem card_le_card (h : ∀ x, x ∈ s → x ∈ t) : s.card ≤ t.card :=
  (s.nodup_toList.subperm fun x hx => h x hx).length_le

/-- A set without a new member is the same set. -/
theorem eq_of_card_le (h : ∀ x, x ∈ s → x ∈ t) (hcard : t.card ≤ s.card) : s = t := by
  refine ext fun x => ?_
  have hperm := (s.nodup_toList.subperm fun x hx => h x hx).perm_of_length_le hcard
  exact hperm.mem_iff

theorem card_lt_of_le {n : Nat} (h : ∀ x, x ∈ s → x ≤ n) : s.card ≤ n + 1 := by
  have hsub : s.toList ⊆ List.range (n + 1) :=
    fun x hx => List.mem_range.mpr (Nat.lt_succ_of_le (h x hx))
  simpa [card] using (s.nodup_toList.subperm hsub).length_le

end IndexSet

namespace LookaheadSet

variable {s t : LookaheadSet}

/-- Absorbing a set shows whether it had anything new. -/
theorem absorb_unchanged (h : (s.absorb t).2 = false) :
    (s.absorb t).1 = s ∧ ∀ x, x ∈ t.slots → x ∈ s.slots := by
  have hsub : ∀ x, x ∈ s.slots → x ∈ (s.union t).slots := fun x hx => mem_slots_union.mpr (.inl hx)
  have hslots := IndexSet.eq_of_card_le hsub (by simp_all [absorb])
  refine ⟨?_, fun x hx => ?_⟩
  · show LookaheadSet.mk s.size (s.union t).slots = s
    rw [← hslots]
  · rw [hslots]
    exact mem_slots_union.mpr (.inr hx)

theorem absorb_changed (h : (s.absorb t).2 = true) : s.slots.card < (s.absorb t).1.slots.card := by
  have hle : s.slots.card ≤ (s.union t).slots.card :=
    IndexSet.card_le_card fun x hx => mem_slots_union.mpr (.inl hx)
  have hne : (s.union t).slots.card ≠ s.slots.card := by simpa [absorb] using h
  exact Nat.lt_of_le_of_ne hle hne.symm

end LookaheadSet

namespace FollowTable

variable {size count : Nat} {table table' table'' : FollowTable}

/-- **The sets of a grammar** of `size` terminals and `count` symbols. -/
structure Fits (size count : Nat) (table : FollowTable) : Prop where
  /-- There is a set for each symbol. -/
  length : table.size = count
  /-- All sets are made for the terminals of the grammar. -/
  size_get : ∀ x, (table.get size x).size = size
  /-- No set holds the mark for the empty text. -/
  le : ∀ x slot, slot ∈ (table.get size x).slots → slot ≤ size

/-- **The sets have gained members.** -/
def Grows (size : Nat) (table table' : FollowTable) : Prop :=
  ∀ x slot, slot ∈ (table.get size x).slots → slot ∈ (table'.get size x).slots

theorem Grows.refl (table : FollowTable) : Grows size table table := fun _ _ h => h

theorem Grows.trans (h : Grows size table table') (h' : Grows size table' table'') :
    Grows size table table'' := fun x slot hslot => h' x slot (h x slot hslot)

/-- **The number of members** of all sets. -/
def weight (size count : Nat) (table : FollowTable) : Nat :=
  ∑ x ∈ Finset.range count, (table.get size x).slots.card

/-- **Nothing is left to pass on.** -/
def Settled (size : Nat) (pairs : List (Nat × Nat)) (table : FollowTable) : Prop :=
  ∀ source target, (source, target) ∈ pairs →
    ∀ slot ∈ (table.get size source).slots, slot ∈ (table.get size target).slots

theorem Fits.weight_le (h : table.Fits size count) :
    table.weight size count ≤ count * (size + 1) := by
  have hcard : ∀ x ∈ Finset.range count, (table.get size x).slots.card ≤ size + 1 :=
    fun x _ => IndexSet.card_lt_of_le (h.le x)
  simpa [weight] using Finset.sum_le_card_nsmul _ _ _ hcard

/-! ## One pass -/

variable {source target : Nat}

theorem get_pass (x : Nat) : (table.pass size source target).1.get size x =
    if x = target ∧ target < table.size then
      ((table.get size target).absorb (table.get size source)).1
    else table.get size x := by
  show ((table.setIfInBounds target _)[x]?).getD _ = _
  rw [Array.getElem?_setIfInBounds]
  by_cases hx : x = target
  · subst hx
    by_cases hlt : x < table.size
    · simp [hlt, LookaheadSet.absorb]
    · simp [hlt, get]
  · simp [hx, Ne.symm hx, get]

@[simp]
theorem size_pass : (table.pass size source target).1.size = table.size := by
  simp [FollowTable.pass]

theorem grows_pass : Grows size table (table.pass size source target).1 := by
  intro x slot hslot
  rw [get_pass]
  split
  · rename_i h
    exact LookaheadSet.mem_absorb.mpr (.inl (h.1 ▸ hslot))
  · exact hslot

theorem Fits.pass (h : table.Fits size count) :
    (table.pass size source target).1.Fits size count where
  length := size_pass.trans h.length
  size_get x := by
    rw [get_pass]
    split
    · exact h.size_get target
    · exact h.size_get x
  le x slot hslot := by
    rw [get_pass] at hslot
    split at hslot
    · exact (LookaheadSet.mem_absorb.mp hslot).elim (h.le target slot) (h.le source slot)
    · exact h.le x slot hslot

/-- A pass that adds nothing has nothing to add. -/
theorem pass_unchanged (h : (table.pass size source target).2 = false) :
    (table.pass size source target).1 = table ∧
      ∀ slot ∈ (table.get size source).slots, slot ∈ (table.get size target).slots := by
  obtain ⟨heq, hsub⟩ := LookaheadSet.absorb_unchanged h
  refine ⟨?_, hsub⟩
  show table.setIfInBounds target ((table.get size target).absorb (table.get size source)).1 = table
  rw [heq]
  refine Array.ext (by simp) fun i hi hi' => ?_
  rw [Array.getElem_setIfInBounds]
  split
  · rename_i hit
    subst hit
    simp [get, hi']
  · rfl

theorem weight_le_of_grows (h : Grows size table table') :
    table.weight size count ≤ table'.weight size count :=
  Finset.sum_le_sum fun x _ => IndexSet.card_le_card (h x)

/-- A pass that adds something adds to the number of members. -/
theorem pass_changed (hlength : table.size = count) (htarget : target < count)
    (h : (table.pass size source target).2 = true) :
    table.weight size count < (table.pass size source target).1.weight size count := by
  refine Finset.sum_lt_sum (fun x _ => IndexSet.card_le_card (grows_pass x))
    ⟨target, Finset.mem_range.mpr htarget, ?_⟩
  rw [get_pass, if_pos ⟨rfl, hlength ▸ htarget⟩]
  exact LookaheadSet.absorb_changed h

end FollowTable

/-! ## Rounds -/

namespace Grammar

open FollowTable

variable {g : Grammar} {count : Nat} {pairs : List (Nat × Nat)} {table : FollowTable}

/-- A round is a pass along the first pair, and a round along the others. -/
theorem sweep_cons (pair : Nat × Nat) : g.sweep (pair :: pairs) table =
    ((g.sweep pairs (table.pass g.terminals.size pair.1 pair.2).1).1,
      (table.pass g.terminals.size pair.1 pair.2).2 ||
        (g.sweep pairs (table.pass g.terminals.size pair.1 pair.2).1).2) := by
  have hfrom (pairs : List (Nat × Nat)) (start : FollowTable × Bool) :
      pairs.foldl (fun state pair =>
        ((state.1.pass g.terminals.size pair.1 pair.2).1,
          state.2 || (state.1.pass g.terminals.size pair.1 pair.2).2)) start =
      ((g.sweep pairs start.1).1, start.2 || (g.sweep pairs start.1).2) := by
    induction pairs generalizing start with
    | nil => simp [sweep]
    | cons pair pairs ih =>
      have hsweep : g.sweep (pair :: pairs) start.1 =
          ((g.sweep pairs (start.1.pass g.terminals.size pair.1 pair.2).1).1,
            (false || (start.1.pass g.terminals.size pair.1 pair.2).2) ||
              (g.sweep pairs (start.1.pass g.terminals.size pair.1 pair.2).1).2) :=
        ih (_, _)
      rw [List.foldl_cons, ih, hsweep, Bool.false_or, Bool.or_assoc]
  exact hfrom pairs (_, _)

theorem grows_sweep : Grows g.terminals.size table (g.sweep pairs table).1 := by
  induction pairs generalizing table with
  | nil => exact .refl table
  | cons pair pairs ih =>
    rw [sweep_cons]
    exact grows_pass.trans ih

theorem fits_sweep (h : table.Fits g.terminals.size count) :
    (g.sweep pairs table).1.Fits g.terminals.size count := by
  induction pairs generalizing table with
  | nil => exact h
  | cons pair pairs ih =>
    rw [sweep_cons]
    exact ih h.pass

/-- **A round that changes nothing** has nothing left to pass on. -/
theorem sweep_unchanged (h : (g.sweep pairs table).2 = false) :
    (g.sweep pairs table).1 = table ∧ table.Settled g.terminals.size pairs := by
  induction pairs generalizing table with
  | nil => exact ⟨rfl, fun _ _ hmem => absurd hmem List.not_mem_nil⟩
  | cons pair pairs ih =>
    rw [sweep_cons, Bool.or_eq_false_iff] at h
    obtain ⟨hpass, hsub⟩ := pass_unchanged h.1
    rw [hpass] at h
    obtain ⟨hrest, hsettled⟩ := ih h.2
    rw [sweep_cons, hpass]
    refine ⟨hrest, fun source target hmem => ?_⟩
    rcases List.mem_cons.mp hmem with rfl | hmem
    · exact hsub
    · exact hsettled source target hmem

/-- **A round that changes something** adds to the number of members. -/
theorem sweep_changed (hlength : table.size = count)
    (hpairs : ∀ pair ∈ pairs, pair.2 < count) (h : (g.sweep pairs table).2 = true) :
    table.weight g.terminals.size count <
      (g.sweep pairs table).1.weight g.terminals.size count := by
  induction pairs generalizing table with
  | nil => cases h
  | cons pair pairs ih =>
    have hrest : ∀ pair ∈ pairs, pair.2 < count := fun q hq => hpairs q (List.mem_cons_of_mem _ hq)
    rw [sweep_cons, Bool.or_eq_true] at h
    rw [sweep_cons]
    rcases h with h | h
    · exact Nat.lt_of_lt_of_le (pass_changed hlength (hpairs pair List.mem_cons_self) h)
        (weight_le_of_grows grows_sweep)
    · exact Nat.lt_of_le_of_lt (weight_le_of_grows grows_pass)
        (ih (size_pass.trans hlength) hrest h)

/-! ## Rounds until nothing changes -/

/-- **Rounds until nothing changes**, from a table to the last one, with the number of rounds. -/
inductive Settles (g : Grammar) (pairs : List (Nat × Nat)) :
    FollowTable → FollowTable → Nat → Prop where
  /-- A round without a change is the last one. -/
  | last {table : FollowTable} (h : (g.sweep pairs table).2 = false) :
      Settles g pairs table (g.sweep pairs table).1 1
  /-- A round with a change is not. -/
  | next {table final : FollowTable} {rounds : Nat} (h : (g.sweep pairs table).2 = true)
      (hrest : Settles g pairs (g.sweep pairs table).1 final rounds) :
      Settles g pairs table final (rounds + 1)

namespace Settles

variable {final : FollowTable} {rounds : Nat}

/-- **In the end nothing is left to pass on.** -/
theorem settled (h : g.Settles pairs table final rounds) :
    final.Settled g.terminals.size pairs := by
  induction h with
  | last h =>
    obtain ⟨heq, hsettled⟩ := sweep_unchanged h
    rwa [heq]
  | next _ _ ih => exact ih

theorem grows (h : g.Settles pairs table final rounds) : Grows g.terminals.size table final := by
  induction h with
  | last => exact grows_sweep
  | next _ _ ih => exact grows_sweep.trans ih

theorem fits (h : g.Settles pairs table final rounds)
    (hfits : table.Fits g.terminals.size count) : final.Fits g.terminals.size count := by
  induction h with
  | last => exact fits_sweep hfits
  | next _ _ ih => exact ih (fits_sweep hfits)

end Settles

/-- **A bound on the rounds that is large enough is not reached**: each round but the last adds a
member. -/
theorem settles_settle {fuel : Nat} (hfits : table.Fits g.terminals.size count)
    (hpairs : ∀ pair ∈ pairs, pair.2 < count)
    (hfuel : count * (g.terminals.size + 1) < table.weight g.terminals.size count + fuel) :
    g.Settles pairs table (g.settle pairs fuel table).1 (g.settle pairs fuel table).2 := by
  -- Induction on the rounds left: what is left of them exceeds the members that are missing.
  induction fuel generalizing table with
  | zero =>
    have hle := hfits.weight_le
    omega
  | succ fuel ih =>
    unfold settle
    cases hchanged : (g.sweep pairs table).2 with
    | false => simpa [hchanged] using Settles.last hchanged
    | true =>
      have hlt := sweep_changed hfits.length hpairs hchanged
      simpa [hchanged] using Settles.next hchanged (ih (fits_sweep hfits) (by omega))

end Grammar

end PredictiveParsing
