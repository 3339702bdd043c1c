import PredictiveParsing.Grammar.Item
import PredictiveParsing.Proofs.Grammar.Replacement

/-!
# What repetitions stand for

In a derivation a symbol is replaced by the items of one of its rules, and a repetition by any
number of copies of its items that its bounds allow. A plain rule has no repetitions: names are
replaced by names.

A name stands for a repetition if its plain rules are those of the right shape. Names that stand
for items derive the same texts as the items: a derivation from items is followed by plain rules
one repetition at a time, and the other way round each use of the rule for one more round is
absorbed into the repetition.

## Main definitions

* `Rule.Derives`, `FlatRule.Derives`: derivations with repetitions, and without
* `IsReserved`: names that are kept for fresh nonterminals
* `Stands`: names that stand for items

## Main results

* `FlatRule.yields_of_replicate`, `Rule.exists_more_rounds`: one round after the other
* `Stands.yields_flat`: what the items derive, the names derive
* `Stands.yields`: what the names derive, the items derive
-/

namespace PredictiveParsing

open Replacement

/-- A number of rounds is not below a bound. -/
def Bound.Reached : Bound → Nat → Prop
  | .finite k, n => k ≤ n
  | .infinite, _ => False

/-- A number of rounds is not above a bound. -/
def Bound.Kept : Bound → Nat → Prop
  | .finite k, n => n ≤ k
  | .infinite, _ => True

/-- **What may stand in the place of an item**: for a symbol the items of one of its rules, and for
a repetition any number of copies of its items within the bounds. -/
inductive Rule.Expands (rules : List Rule) : Item → List Item → Prop
  | alternative {rule : Rule} (h : rule ∈ rules) : Expands rules (.symbol rule.head) rule.items
  | rounds {items : List Item} {low high : Bound} {n : Nat} (hlow : low.Reached n)
      (hhigh : high.Kept n) :
      Expands rules (.repeated items low high) (List.replicate n items).flatten

/-- **Derivations with repetitions.** -/
def Rule.Derives (rules : List Rule) : List Item → List Item → Prop :=
  Replacement.Derives (Rule.Expands rules)

/-- What may stand in the place of a name: the names of one of its plain rules. -/
inductive FlatRule.Expands (flat : List FlatRule) : String → List String → Prop
  | alternative {rule : FlatRule} (h : rule ∈ flat) : Expands flat rule.head rule.body

/-- **Derivations without repetitions.** -/
def FlatRule.Derives (flat : List FlatRule) : List String → List String → Prop :=
  Replacement.Derives (FlatRule.Expands flat)

/-- **A name that is kept** for fresh nonterminals. -/
def IsReserved (name : String) : Prop := freshPrefix.toList <+: name.toList

instance : DecidablePred IsReserved :=
  fun name => inferInstanceAs (Decidable (freshPrefix.toList <+: name.toList))

/-- The bodies of the plain rules of a name, in order. -/
def FlatRule.bodiesOf (flat : List FlatRule) (name : String) : List (List String) :=
  (flat.filter (·.head == name)).map (·.body)

namespace FlatRule

variable {flat : List FlatRule} {name : String} {body w : List String} {n : Nat}

theorem expands_iff : Expands flat name body ↔ body ∈ bodiesOf flat name := by
  simp only [bodiesOf, List.mem_map, List.mem_filter, beq_iff_eq]
  constructor
  · rintro ⟨h⟩
    exact ⟨_, ⟨h, rfl⟩, rfl⟩
  · rintro ⟨rule, ⟨h, rfl⟩, rfl⟩
    exact .alternative h

theorem bodiesOf_append (flat flat' : List FlatRule) (name : String) :
    bodiesOf (flat ++ flat') name = bodiesOf flat name ++ bodiesOf flat' name := by
  simp [bodiesOf]

theorem bodiesOf_eq_nil : bodiesOf flat name = [] ↔ name ∉ flat.map (·.head) := by
  rw [bodiesOf, List.map_eq_nil_iff, List.filter_eq_nil_iff]
  simp

/-- The name for any number of rounds derives what any number of rounds derive. -/
theorem yields_of_replicate (hbodies : bodiesOf flat name = [body ++ [name], []])
    (h : Yields (Expands flat) (List.replicate n body).flatten w) :
    Yields (Expands flat) [name] w := by
  have hexpands {body' : List String} (hbody : body' ∈ [body ++ [name], []]) :
      Expands flat name body' := expands_iff.mpr (hbodies ▸ hbody)
  induction n generalizing w with
  | zero => exact .of_replace (hexpands (by simp)) h
  | succ n ih =>
    rw [List.replicate_succ, List.flatten_cons] at h
    obtain ⟨u, v, rfl, hu, hv⟩ := Yields.append_iff.mp h
    exact .of_replace (hexpands (by simp)) (hu.append (ih hv))

end FlatRule

namespace Rule

variable {rules : List Rule} {inner z : List Item} {low high : Bound} {w : List String} {n : Nat}

theorem yields_rounds (hlow : low.Reached n) (hhigh : high.Kept n)
    (h : Yields (Expands rules) (List.replicate n inner).flatten z) :
    Yields (Expands rules) [.repeated inner low high] z :=
  .of_replace (.rounds hlow hhigh) h

/-- Symbols that a repetition derives come of some number of rounds. -/
theorem exists_rounds (h : Yields (Expands rules) [.repeated inner low high] (w.map .symbol)) :
    ∃ n, low.Reached n ∧ high.Kept n ∧
      Yields (Expands rules) (List.replicate n inner).flatten (w.map .symbol) := by
  generalize hz : w.map Item.symbol = z at h
  cases h with
  | keep _ _ =>
    -- a repetition is no symbol, so it cannot be kept
    obtain ⟨name, -, -, h, -⟩ := List.map_eq_cons_iff.mp hz
    cases h
  | replace hexpands hbody hrest =>
    cases hrest
    cases hexpands with
    | rounds hlow hhigh => exact ⟨_, hlow, hhigh, by simpa using hbody⟩

/-- **One round more** than any number of rounds is at least one round. -/
theorem exists_more_rounds
    (h : Yields (Expands rules) (inner ++ [.repeated inner (.finite 0) .infinite])
      (w.map .symbol)) :
    ∃ n, 1 ≤ n ∧ Yields (Expands rules) (List.replicate n inner).flatten (w.map .symbol) := by
  obtain ⟨u, v, huv, hu, hv⟩ := Yields.append_iff.mp h
  obtain ⟨w₁, w₂, rfl, rfl, rfl⟩ := List.map_eq_append_iff.mp huv
  obtain ⟨n, -, -, hn⟩ := exists_rounds hv
  refine ⟨n + 1, Nat.le_add_left 1 n, ?_⟩
  rw [List.replicate_succ, List.flatten_cons, List.map_append]
  exact hu.append hn

end Rule

/-! ## Names for items -/

/-- **Names that stand for items**: a symbol stands for itself, and for a repetition there is a
name with the rules for its bounds. Reserved names stand for repetitions only. -/
inductive Stands (flat : List FlatRule) : List Item → List String → Prop
  | nil : Stands flat [] []
  | symbol {name : String} {items : List Item} {names : List String} (hname : ¬ IsReserved name)
      (hrest : Stands flat items names) : Stands flat (.symbol name :: items) (name :: names)
  | anyNumber {name : String} {inner items : List Item} {body names : List String}
      (hname : IsReserved name) (hinner : Stands flat inner body)
      (hbodies : FlatRule.bodiesOf flat name = [body ++ [name], []])
      (hrest : Stands flat items names) :
      Stands flat (.repeated inner (.finite 0) .infinite :: items) (name :: names)
  | optional {name : String} {inner items : List Item} {body names : List String}
      (hname : IsReserved name) (hinner : Stands flat inner body)
      (hbodies : FlatRule.bodiesOf flat name = [body, []])
      (hrest : Stands flat items names) :
      Stands flat (.repeated inner (.finite 0) (.finite 1) :: items) (name :: names)
  | atLeastOne {name more : String} {inner items : List Item} {body names : List String}
      (hname : IsReserved name) (hinner : Stands flat inner body)
      (hmore : Stands flat [.repeated inner (.finite 0) .infinite] [more])
      (hbodies : FlatRule.bodiesOf flat name = [body ++ [more]])
      (hrest : Stands flat items names) :
      Stands flat (.repeated inner (.finite 1) .infinite :: items) (name :: names)

namespace Stands

variable {rules : List Rule} {flat : List FlatRule} {items : List Item}
  {names w : List String}

theorem append {items' : List Item} {names' : List String} (h : Stands flat items names)
    (h' : Stands flat items' names') : Stands flat (items ++ items') (names ++ names') := by
  induction h with
  | nil => exact h'
  | symbol hname _ ih => exact .symbol hname ih
  | anyNumber hname hinner hbodies _ _ ih => exact .anyNumber hname hinner hbodies ih
  | optional hname hinner hbodies _ _ ih => exact .optional hname hinner hbodies ih
  | atLeastOne hname hinner hmore hbodies _ _ _ ih =>
    exact .atLeastOne hname hinner hmore hbodies ih

/-- Where names stand for items, the first name stands for the first item. -/
theorem exists_of_cons {item : Item} (h : Stands flat (item :: items) names) :
    ∃ name rest, names = name :: rest ∧ Stands flat [item] [name] ∧ Stands flat items rest := by
  cases h with
  | symbol hname hrest => exact ⟨_, _, rfl, .symbol hname .nil, hrest⟩
  | anyNumber hname hinner hbodies hrest =>
    exact ⟨_, _, rfl, .anyNumber hname hinner hbodies .nil, hrest⟩
  | optional hname hinner hbodies hrest =>
    exact ⟨_, _, rfl, .optional hname hinner hbodies .nil, hrest⟩
  | atLeastOne hname hinner hmore hbodies hrest =>
    exact ⟨_, _, rfl, .atLeastOne hname hinner hmore hbodies .nil, hrest⟩

theorem replicate (h : Stands flat items names) (n : Nat) :
    Stands flat (List.replicate n items).flatten (List.replicate n names).flatten := by
  induction n with
  | zero => exact .nil
  | succ n ih => simpa [List.replicate_succ] using h.append ih

/-! ## From items to names -/

/-- **What items derive, the names that stand for them derive.** -/
theorem yields_flat
    (hrules : ∀ rule ∈ rules, ∃ flatRule ∈ flat, flatRule.head = rule.head ∧
      Stands flat rule.items flatRule.body)
    {z : List Item} (h : Yields (Rule.Expands rules) items z) (hz : z = w.map .symbol)
    (hnames : Stands flat items names) : Yields (FlatRule.Expands flat) names w := by
  -- Induction on the derivation from the items, for all names that stand for them: the two
  -- expansions of the items of `atLeastOne` have different names.
  induction h generalizing w names with
  | nil =>
    obtain rfl : w = [] := by simpa using hz
    cases hnames
    exact .nil
  | keep x _ ih =>
    obtain ⟨name, w, rfl, rfl, rfl⟩ := List.map_eq_cons_iff.mp hz.symm
    cases hnames with
    | symbol _ hrest => exact .keep name (ih rfl hrest)
  | replace hexpands _ _ ihbody ihrest =>
    obtain ⟨u, v, rfl, rfl, rfl⟩ := List.map_eq_append_iff.mp hz.symm
    cases hexpands with
    | alternative hrule =>
      obtain ⟨flatRule, hmem, hhead, hbody⟩ := hrules _ hrule
      cases hnames with
      | symbol _ hrest =>
        rw [← hhead]
        exact .replace (.alternative hmem) (ihbody rfl hbody) (ihrest rfl hrest)
    | @rounds _ _ _ n hlow hhigh =>
      cases hnames with
      | anyNumber _ hinner hbodies hrest =>
        have hrounds := ihbody rfl (hinner.replicate n)
        exact (FlatRule.yields_of_replicate hbodies hrounds).append (ihrest rfl hrest)
      | @optional _ _ _ body _ _ hinner hbodies hrest =>
        have hrounds := ihbody rfl (hinner.replicate n)
        have hmem : (List.replicate n body).flatten ∈ [body, []] := by
          obtain rfl | rfl : n = 0 ∨ n = 1 := Nat.le_one_iff_eq_zero_or_eq_one.mp hhigh
          · simp
          · simp
        exact .replace (FlatRule.expands_iff.mpr (hbodies ▸ hmem)) hrounds (ihrest rfl hrest)
      | @atLeastOne _ more _ _ body _ _ hinner hmore hbodies hrest =>
        obtain ⟨m, rfl⟩ := Nat.exists_eq_add_of_le' hlow
        cases hmore with
        | @anyNumber _ _ _ body' _ _ hinner' hbodies' _ =>
          have hrounds := ihbody rfl (hinner.append (hinner'.replicate m))
          obtain ⟨u₁, u₂, rfl, hu₁, hu₂⟩ := Yields.append_iff.mp hrounds
          have hbody := hu₁.append (FlatRule.yields_of_replicate hbodies' hu₂)
          exact .replace (FlatRule.expands_iff.mpr (by simp [hbodies])) hbody (ihrest rfl hrest)

/-! ## From names to items -/

/-- **What names derive, the items for which they stand derive.** -/
theorem yields
    (hflat : ∀ flatRule ∈ flat, ¬ IsReserved flatRule.head → ∃ rule ∈ rules,
      rule.head = flatRule.head ∧ Stands flat rule.items flatRule.body)
    (h : Yields (FlatRule.Expands flat) names w) (hw : ∀ name ∈ w, name ∉ flat.map (·.head))
    (hnames : Stands flat items names) : Yields (Rule.Expands rules) items (w.map .symbol) := by
  -- Induction on the derivation from the names: the body of a rule for a repetition stands for
  -- its items, and for the repetition again where there may be more rounds.
  induction h generalizing items with
  | nil =>
    cases hnames
    exact .nil
  | @keep rest w name _ ih =>
    obtain ⟨hname, hw⟩ := List.forall_mem_cons.mp hw
    have hnil := FlatRule.bodiesOf_eq_nil.mpr hname
    cases hnames with
    | symbol _ hrest => exact .keep _ (ih hw hrest)
    | anyNumber _ _ hbodies _ => simp [hnil] at hbodies
    | optional _ _ hbodies _ => simp [hnil] at hbodies
    | atLeastOne _ _ _ hbodies _ => simp [hnil] at hbodies
  | @replace name body rest u w hexpands _ _ ihbody ihrest =>
    obtain ⟨hu, hw⟩ := List.forall_mem_append.mp hw
    rw [List.map_append]
    have hmem := FlatRule.expands_iff.mp hexpands
    cases hnames with
    | symbol hname hrest =>
      cases hexpands with
      | alternative hflatRule =>
        obtain ⟨rule, hrule, hhead, hbody⟩ := hflat _ hflatRule hname
        rw [← hhead]
        exact .replace (.alternative hrule) (ihbody hu hbody) (ihrest hw hrest)
    | anyNumber hname hinner hbodies hrest =>
      refine Yields.append (l := [_]) ?_ (ihrest hw hrest)
      simp only [hbodies, List.mem_cons, List.not_mem_nil, or_false] at hmem
      rcases hmem with rfl | rfl
      · obtain ⟨n, -, hn⟩ := Rule.exists_more_rounds
          (ihbody hu (hinner.append (.anyNumber hname hinner hbodies .nil)))
        exact Rule.yields_rounds (Nat.zero_le n) trivial hn
      · exact Rule.yields_rounds (n := 0) (Nat.le_refl 0) trivial (ihbody hu .nil)
    | optional _ hinner hbodies hrest =>
      refine Yields.append (l := [_]) ?_ (ihrest hw hrest)
      simp only [hbodies, List.mem_cons, List.not_mem_nil, or_false] at hmem
      rcases hmem with rfl | rfl
      · exact Rule.yields_rounds (n := 1) (Nat.zero_le 1) (Nat.le_refl 1)
          (by simpa using ihbody hu hinner)
      · exact Rule.yields_rounds (n := 0) (Nat.le_refl 0) (Nat.zero_le 1) (ihbody hu .nil)
    | atLeastOne _ hinner hmore hbodies hrest =>
      refine Yields.append (l := [_]) ?_ (ihrest hw hrest)
      rw [hbodies, List.mem_singleton] at hmem
      subst hmem
      obtain ⟨n, hle, hn⟩ := Rule.exists_more_rounds (ihbody hu (hinner.append hmore))
      exact Rule.yields_rounds hle trivial hn

end Stands

end PredictiveParsing
