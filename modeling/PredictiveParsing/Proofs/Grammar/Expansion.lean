import PredictiveParsing.Proofs.Grammar.Repetition
import PredictiveParsing.Proofs.Result
import PredictiveParsing.Samples

/-!
# The expansion keeps what is derived

Fresh names are numbered from one counter, so the names drawn in different stretches of an
expansion are different. The rules that a stretch adds are for names that it has drawn, and a
stretch adds all rules for its names itself. So in the end each fresh name has just the rules that
were made for it, and the names put in for the items of a rule stand for them.

## Main definitions

* `Item.names`: the names of the symbols in an item, at any depth
* `Expansion.Keeps`: a relation that every step of an expansion keeps
* `Drawn`: the fresh names with numbers from a range
* `Expansion.Extends`: the rules that a stretch of an expansion adds
* `Owns`: names from a range have just the rules that are given
* `Expansion.Provides`: names stand for items by the rules that a stretch adds
* `Rule.Becomes`: a plain rule is made of a declared one

## Main results

* `Item.expandAll_induction`: what every step keeps holds of the whole expansion
* `Drawn.disjoint`: names with different numbers are different
* `expandAll_of_expandDeclared`: rules are expanded as all their items are
* `Item.expandAll_provides`: items are expanded into names that stand for them
* `expandRules_derives_iff`: the plain rules derive what the declared rules derive
-/

namespace PredictiveParsing

open Replacement

mutual

/-- The names of the symbols in an item, at any depth. -/
def Item.names : Item → List String
  | .symbol name => [name]
  | .repeated items _ _ => Item.namesAll items
  | .oneOfEach items => Item.namesAll items

/-- The names of the symbols in items, at any depth. -/
def Item.namesAll : List Item → List String
  | [] => []
  | item :: items => item.names ++ Item.namesAll items

end

namespace Item

theorem namesAll_eq_flatMap (items : List Item) : namesAll items = items.flatMap names := by
  induction items with
  | nil => rfl
  | cons item items ih => rw [namesAll, ih, List.flatMap_cons]

theorem namesAll_append (items items' : List Item) :
    namesAll (items ++ items') = namesAll items ++ namesAll items' := by
  simp [namesAll_eq_flatMap]

/-- The names in the items of all rules. -/
theorem forall_mem_namesAll_flatMap {rules : List Rule} {p : String → Prop} :
    (∀ name ∈ namesAll (rules.flatMap (·.items)), p name) ↔
      ∀ rule ∈ rules, ∀ name ∈ namesAll rule.items, p name := by
  induction rules with
  | nil => simp [namesAll]
  | cons rule rules ih =>
    rw [List.flatMap_cons, namesAll_append, List.forall_mem_append, ih, List.forall_mem_cons]

theorem namesAll_repeated (inner : List Item) (low high : Bound) :
    namesAll [repeated inner low high] = namesAll inner := by
  simp [namesAll, names]

end Item

/-! ## The course of an expansion -/

/-- **A relation that every step of an expansion keeps**, between the expansion before and after a
stretch, the items that are expanded, and the names put in for them. -/
structure Expansion.Keeps (P : Expansion → Expansion → List Item → List String → Prop) : Prop where
  /-- Nothing is done for no items. -/
  nil (s : Expansion) : P s s [] []
  /-- A symbol is its own name. -/
  symbol (s : Expansion) (name : String) : P s s [.symbol name] [name]
  /-- Items are expanded one after the other. -/
  cons {s s' s'' : Expansion} {item : Item} {items : List Item} {name : String}
    {names : List String} (hfirst : P s s' [item] [name]) (hrest : P s' s'' items names) :
    P s s'' (item :: items) (name :: names)
  /-- A name for any number of rounds is drawn first, and its rules are added last. -/
  anyNumber {s s' : Expansion} {inner : List Item} {body : List String} (hne : inner ≠ [])
    (hinner : P (s.draw "Repeat").2 s' inner body) :
    P s ((s'.add (s.draw "Repeat").1 (body ++ [(s.draw "Repeat").1])).add (s.draw "Repeat").1 [])
      [.anyNumber inner] [(s.draw "Repeat").1]
  /-- So it is for at most one round. -/
  optional {s s' : Expansion} {inner : List Item} {body : List String} (hne : inner ≠ [])
    (hinner : P (s.draw "Optional").2 s' inner body) :
    P s ((s'.add (s.draw "Optional").1 body).add (s.draw "Optional").1 [])
      [.optional inner] [(s.draw "Optional").1]
  /-- At least one round is any number of further rounds, and then the first one. -/
  atLeastOne {s s' s'' : Expansion} {inner : List Item} {more : String} {body : List String}
    (hne : inner ≠ []) (hmore : P (s.draw "Repeat").2 s' [.anyNumber inner] [more])
    (hinner : P s' s'' inner body) :
    P s (s''.add (s.draw "Repeat").1 (body ++ [more])) [.atLeastOne inner] [(s.draw "Repeat").1]

section

variable {P : Expansion → Expansion → List Item → List String → Prop} (hP : Expansion.Keeps P)

include hP

mutual

/-- What every step keeps holds of the expansion of an item. -/
theorem Item.expand_induction {s s' : Expansion} {name : String} :
    ∀ item : Item, item.expand s = .ok (name, s') → P s s' [item] [name]
  | .symbol n, h => by
    obtain ⟨rfl, rfl⟩ : n = name ∧ s = s' := by simpa [Item.expand] using h
    exact hP.symbol s n
  | .oneOfEach items, h => by simp [Item.expand] at h
  | .repeated items low high, h => by
    unfold Item.expand at h
    split at h
    · cases h
    rename_i hempty
    have hitems : items ≠ [] := by simpa using hempty
    split at h
    · simp only [bind_eq_ok, pure_eq_ok] at h
      obtain ⟨⟨body, s₁⟩, hbody, h⟩ := h
      obtain ⟨rfl, rfl⟩ := Prod.mk.inj h
      exact hP.anyNumber hitems (Item.expandAll_induction items hbody)
    · simp only [bind_eq_ok, pure_eq_ok] at h
      obtain ⟨⟨body, s₁⟩, hbody, h⟩ := h
      obtain ⟨rfl, rfl⟩ := Prod.mk.inj h
      exact hP.optional hitems (Item.expandAll_induction items hbody)
    · simp only [bind_eq_ok, pure_eq_ok] at h
      obtain ⟨⟨body, s₁⟩, hbody, ⟨body', s₂⟩, hbody', h⟩ := h
      obtain ⟨rfl, rfl⟩ := Prod.mk.inj h
      have hmore := hP.anyNumber hitems (Item.expandAll_induction items hbody)
      exact hP.atLeastOne hitems hmore (Item.expandAll_induction items hbody')
    · cases h

/-- **What every step keeps holds of the whole expansion.** -/
theorem Item.expandAll_induction {s s' : Expansion} {names : List String} :
    ∀ items : List Item, Item.expandAll items s = .ok (names, s') → P s s' items names
  | [], h => by
    obtain ⟨rfl, rfl⟩ : [] = names ∧ s = s' := by simpa [Item.expandAll] using h
    exact hP.nil s
  | item :: items, h => by
    simp only [Item.expandAll, bind_eq_ok, pure_eq_ok] at h
    obtain ⟨⟨name, s₁⟩, hitem, ⟨rest, s₂⟩, hitems, heq⟩ := h
    obtain ⟨rfl, rfl⟩ := Prod.mk.inj heq
    exact hP.cons (Item.expand_induction item hitem) (Item.expandAll_induction items hitems)

end

end

/-! ## Fresh names -/

/-- The kinds of repetitions that have fresh names. -/
def Expansion.kinds : List String := ["Repeat", "Optional"]

/-- **The fresh names with numbers from a range.** -/
def Drawn (low high : Nat) (name : String) : Prop :=
  ∃ kind ∈ Expansion.kinds, ∃ n, low ≤ n ∧ n < high ∧ name = Expansion.nameOf kind n

theorem Expansion.isReserved_nameOf (kind : String) (n : Nat) : IsReserved (nameOf kind n) := by
  rw [IsReserved, nameOf, String.append_assoc, String.toList_append]
  exact List.prefix_append _ _

/-- A fresh name is known by its number. -/
theorem Expansion.nameOf_inj {kind kind' : String} (hkind : kind ∈ kinds) (hkind' : kind' ∈ kinds)
    {n n' : Nat} (h : nameOf kind n = nameOf kind' n') : n = n' := by
  have hlist := congrArg String.toList h
  simp only [nameOf, String.toList_append, List.append_assoc, List.append_cancel_left_eq] at hlist
  by_cases heq : kind = kind'
  · subst heq
    have hdigits : Nat.toDigits 10 n = Nat.toDigits 10 n' := by
      simpa [Nat.toString_eq_ofList_toDigits] using List.append_cancel_left hlist
    simpa using congrArg (Nat.ofDigitChars 10 · 0) hdigits
  · -- the kinds differ in their first letters
    simp only [kinds, List.mem_cons, List.not_mem_nil, or_false] at hkind hkind'
    rcases hkind with rfl | rfl
    · obtain rfl := hkind'.resolve_left (Ne.symm heq)
      simp at hlist
    · obtain rfl := hkind'.resolve_right (Ne.symm heq)
      simp at hlist

namespace Drawn

variable {low mid high : Nat} {kind name : String}

theorem nameOf (hkind : kind ∈ Expansion.kinds) {n : Nat} (hlow : low ≤ n)
    (hhigh : n < high) : Drawn low high (Expansion.nameOf kind n) :=
  ⟨kind, hkind, n, hlow, hhigh, rfl⟩

theorem isReserved (h : Drawn low high name) : IsReserved name := by
  obtain ⟨kind, -, n, -, -, rfl⟩ := h
  exact Expansion.isReserved_nameOf kind n

theorem mono {low' high' : Nat} (h : Drawn low high name) (hlow : low' ≤ low)
    (hhigh : high ≤ high') : Drawn low' high' name := by
  obtain ⟨kind, hkind, n, hn, hn', rfl⟩ := h
  exact .nameOf hkind (Nat.le_trans hlow hn) (Nat.lt_of_lt_of_le hn' hhigh)

/-- **Names with different numbers are different.** -/
theorem disjoint (h : Drawn low mid name) (h' : Drawn mid high name) : False := by
  obtain ⟨kind, hkind, n, -, hn, rfl⟩ := h
  obtain ⟨kind', hkind', n', hn', -, heq⟩ := h'
  have := Expansion.nameOf_inj hkind hkind' heq
  omega

end Drawn

/-! ## What a stretch of an expansion adds -/

/-- **The rules that a stretch of an expansion adds** are for names that it has drawn. -/
structure Expansion.Extends (s s' : Expansion) (added : List FlatRule) : Prop where
  fresh : s'.fresh = s.fresh ++ added
  counter_le : s.counter ≤ s'.counter
  drawn : ∀ rule ∈ added, Drawn s.counter s'.counter rule.head

/-- The names with numbers from a range have just the rules that are given. -/
def Owns (flat : List FlatRule) (low high : Nat) (added : List FlatRule) : Prop :=
  ∀ name, Drawn low high name → FlatRule.bodiesOf flat name = FlatRule.bodiesOf added name

/-- The rules of a fresh name. -/
def Expansion.rulesOf (name : String) (bodies : List (List String)) : List FlatRule :=
  bodies.map fun body => ⟨name, body, none⟩

namespace Expansion

variable {s s' s'' : Expansion} {added more flat : List FlatRule} {kind : String}
  {bodies : List (List String)}

/-- Names that have not been drawn have no rules. -/
theorem bodiesOf_eq_nil_of_not_drawn {low high : Nat} {name : String}
    (hdrawn : ∀ rule ∈ added, Drawn low high rule.head) (h : ¬ Drawn low high name) :
    FlatRule.bodiesOf added name = [] := by
  rw [FlatRule.bodiesOf_eq_nil]
  intro hname
  obtain ⟨rule, hrule, rfl⟩ := List.mem_map.mp hname
  exact h (hdrawn rule hrule)

theorem bodiesOf_rulesOf (name : String) (bodies : List (List String)) :
    FlatRule.bodiesOf (rulesOf name bodies) name = bodies := by
  simp [FlatRule.bodiesOf, rulesOf, List.filter_map, Function.comp_def]

theorem Extends.refl (s : Expansion) : s.Extends s [] :=
  ⟨(List.append_nil _).symm, Nat.le_refl _, by simp⟩

theorem Extends.trans (h : s.Extends s' added) (h' : s'.Extends s'' more) :
    s.Extends s'' (added ++ more) := by
  refine ⟨by rw [h'.fresh, h.fresh, List.append_assoc], ?_, ?_⟩
  · exact Nat.le_trans h.counter_le h'.counter_le
  · intro rule hrule
    rcases List.mem_append.mp hrule with hrule | hrule
    · exact (h.drawn rule hrule).mono (Nat.le_refl _) h'.counter_le
    · exact (h'.drawn rule hrule).mono h.counter_le (Nat.le_refl _)

/-- Of two stretches each adds the rules for its own names. -/
theorem Extends.owns_append (h : s.Extends s' added) (h' : s'.Extends s'' more)
    (howns : Owns flat s.counter s''.counter (added ++ more)) :
    Owns flat s.counter s'.counter added ∧ Owns flat s'.counter s''.counter more := by
  constructor
  · intro name hname
    have hnil := bodiesOf_eq_nil_of_not_drawn h'.drawn hname.disjoint
    rw [howns name (hname.mono (Nat.le_refl _) h'.counter_le), FlatRule.bodiesOf_append, hnil,
      List.append_nil]
  · intro name hname
    have hnil := bodiesOf_eq_nil_of_not_drawn h.drawn fun hname' => hname'.disjoint hname
    rw [howns name (hname.mono h.counter_le (Nat.le_refl _)), FlatRule.bodiesOf_append, hnil,
      List.nil_append]

/-- **A name is drawn before a stretch**, and its rules are added after it. -/
theorem Extends.wrap (hkind : kind ∈ kinds)
    (h : (s.draw kind).2.Extends s' added)
    (hfresh : s''.fresh = s'.fresh ++ rulesOf (s.draw kind).1 bodies)
    (hcounter : s''.counter = s'.counter) :
    s.Extends s'' (added ++ rulesOf (s.draw kind).1 bodies) := by
  have hle : s.counter < s'.counter := h.counter_le
  refine ⟨?_, hcounter ▸ Nat.le_of_lt hle, ?_⟩
  · rw [hfresh, h.fresh, List.append_assoc]
    rfl
  · intro rule hrule
    rw [hcounter]
    rcases List.mem_append.mp hrule with hrule | hrule
    · exact (h.drawn rule hrule).mono (Nat.le_succ _) (Nat.le_refl _)
    · obtain ⟨body, -, rfl⟩ := List.mem_map.mp hrule
      exact .nameOf hkind (Nat.le_refl _) hle

/-- The name has just the rules that are added last. -/
theorem Extends.owns_wrap (hkind : kind ∈ kinds)
    (h : (s.draw kind).2.Extends s' added)
    (howns : Owns flat s.counter s'.counter (added ++ rulesOf (s.draw kind).1 bodies)) :
    Owns flat (s.draw kind).2.counter s'.counter added ∧
      FlatRule.bodiesOf flat (s.draw kind).1 = bodies := by
  have hfirst : Drawn s.counter (s.counter + 1) (s.draw kind).1 :=
    .nameOf hkind (Nat.le_refl _) (Nat.lt_succ_self _)
  have hrules : ∀ rule ∈ rulesOf (s.draw kind).1 bodies,
      Drawn s.counter (s.counter + 1) rule.head := by
    intro rule hrule
    obtain ⟨body, -, rfl⟩ := List.mem_map.mp hrule
    exact hfirst
  constructor
  · intro name hname
    have hnil := bodiesOf_eq_nil_of_not_drawn hrules fun hname' => hname'.disjoint hname
    rw [howns name (hname.mono (Nat.le_succ _) (Nat.le_refl _)), FlatRule.bodiesOf_append, hnil,
      List.append_nil]
  · have hnil := bodiesOf_eq_nil_of_not_drawn h.drawn hfirst.disjoint
    rw [howns _ (hfirst.mono (Nat.le_refl _) h.counter_le), FlatRule.bodiesOf_append, hnil,
      List.nil_append, bodiesOf_rulesOf]

/-! ## Items -/

/-- **A stretch of an expansion provides names for items**: it adds rules with which the names
stand for the items. -/
def Provides (s s' : Expansion) (items : List Item) (names : List String) : Prop :=
  ∃ added, s.Extends s' added ∧ ((∀ name ∈ Item.namesAll items, ¬ IsReserved name) →
    ∀ flat, Owns flat s.counter s'.counter added → Stands flat items names)

namespace Provides

variable {item : Item} {items inner : List Item} {name : String} {names body : List String}

theorem nil (s : Expansion) : s.Provides s [] [] := ⟨[], .refl s, fun _ _ _ => .nil⟩

theorem symbol (s : Expansion) (name : String) : s.Provides s [.symbol name] [name] :=
  ⟨[], .refl s, fun hname _ _ => .symbol (hname name (by simp [Item.namesAll, Item.names])) .nil⟩

theorem cons (h : s.Provides s' [item] [name]) (h' : s'.Provides s'' items names) :
    s.Provides s'' (item :: items) (name :: names) := by
  obtain ⟨added, hext, hstands⟩ := h
  obtain ⟨more, hext', hstands'⟩ := h'
  refine ⟨_, hext.trans hext', fun hnames flat howns => ?_⟩
  obtain ⟨howns, howns'⟩ := hext.owns_append hext' howns
  simp only [Item.namesAll, List.append_nil, List.forall_mem_append] at hnames hstands
  exact (hstands hnames.1 flat howns).append (hstands' hnames.2 flat howns')

/-- An item that is made of others has a fresh name, whose rules come after theirs. -/
theorem wrap (hkind : kind ∈ kinds)
    (h : (s.draw kind).2.Provides s' inner body) (bodies : List (List String))
    (hfresh : s''.fresh = s'.fresh ++ rulesOf (s.draw kind).1 bodies)
    (hcounter : s''.counter = s'.counter)
    (hnames : ∀ name ∈ Item.namesAll inner, name ∈ item.names)
    (hstands : ∀ flat, FlatRule.bodiesOf flat (s.draw kind).1 = bodies →
      Stands flat inner body → Stands flat [item] [(s.draw kind).1]) :
    s.Provides s'' [item] [(s.draw kind).1] := by
  obtain ⟨added, hext, hinner⟩ := h
  refine ⟨_, hext.wrap hkind hfresh hcounter, fun hitem flat howns => ?_⟩
  rw [hcounter] at howns
  obtain ⟨howns, hbodies⟩ := hext.owns_wrap hkind howns
  refine hstands flat hbodies (hinner (fun name hname => hitem name ?_) flat howns)
  rw [Item.namesAll]
  exact List.mem_append_left _ (hnames name hname)

theorem anyNumber (h : (s.draw "Repeat").2.Provides s' inner body) :
    s.Provides ((s'.add (s.draw "Repeat").1 (body ++ [(s.draw "Repeat").1])).add
      (s.draw "Repeat").1 []) [.repeated inner (.finite 0) .infinite] [(s.draw "Repeat").1] := by
  refine h.wrap (by decide) [body ++ [(s.draw "Repeat").1], []] ?_ rfl (fun name hname => ?_)
    fun flat hbodies hinner => .anyNumber (isReserved_nameOf _ _) hinner hbodies .nil
  · simp [add, rulesOf]
  · simpa [Item.names] using hname

theorem optional (h : (s.draw "Optional").2.Provides s' inner body) :
    s.Provides ((s'.add (s.draw "Optional").1 body).add (s.draw "Optional").1 [])
      [.repeated inner (.finite 0) (.finite 1)] [(s.draw "Optional").1] := by
  refine h.wrap (by decide) [body, []] ?_ rfl (fun name hname => ?_)
    fun flat hbodies hinner => .optional (isReserved_nameOf _ _) hinner hbodies .nil
  · simp [add, rulesOf]
  · simpa [Item.names] using hname

theorem atLeastOne {more : String}
    (hmore : (s.draw "Repeat").2.Provides s' [.repeated inner (.finite 0) .infinite] [more])
    (h : s'.Provides s'' inner body) :
    s.Provides (s''.add (s.draw "Repeat").1 (body ++ [more]))
      [.repeated inner (.finite 1) .infinite] [(s.draw "Repeat").1] := by
  refine (hmore.cons h).wrap (by decide) [body ++ [more]] ?_ rfl (fun name hname => ?_)
    fun flat hbodies hboth => ?_
  · simp [add, rulesOf]
  · simpa [Item.names, Item.namesAll] using hname
  · cases hboth with
    | anyNumber hname hinner hbodies' hrest =>
      exact .atLeastOne (isReserved_nameOf _ _) hrest (.anyNumber hname hinner hbodies' .nil)
        hbodies .nil

end Provides

end Expansion

theorem Expansion.keeps_provides : Keeps Provides where
  nil := .nil
  symbol := .symbol
  cons := .cons
  anyNumber _ h := h.anyNumber
  optional _ h := h.optional
  atLeastOne _ hmore h := hmore.atLeastOne h

/-- **Items are expanded into names** that stand for them. -/
theorem Item.expandAll_provides {s s' : Expansion} {names : List String} (items : List Item)
    (h : Item.expandAll items s = .ok (names, s')) : s.Provides s' items names :=
  Item.expandAll_induction Expansion.keeps_provides items h

theorem Item.length_of_expandAll {items : List Item} {s s' : Expansion} {names : List String}
    (h : Item.expandAll items s = .ok (names, s')) : names.length = items.length := by
  induction items generalizing s names with
  | nil =>
    obtain ⟨rfl, -⟩ : [] = names ∧ s = s' := by simpa [Item.expandAll] using h
    rfl
  | cons item items ih =>
    simp only [Item.expandAll, bind_eq_ok, pure_eq_ok] at h
    obtain ⟨⟨name, s₁⟩, -, ⟨rest, s₂⟩, hitems, heq⟩ := h
    obtain ⟨rfl, rfl⟩ := Prod.mk.inj heq
    simp [ih hitems]

/-- Two stretches of items are expanded one after the other. -/
theorem Item.expandAll_append {items items' : List Item} {s s' s'' : Expansion}
    {names names' : List String} (h : Item.expandAll items s = .ok (names, s'))
    (h' : Item.expandAll items' s' = .ok (names', s'')) :
    Item.expandAll (items ++ items') s = .ok (names ++ names', s'') := by
  induction items generalizing s names with
  | nil =>
    obtain ⟨rfl, rfl⟩ : [] = names ∧ s = s' := by simpa [Item.expandAll] using h
    exact h'
  | cons item items ih =>
    simp only [Item.expandAll, bind_eq_ok, pure_eq_ok] at h
    obtain ⟨⟨name, s₁⟩, hitem, ⟨rest, s₂⟩, hitems, heq⟩ := h
    obtain ⟨rfl, rfl⟩ := Prod.mk.inj heq
    simp only [List.cons_append, Item.expandAll, bind_eq_ok, pure_eq_ok]
    exact ⟨_, hitem, _, ih hitems, rfl⟩

/-! ## Rules -/

/-- **Declared rules are expanded as all their items are**, one rule after the other. -/
theorem expandAll_of_expandDeclared {rules : List Rule} {s s' : Expansion}
    {declared : List FlatRule} (h : expandDeclared rules s = .ok (declared, s')) :
    Item.expandAll (rules.flatMap (·.items)) s = .ok (declared.flatMap (·.body), s') := by
  induction rules generalizing s declared with
  | nil =>
    obtain ⟨rfl, rfl⟩ : [] = declared ∧ s = s' := by simpa [expandDeclared] using h
    rfl
  | cons rule rules ih =>
    unfold expandDeclared at h
    split at h
    · cases h
    · simp only [bind_eq_ok, pure_eq_ok] at h
      obtain ⟨⟨body, s₁⟩, hbody, ⟨rest, s₂⟩, hrest, heq⟩ := h
      obtain ⟨rfl, rfl⟩ := Prod.mk.inj heq
      exact Item.expandAll_append hbody (ih hrest)

/-- A plain rule is the expansion of a declared one: it has a name for each item. -/
structure Rule.Becomes (rule : Rule) (flatRule : FlatRule) : Prop where
  head_eq : flatRule.head = rule.head
  binding_eq : flatRule.binding = rule.binding
  length_body : flatRule.body.length = rule.items.length

theorem expandDeclared_eq_ok {rules : List Rule} {s s' : Expansion} {declared : List FlatRule}
    (h : expandDeclared rules s = .ok (declared, s')) :
    List.Forall₂ Rule.Becomes rules declared ∧ (∀ rule ∈ rules, ¬ IsReserved rule.head) ∧
      ∃ added, s.Extends s' added ∧
        ((∀ rule ∈ rules, ∀ name ∈ Item.namesAll rule.items, ¬ IsReserved name) →
          ∀ flat, Owns flat s.counter s'.counter added →
            List.Forall₂ (fun rule flatRule => rule.Becomes flatRule ∧
              Stands flat rule.items flatRule.body) rules declared) := by
  induction rules generalizing s declared with
  | nil =>
    obtain ⟨rfl, rfl⟩ : [] = declared ∧ s = s' := by simpa [expandDeclared] using h
    exact ⟨.nil, by simp, [], .refl s, fun _ _ _ => .nil⟩
  | cons rule rules ih =>
    unfold expandDeclared at h
    split at h
    · cases h
    · rename_i hhead
      simp only [bind_eq_ok, pure_eq_ok] at h
      obtain ⟨⟨body, s₁⟩, hbody, ⟨rest, s₂⟩, hrest, heq⟩ := h
      obtain ⟨rfl, rfl⟩ := Prod.mk.inj heq
      obtain ⟨hbecomes, hheads, more, hext', hstands'⟩ := ih hrest
      obtain ⟨added, hext, hstands⟩ := Item.expandAll_provides rule.items hbody
      have hfirst : rule.Becomes ⟨rule.head, body, rule.binding⟩ :=
        ⟨rfl, rfl, Item.length_of_expandAll hbody⟩
      refine ⟨.cons hfirst hbecomes, ?_, added ++ more, hext.trans hext',
        fun hnames flat howns => ?_⟩
      · rw [List.forall_mem_cons]
        exact ⟨by simpa [IsReserved] using hhead, hheads⟩
      · obtain ⟨howns, howns'⟩ := hext.owns_append hext' howns
        rw [List.forall_mem_cons] at hnames
        exact .cons ⟨hfirst, hstands hnames.1 flat howns⟩ (hstands' hnames.2 flat howns')

/-- **The expansion of repetitions keeps what is derived**: a declared nonterminal derives the same
texts by the plain rules as by the declared ones. The plain rules begin with those for the declared
rules, in order. -/
theorem expandRules_derives_iff {rules : List Rule} {flat : List FlatRule}
    (h : expandRules rules = .ok flat)
    (hnames : ∀ rule ∈ rules, ∀ name ∈ Item.namesAll rule.items, ¬ IsReserved name) :
    (∀ head ∈ rules.map (·.head), ∀ w : List String, (∀ name ∈ w, name ∉ flat.map (·.head)) →
      (FlatRule.Derives flat [head] w ↔ Rule.Derives rules [.symbol head] (w.map .symbol))) ∧
    ∃ declared fresh, flat = declared ++ fresh ∧ List.Forall₂ Rule.Becomes rules declared := by
  simp only [expandRules, bind_eq_ok, pure_eq_ok] at h
  obtain ⟨⟨declared, s⟩, hdeclared, rfl⟩ := h
  obtain ⟨hbecomes, hheads, added, hext, hstands⟩ := expandDeclared_eq_ok hdeclared
  obtain rfl : s.fresh = added := by simpa using hext.fresh
  refine ⟨?_, declared, s.fresh, rfl, hbecomes⟩
  dsimp only
  have howns : Owns (declared ++ s.fresh) 0 s.counter s.fresh := by
    intro name hname
    have hnil : FlatRule.bodiesOf declared name = [] := by
      rw [FlatRule.bodiesOf_eq_nil]
      intro hmem
      obtain ⟨flatRule, hflatRule, rfl⟩ := List.mem_map.mp hmem
      obtain ⟨rule, hrule, hb⟩ := exists_of_mem_right hbecomes hflatRule
      exact hheads rule hrule (hb.head_eq ▸ hname.isReserved)
    rw [FlatRule.bodiesOf_append, hnil, List.nil_append]
  have hboth := hstands hnames _ howns
  intro head hhead w hw
  obtain ⟨rule₀, hrule₀, rfl⟩ := List.mem_map.mp hhead
  have hsymbol : Stands (declared ++ s.fresh) [.symbol rule₀.head] [rule₀.head] :=
    .symbol (hheads rule₀ hrule₀) .nil
  rw [FlatRule.Derives, Rule.Derives, derives_iff_yields, derives_iff_yields]
  constructor
  · intro hyields
    refine hsymbol.yields ?_ hyields hw
    -- a name that is not reserved has only the rules that were declared for it
    intro flatRule hflatRule hreserved
    rcases List.mem_append.mp hflatRule with hflatRule | hflatRule
    · obtain ⟨rule, hrule, hb, hrule'⟩ := exists_of_mem_right hboth hflatRule
      exact ⟨rule, hrule, hb.head_eq.symm, hrule'⟩
    · exact absurd (hext.drawn flatRule hflatRule).isReserved hreserved
  · intro hyields
    refine hsymbol.yields_flat ?_ hyields rfl
    intro rule hrule
    obtain ⟨flatRule, hflatRule, hb, hrule'⟩ := exists_of_mem_left hboth hrule
    exact ⟨flatRule, List.mem_append_left _ hflatRule, hb.head_eq, hrule'⟩

/-- Two groups, the first one with a `b`, come of the plain rules since they come of the rounds. -/
theorem expandRules_derives_iff_rounds : ∃ flat, expandRules Samples.rounds = .ok flat ∧
    (∀ rule ∈ Samples.rounds, ∀ name ∈ Item.namesAll rule.items, ¬ IsReserved name) ∧
    (∀ name ∈ ["a", "b", "a"], name ∉ flat.map (·.head)) ∧
    FlatRule.Derives flat ["Groups"] ["a", "b", "a"] ∧
    ∃ declared fresh, flat = declared ++ fresh ∧
      List.Forall₂ Rule.Becomes Samples.rounds declared := by
  have hrun : ((expandRules Samples.rounds).toOption.map fun flat =>
      decide (∀ name ∈ ["a", "b", "a"], name ∉ flat.map (·.head))) = some true := by
    decide +kernel
  simp only [Option.map_eq_some_iff, toOption_eq_some, decide_eq_true_eq] at hrun
  obtain ⟨flat, hflat, hterminals⟩ := hrun
  have hnames : ∀ rule ∈ Samples.rounds, ∀ name ∈ Item.namesAll rule.items, ¬ IsReserved name := by
    decide
  obtain ⟨hderives, hdeclared⟩ := expandRules_derives_iff hflat hnames
  refine ⟨flat, hflat, hnames, hterminals,
    (hderives "Groups" (by decide) _ hterminals).mpr ?_, hdeclared⟩
  rw [Rule.Derives, derives_iff_yields]
  have hone : Yields (Rule.Expands Samples.rounds) [.anyNumber [.symbol "b"]] [.symbol "b"] :=
    Rule.yields_rounds (n := 1) (Nat.zero_le 1) trivial (.refl _)
  have hnone : Yields (Rule.Expands Samples.rounds) [.anyNumber [.symbol "b"]] [] :=
    Rule.yields_rounds (n := 0) (Nat.le_refl 0) trivial .nil
  have htwo : Yields (Rule.Expands Samples.rounds)
      (List.replicate 2 [.symbol "a", .anyNumber [.symbol "b"]]).flatten
      [.symbol "a", .symbol "b", .symbol "a"] :=
    .keep _ (hone.append (.keep _ hnone))
  have hgroups : Yields (Rule.Expands Samples.rounds)
      [.atLeastOne [.symbol "a", .anyNumber [.symbol "b"]]] _ :=
    Rule.yields_rounds (Nat.le_succ 1) trivial htwo
  have hrest : Yields (Rule.Expands Samples.rounds)
      [.optional [.symbol "(", .symbol "Groups", .symbol ")"]] [] :=
    Rule.yields_rounds (n := 0) (Nat.le_refl 0) (Nat.zero_le 1) .nil
  exact .of_replace (.alternative List.mem_cons_self) (hgroups.append hrest)

end PredictiveParsing
