import PredictiveParsing.Proofs.Grammar.Expansion

/-!
# Rules that can be expanded

An item can be expanded if it is a symbol, or a repetition of some items with bounds for which there
are plain rules. Expanding a list of items succeeds just if this holds at every depth, and otherwise
an operator is blamed that stands in one of them. Of a list of rules the first that cannot be
expanded is blamed. The plain rules that are added have no bindings, so a plain rule with a binding
is the expansion of the declared rule with its number.

## Main definitions

* `Item.Within`, `Item.IsSupported`: items at any depth, and those that can be expanded
* `Item.Shows`: an item has an operator without an expansion
* `Rule.IsSupported`: a rule can be expanded

## Main results

* `Item.supported_of_expandAll`, `Item.exists_of_expandAll_eq_error`: success and failure
* `exists_of_expandDeclared_eq_error`: the first rule that cannot be expanded is blamed
* `expandRules_isOk_iff`: rules are expanded just if each of them can be
-/

namespace PredictiveParsing

/-! ## Items that can be expanded -/

namespace Item

/-- The items that an item is made of. -/
def inner : Item → List Item
  | symbol _ => []
  | repeated items _ _ => items
  | oneOfEach items => items

/-- **An item stands in a list of items**, at any depth. -/
inductive Within (item : Item) : List Item → Prop
  | here {items : List Item} (h : item ∈ items) : Within item items
  | inside {other : Item} {items : List Item} (h : other ∈ items)
      (hinner : Within item other.inner) : Within item items

/-- The bounds of any number of rounds, at most one, and at least one. -/
def supportedBounds : List (Bound × Bound) :=
  [(.finite 0, .infinite), (.finite 0, .finite 1), (.finite 1, .infinite)]

/-- **An item can be expanded** if it is a symbol, or a repetition of some items with bounds that
have an expansion. -/
inductive IsSupported : Item → Prop
  | symbol (name : String) : IsSupported (symbol name)
  | repeated {items : List Item} {low high : Bound} (hitems : items ≠ [])
      (hbounds : (low, high) ∈ supportedBounds) : IsSupported (repeated items low high)

/-- **An item has an operator without an expansion.** -/
inductive Shows : Item → UnsupportedOperator → Prop
  | set (items : List Item) : Shows (oneOfEach items) .set
  | emptyRepetition (low high : Bound) : Shows (repeated [] low high) .emptyRepetition
  | bounds (items : List Item) {low high : Bound} (h : (low, high) ∉ supportedBounds) :
      Shows (repeated items low high) .bounds

theorem IsSupported.not_shows {item : Item} (h : item.IsSupported) {op : UnsupportedOperator} :
    ¬ item.Shows op := by
  intro hshows
  cases h with
  | symbol name => cases hshows
  | repeated hitems hbounds =>
    cases hshows with
    | emptyRepetition => exact hitems rfl
    | bounds _ hnot => exact hnot hbounds

theorem not_within_nil {item : Item} : ¬ item.Within [] := by
  rintro (h | ⟨h, -⟩)
  · exact List.not_mem_nil h
  · exact List.not_mem_nil h

theorem within_cons {item first : Item} {items : List Item} :
    item.Within (first :: items) ↔ item = first ∨ item.Within first.inner ∨ item.Within items := by
  constructor
  · rintro (h | ⟨h, hinner⟩)
    · rcases List.mem_cons.mp h with rfl | h
      · exact .inl rfl
      · exact .inr (.inr (.here h))
    · rcases List.mem_cons.mp h with rfl | h
      · exact .inr (.inl hinner)
      · exact .inr (.inr (.inside h hinner))
  · rintro (rfl | hinner | h)
    · exact .here List.mem_cons_self
    · exact .inside List.mem_cons_self hinner
    · cases h with
      | here h => exact .here (List.mem_cons_of_mem _ h)
      | inside h hinner => exact .inside (List.mem_cons_of_mem _ h) hinner

/-- All items that stand in a list of items can be expanded. -/
def AllSupported (items : List Item) : Prop := ∀ item : Item, item.Within items → item.IsSupported

theorem allSupported_nil : AllSupported [] := fun _ hitem => (not_within_nil hitem).elim

theorem allSupported_cons {first : Item} {items : List Item} : AllSupported (first :: items) ↔
    first.IsSupported ∧ AllSupported first.inner ∧ AllSupported items := by
  simp only [AllSupported, within_cons]
  constructor
  · intro h
    exact ⟨h first (.inl rfl), fun item hitem => h item (.inr (.inl hitem)),
      fun item hitem => h item (.inr (.inr hitem))⟩
  · rintro ⟨hfirst, hinner, hitems⟩ item (rfl | hitem | hitem)
    · exact hfirst
    · exact hinner item hitem
    · exact hitems item hitem

end Item

/-- The rules for fresh nonterminals have no binding. -/
def Expansion.Unbound (s : Expansion) : Prop := ∀ rule ∈ s.fresh, rule.binding = none

theorem Expansion.Unbound.add {s : Expansion} (h : s.Unbound) (head : String)
    (body : List String) : (s.add head body).Unbound := by
  intro rule hrule
  rcases List.mem_append.mp hrule with hrule | hrule
  · exact h rule hrule
  · obtain rfl := List.mem_singleton.mp hrule
    rfl

theorem Expansion.keeps_supported :
    Keeps fun s s' items _ => Item.AllSupported items ∧ (s.Unbound → s'.Unbound) where
  nil s := ⟨Item.allSupported_nil, id⟩
  symbol s name := ⟨Item.allSupported_cons.mpr
    ⟨.symbol name, Item.allSupported_nil, Item.allSupported_nil⟩, id⟩
  cons hfirst hrest := by
    obtain ⟨hitem, hinner, -⟩ := Item.allSupported_cons.mp hfirst.1
    exact ⟨Item.allSupported_cons.mpr ⟨hitem, hinner, hrest.1⟩, fun hs => hrest.2 (hfirst.2 hs)⟩
  anyNumber hne h := ⟨Item.allSupported_cons.mpr
    ⟨.repeated hne (by decide), h.1, Item.allSupported_nil⟩, fun hs => ((h.2 hs).add _ _).add _ _⟩
  optional hne h := ⟨Item.allSupported_cons.mpr
    ⟨.repeated hne (by decide), h.1, Item.allSupported_nil⟩, fun hs => ((h.2 hs).add _ _).add _ _⟩
  atLeastOne hne hmore h := ⟨Item.allSupported_cons.mpr
    ⟨.repeated hne (by decide), h.1, Item.allSupported_nil⟩, fun hs => (h.2 (hmore.2 hs)).add _ _⟩

/-- **What is expanded is supported**, and no rule that is added has a binding. -/
theorem Item.supported_of_expandAll {s s' : Expansion} {names : List String} (items : List Item)
    (h : Item.expandAll items s = .ok (names, s')) :
    AllSupported items ∧ (s.Unbound → s'.Unbound) :=
  Item.expandAll_induction Expansion.keeps_supported items h

mutual

/-- **An item that is not expanded** has an operator without an expansion, at some depth. -/
theorem Item.exists_of_expand_eq_error {s : Expansion} {e : BuildError} :
    ∀ item : Item, item.expand s = .error e → ∃ other op,
      (other = item ∨ Within other item.inner) ∧ other.Shows op ∧ e = .unsupportedOperator op
  | .symbol n, h => by simp [Item.expand] at h
  | .oneOfEach items, h => by
    obtain rfl : BuildError.unsupportedOperator .set = e := by simpa [Item.expand] using h
    exact ⟨_, _, .inl rfl, .set items, rfl⟩
  | .repeated items low high, h => by
    have hinside {s : Expansion} (h : Item.expandAll items s = .error e) : ∃ other op,
        (other = .repeated items low high ∨ Within other items) ∧ other.Shows op ∧
          e = .unsupportedOperator op := by
      obtain ⟨other, op, hother, hshows, he⟩ := Item.exists_of_expandAll_eq_error items h
      exact ⟨other, op, .inr hother, hshows, he⟩
    unfold Item.expand at h
    split at h
    · rename_i hempty
      obtain rfl : items = [] := by simpa using hempty
      cases h
      exact ⟨_, _, .inl rfl, .emptyRepetition low high, rfl⟩
    split at h
    · simp only [bind_eq_error, pure_ne_error, and_false, exists_false, or_false] at h
      exact hinside h
    · simp only [bind_eq_error, pure_ne_error, and_false, exists_false, or_false] at h
      exact hinside h
    · simp only [bind_eq_error, pure_ne_error, and_false, exists_false, or_false] at h
      rcases h with h | ⟨_, -, h⟩
      · exact hinside h
      · exact hinside h
    · rename_i hany hone hsome
      cases h
      refine ⟨_, _, .inl rfl, .bounds items fun hbounds => ?_, rfl⟩
      simp only [supportedBounds, List.mem_cons, Prod.mk.injEq, List.not_mem_nil, or_false]
        at hbounds
      rcases hbounds with hbounds | hbounds | hbounds
      · exact hany hbounds.1 hbounds.2
      · exact hone hbounds.1 hbounds.2
      · exact hsome hbounds.1 hbounds.2

theorem Item.exists_of_expandAll_eq_error {s : Expansion} {e : BuildError} :
    ∀ items : List Item, Item.expandAll items s = .error e → ∃ other op,
      Within other items ∧ other.Shows op ∧ e = .unsupportedOperator op
  | [], h => by simp [Item.expandAll] at h
  | item :: items, h => by
    simp only [Item.expandAll, bind_eq_error, pure_ne_error, and_false, exists_false,
      or_false] at h
    rcases h with h | ⟨_, -, h⟩
    · obtain ⟨other, op, hother, hshows, he⟩ := Item.exists_of_expand_eq_error item h
      exact ⟨other, op, within_cons.mpr (hother.imp_right .inl), hshows, he⟩
    · obtain ⟨other, op, hother, hshows, he⟩ := Item.exists_of_expandAll_eq_error items h
      exact ⟨other, op, within_cons.mpr (.inr (.inr hother)), hshows, he⟩

end

/-! ## Rules that can be expanded -/

/-- **A rule can be expanded** if its head is not reserved and its items can be expanded. -/
def Rule.IsSupported (rule : Rule) : Prop :=
  ¬ IsReserved rule.head ∧ Item.AllSupported rule.items

theorem supported_of_expandDeclared {rules : List Rule} {s s' : Expansion}
    {declared : List FlatRule} (h : expandDeclared rules s = .ok (declared, s')) :
    (∀ rule ∈ rules, rule.IsSupported) ∧ (s.Unbound → s'.Unbound) := by
  induction rules generalizing s declared with
  | nil =>
    obtain ⟨-, rfl⟩ : [] = declared ∧ s = s' := by simpa [expandDeclared] using h
    exact ⟨by simp, id⟩
  | cons rule rules ih =>
    unfold expandDeclared at h
    split at h
    · cases h
    · rename_i hhead
      simp only [bind_eq_ok, pure_eq_ok] at h
      obtain ⟨⟨body, s₁⟩, hbody, ⟨rest, s₂⟩, hrest, heq⟩ := h
      obtain ⟨rfl, rfl⟩ := Prod.mk.inj heq
      obtain ⟨hitems, hunbound⟩ := Item.supported_of_expandAll rule.items hbody
      obtain ⟨hrules, hunbound'⟩ := ih hrest
      refine ⟨List.forall_mem_cons.mpr ⟨⟨?_, hitems⟩, hrules⟩, fun hs => hunbound' (hunbound hs)⟩
      simpa [IsReserved] using hhead

/-- **The first rule that cannot be expanded** is the one that is blamed. -/
theorem exists_of_expandDeclared_eq_error {rules : List Rule} {s : Expansion} {e : BuildError}
    (h : expandDeclared rules s = .error e) : ∃ before rule after, rules = before ++ rule :: after ∧
      (∀ earlier ∈ before, earlier.IsSupported) ∧
      (IsReserved rule.head ∧ e = .reservedName rule.head ∨ ¬ IsReserved rule.head ∧
        ∃ item op, Item.Within item rule.items ∧ item.Shows op ∧ e = .unsupportedOperator op) := by
  induction rules generalizing s with
  | nil => simp [expandDeclared] at h
  | cons rule rules ih =>
    unfold expandDeclared at h
    split at h
    · rename_i hhead
      cases h
      exact ⟨[], rule, rules, rfl, by simp, .inl ⟨by simpa [IsReserved] using hhead, rfl⟩⟩
    · rename_i hhead
      replace hhead : ¬ IsReserved rule.head := by simpa [IsReserved] using hhead
      simp only [bind_eq_error, pure_ne_error, and_false, exists_false, or_false] at h
      rcases h with h | ⟨⟨body, s'⟩, hbody, h⟩
      · exact ⟨[], rule, rules, rfl, by simp,
          .inr ⟨hhead, Item.exists_of_expandAll_eq_error rule.items h⟩⟩
      · obtain ⟨before, other, after, rfl, hbefore, hfault⟩ := ih h
        refine ⟨rule :: before, other, after, rfl, List.forall_mem_cons.mpr ⟨?_, hbefore⟩, hfault⟩
        exact ⟨hhead, (Item.supported_of_expandAll rule.items hbody).1⟩

theorem expandRules_eq_error {rules : List Rule} {e : BuildError} :
    expandRules rules = .error e ↔ expandDeclared rules {} = .error e := by
  simp only [expandRules, bind_eq_error, pure_ne_error, and_false, exists_false, or_false]

theorem supported_of_expandRules {rules : List Rule} {flat : List FlatRule}
    (h : expandRules rules = .ok flat) : ∀ rule ∈ rules, rule.IsSupported := by
  simp only [expandRules, bind_eq_ok, pure_eq_ok] at h
  obtain ⟨⟨declared, s⟩, hdeclared, -⟩ := h
  exact (supported_of_expandDeclared hdeclared).1

/-- **Rules are expanded** just if each of them can be. -/
theorem expandRules_isOk_iff {rules : List Rule} :
    (∃ flat, expandRules rules = .ok flat) ↔ ∀ rule ∈ rules, rule.IsSupported := by
  constructor
  · rintro ⟨flat, h⟩
    exact supported_of_expandRules h
  · intro hrules
    cases h : expandRules rules with
    | ok flat => exact ⟨flat, rfl⟩
    | error e =>
      obtain ⟨before, rule, after, rfl, -, hfault⟩ :=
        exists_of_expandDeclared_eq_error (expandRules_eq_error.mp h)
      obtain ⟨hhead, hitems⟩ := hrules rule (by simp)
      rcases hfault with ⟨hreserved, -⟩ | ⟨-, item, op, hitem, hshows, -⟩
      · exact absurd hreserved hhead
      · exact absurd hshows (hitems item hitem).not_shows

/-- **A plain rule with a binding** is the expansion of the declared rule with its number. -/
theorem exists_rule_of_expandRules {rules : List Rule} {flat : List FlatRule}
    (h : expandRules rules = .ok flat) {i : Nat} {flatRule : FlatRule}
    (hrule : flat[i]? = some flatRule) (hbinding : flatRule.binding ≠ none) :
    ∃ rule, rules[i]? = some rule ∧ rule.Becomes flatRule := by
  simp only [expandRules, bind_eq_ok, pure_eq_ok] at h
  obtain ⟨⟨declared, s⟩, hdeclared, rfl⟩ := h
  have hbecomes := (expandDeclared_eq_ok hdeclared).1
  have hunbound := (supported_of_expandDeclared hdeclared).2 (by simp [Expansion.Unbound])
  rcases Nat.lt_or_ge i declared.length with hi | hi
  · rw [List.getElem?_append_left hi] at hrule
    have hi' : i < rules.length := hbecomes.length_eq ▸ hi
    refine ⟨rules[i], List.getElem?_eq_getElem hi', ?_⟩
    obtain ⟨-, rfl⟩ := List.getElem?_eq_some_iff.mp hrule
    exact hbecomes.get hi' hi
  · rw [List.getElem?_append_right hi] at hrule
    exact absurd (hunbound flatRule (List.mem_of_getElem? hrule)) hbinding

/-- Each declared rule has a plain rule with its number. -/
theorem exists_flatRule_of_expandRules {rules : List Rule} {flat : List FlatRule}
    (h : expandRules rules = .ok flat) {i : Nat} {rule : Rule} (hrule : rules[i]? = some rule) :
    ∃ flatRule, flat[i]? = some flatRule ∧ rule.Becomes flatRule := by
  simp only [expandRules, bind_eq_ok, pure_eq_ok] at h
  obtain ⟨⟨declared, s⟩, hdeclared, rfl⟩ := h
  have hbecomes := (expandDeclared_eq_ok hdeclared).1
  obtain ⟨hi, rfl⟩ := List.getElem?_eq_some_iff.mp hrule
  have hi' : i < declared.length := hbecomes.length_eq ▸ hi
  refine ⟨declared[i], ?_, hbecomes.get hi hi'⟩
  rw [List.getElem?_append_left hi', List.getElem?_eq_getElem hi']

end PredictiveParsing
