import PredictiveParsing.Proofs.Grammar.Supported

/-!
# What the heads of plain rules stand for

A plain rule is made of a declared one, or it is one of those for a fresh name. The body of the
first kind stands for the items of the declared rule, with the same binding. The head of the second
kind stands for a repetition: one that some rule writes, or any number of rounds of what is repeated
at least once. So every head that has a rule stands for an item.

## Main definitions

* `Item.Repeats`: an item repeats what is repeated among some items
* `Expansion.Accounts`: the names that a stretch of an expansion draws stand for repetitions
* `Rule.Explains`: declared rules say what plain rules stand for

## Main results

* `Item.expandAll_accounts`: expanding items draws such names only
* `explains_of_expandRules`: rules explain their expansion
-/

namespace PredictiveParsing

namespace Item

variable {item : Item} {items items' inner : List Item} {low high low' high' : Bound}

/-- **An item repeats what is repeated among some items**, maybe within other bounds. -/
def Repeats (item : Item) (items : List Item) : Prop :=
  ∃ inner low high, item = repeated inner low high ∧ (low, high) ∈ supportedBounds ∧
    ∃ low' high', (repeated inner low' high').Within items

theorem Within.mono (h : item.Within items) (hsub : items ⊆ items') : item.Within items' := by
  cases h with
  | here h => exact .here (hsub h)
  | inside h hinner => exact .inside (hsub h) hinner

/-- What stands within an item that stands among some items stands among them, too. -/
theorem Within.trans {other : Item} (h : other.Within items) (hitem : item.Within other.inner) :
    item.Within items := by
  induction h with
  | here h => exact .inside h hitem
  | inside h _ ih => exact .inside h ih

theorem Repeats.mono (h : item.Repeats items) (hsub : items ⊆ items') : item.Repeats items' := by
  obtain ⟨inner, low, high, rfl, hbounds, low', high', hother⟩ := h
  exact ⟨inner, low, high, rfl, hbounds, low', high', hother.mono hsub⟩

theorem Repeats.self (hbounds : (low, high) ∈ supportedBounds) :
    (repeated inner low high).Repeats [repeated inner low' high'] :=
  ⟨inner, low, high, rfl, hbounds, low', high', .here List.mem_cons_self⟩

/-- What is repeated within a repetition is repeated where the repetition stands. -/
theorem Repeats.inside (h : item.Repeats inner) : item.Repeats [repeated inner low high] := by
  obtain ⟨items, low, high, rfl, hbounds, low', high', hother⟩ := h
  exact ⟨items, low, high, rfl, hbounds, low', high', .inside List.mem_cons_self hother⟩

/-- A repetition that can be expanded can be expanded within other bounds, too. -/
theorem AllSupported.rebound (h : AllSupported [repeated inner low high])
    (hbounds : (low', high') ∈ supportedBounds) : AllSupported [repeated inner low' high'] := by
  obtain ⟨hself, hinner, hnil⟩ := allSupported_cons.mp h
  cases hself with
  | repeated hne _ => exact allSupported_cons.mpr ⟨.repeated hne hbounds, hinner, hnil⟩

/-- An item that repeats what supported items do can be expanded. -/
theorem Repeats.allSupported (h : item.Repeats items) (hitems : AllSupported items) :
    AllSupported [item] := by
  obtain ⟨inner, low, high, rfl, hbounds, low', high', hwithin⟩ := h
  have hrepeated : AllSupported [repeated inner low' high'] :=
    allSupported_cons.mpr ⟨hitems _ hwithin, fun x hx => hitems x (hwithin.trans hx),
      fun x hx => (not_within_nil hx).elim⟩
  exact hrepeated.rebound hbounds

/-- All items of rules that can be expanded can be expanded. -/
theorem allSupported_flatMap {rules : List Rule}
    (h : ∀ rule ∈ rules, AllSupported rule.items) : AllSupported (rules.flatMap (·.items)) := by
  rintro item (hitem | ⟨hother, hinner⟩)
  · obtain ⟨rule, hrule, hitem⟩ := List.mem_flatMap.mp hitem
    exact h rule hrule item (.here hitem)
  · obtain ⟨rule, hrule, hother⟩ := List.mem_flatMap.mp hother
    exact h rule hrule item (.inside hother hinner)

end Item

/-! ## Names that are drawn -/

namespace Expansion

variable {s s' s'' : Expansion} {kind : String} {added more : List FlatRule}

/-- A stretch of an expansion adds one list of rules. -/
theorem Extends.unique (h : s.Extends s' added) (h' : s.Extends s' more) : added = more :=
  List.append_cancel_left (h.fresh.symm.trans h'.fresh)

/-- **The names that a stretch of an expansion draws** for items stand for what is repeated among
them. -/
def Accounts (s s' : Expansion) (items : List Item) : Prop :=
  ∃ added, s.Extends s' added ∧ ((∀ name ∈ Item.namesAll items, ¬ IsReserved name) →
    ∀ flat, Owns flat s.counter s'.counter added → ∀ rule ∈ added,
      ∃ item : Item, item.Repeats items ∧ Stands flat [item] [rule.head])

namespace Accounts

variable {items items' inner : List Item} {low high : Bound} {body : List String}

theorem refl (s : Expansion) (items : List Item) : s.Accounts s items :=
  ⟨[], .refl s, by simp⟩

theorem append (h : s.Accounts s' items) (h' : s'.Accounts s'' items') :
    s.Accounts s'' (items ++ items') := by
  obtain ⟨added, hext, hadded⟩ := h
  obtain ⟨more, hext', hmore⟩ := h'
  refine ⟨_, hext.trans hext', fun hnames flat howns rule hrule => ?_⟩
  obtain ⟨howns, howns'⟩ := hext.owns_append hext' howns
  rw [Item.namesAll_append, List.forall_mem_append] at hnames
  rcases List.mem_append.mp hrule with hrule | hrule
  · obtain ⟨other, hother, hstands⟩ := hadded hnames.1 flat howns rule hrule
    exact ⟨other, hother.mono (List.subset_append_left _ _), hstands⟩
  · obtain ⟨other, hother, hstands⟩ := hmore hnames.2 flat howns' rule hrule
    exact ⟨other, hother.mono (List.subset_append_right _ _), hstands⟩

/-- A name that is drawn for a repetition stands for it. -/
theorem wrap (hkind : kind ∈ kinds) (h : (s.draw kind).2.Accounts s' inner)
    (hitem : s.Provides s'' [.repeated items low high] [(s.draw kind).1])
    (hbounds : (low, high) ∈ Item.supportedBounds) (bodies : List (List String))
    (hfresh : s''.fresh = s'.fresh ++ rulesOf (s.draw kind).1 bodies)
    (hcounter : s''.counter = s'.counter)
    (hnames : ∀ name ∈ Item.namesAll inner, name ∈ Item.namesAll items)
    (hinner : ∀ other : Item, other.Repeats inner → other.Repeats [.repeated items low high]) :
    s.Accounts s'' [.repeated items low high] := by
  obtain ⟨added, hext, hadded⟩ := h
  obtain ⟨all, hext', hstands⟩ := hitem
  obtain rfl := hext'.unique (hext.wrap hkind hfresh hcounter)
  refine ⟨_, hext', fun hreserved flat howns rule hrule => ?_⟩
  have hself := hstands hreserved flat howns
  rw [hcounter] at howns
  obtain ⟨howns, -⟩ := hext.owns_wrap hkind howns
  simp only [Item.namesAll, Item.names, List.append_nil] at hreserved
  rcases List.mem_append.mp hrule with hrule | hrule
  · obtain ⟨other, hother, hstands⟩ :=
      hadded (fun name hname => hreserved name (hnames name hname)) flat howns rule hrule
    exact ⟨other, hinner other hother, hstands⟩
  · obtain ⟨body, -, rfl⟩ := List.mem_map.mp hrule
    exact ⟨_, .self hbounds, hself⟩

theorem anyNumber (h : (s.draw "Repeat").2.Accounts s' inner)
    (hbody : (s.draw "Repeat").2.Provides s' inner body) :
    s.Accounts ((s'.add (s.draw "Repeat").1 (body ++ [(s.draw "Repeat").1])).add
      (s.draw "Repeat").1 []) [.repeated inner (.finite 0) .infinite] :=
  h.wrap (by decide) hbody.anyNumber (by decide) [body ++ [(s.draw "Repeat").1], []]
    (by simp [add, rulesOf]) rfl (fun _ hname => hname) fun _ hother => hother.inside

theorem optional (h : (s.draw "Optional").2.Accounts s' inner)
    (hbody : (s.draw "Optional").2.Provides s' inner body) :
    s.Accounts ((s'.add (s.draw "Optional").1 body).add (s.draw "Optional").1 [])
      [.repeated inner (.finite 0) (.finite 1)] :=
  h.wrap (by decide) hbody.optional (by decide) [body, []] (by simp [add, rulesOf]) rfl
    (fun _ hname => hname) fun _ hother => hother.inside

theorem atLeastOne {more : String}
    (hmore : (s.draw "Repeat").2.Accounts s' [.repeated inner (.finite 0) .infinite])
    (hmore' : (s.draw "Repeat").2.Provides s' [.repeated inner (.finite 0) .infinite] [more])
    (h : s'.Accounts s'' inner) (hbody : s'.Provides s'' inner body) :
    s.Accounts (s''.add (s.draw "Repeat").1 (body ++ [more]))
      [.repeated inner (.finite 1) .infinite] := by
  refine (hmore.append h).wrap (by decide) (hmore'.atLeastOne hbody) (by decide) [body ++ [more]]
    (by simp [add, rulesOf]) rfl (fun name hname => ?_) fun other hother => ?_
  · simpa [Item.names, Item.namesAll] using hname
  · obtain ⟨items, low, high, rfl, hbounds, low', high', hwithin⟩ := hother
    rcases Item.within_cons.mp hwithin with heq | hwithin | hwithin
    · cases heq
      exact .self hbounds
    · exact .inside ⟨items, low, high, rfl, hbounds, low', high', hwithin⟩
    · exact .inside ⟨items, low, high, rfl, hbounds, low', high', hwithin⟩

end Accounts

end Expansion

theorem Expansion.keeps_accounts :
    Keeps fun s s' items names => s.Accounts s' items ∧ s.Provides s' items names where
  nil s := ⟨.refl s [], .nil s⟩
  symbol s name := ⟨.refl s _, .symbol s name⟩
  cons hfirst hrest := ⟨hfirst.1.append hrest.1, hfirst.2.cons hrest.2⟩
  anyNumber _ h := ⟨h.1.anyNumber h.2, h.2.anyNumber⟩
  optional _ h := ⟨h.1.optional h.2, h.2.optional⟩
  atLeastOne _ hmore h := ⟨hmore.1.atLeastOne hmore.2 h.1 h.2, hmore.2.atLeastOne h.2⟩

/-- **Expanding items draws only names for repetitions** among them. -/
theorem Item.expandAll_accounts {s s' : Expansion} {names : List String} (items : List Item)
    (h : Item.expandAll items s = .ok (names, s')) : s.Accounts s' items :=
  (Item.expandAll_induction Expansion.keeps_accounts items h).1

/-! ## Rules -/

/-- The names that are drawn while rules are expanded stand for repetitions in them. -/
theorem accounts_of_expandDeclared {rules : List Rule} {s s' : Expansion}
    {declared : List FlatRule} (h : expandDeclared rules s = .ok (declared, s')) :
    s.Accounts s' (rules.flatMap (·.items)) :=
  Item.expandAll_accounts _ (expandAll_of_expandDeclared h)

/-- **Declared rules say what plain rules stand for.** -/
structure Rule.Explains (rules : List Rule) (flat : List FlatRule) : Prop where
  /-- A rule for a name that is not reserved is made of a declared one. -/
  declared : ∀ flatRule ∈ flat, ¬ IsReserved flatRule.head → ∃ rule ∈ rules,
    rule.Becomes flatRule ∧ Stands flat rule.items flatRule.body
  /-- A rule for a reserved name has no binding. -/
  unbound : ∀ flatRule ∈ flat, IsReserved flatRule.head → flatRule.binding = none
  /-- A reserved name that has a rule stands for a repetition. -/
  reserved : ∀ flatRule ∈ flat, IsReserved flatRule.head → ∃ item : Item,
    item.Repeats (rules.flatMap (·.items)) ∧ Stands flat [item] [flatRule.head]

/-- Declared rules are not for fresh names. -/
theorem owns_of_declared {declared added : List FlatRule} {low high : Nat}
    (hheads : ∀ flatRule ∈ declared, ¬ IsReserved flatRule.head) :
    Owns (declared ++ added) low high added := by
  intro name hname
  have hnil : FlatRule.bodiesOf declared name = [] := by
    rw [FlatRule.bodiesOf_eq_nil]
    intro hmem
    obtain ⟨flatRule, hflatRule, rfl⟩ := List.mem_map.mp hmem
    exact hheads flatRule hflatRule hname.isReserved
  rw [FlatRule.bodiesOf_append, hnil, List.nil_append]

/-- **Rules explain their expansion**, unless they write reserved names. -/
theorem explains_of_expandRules {rules : List Rule} {flat : List FlatRule}
    (h : expandRules rules = .ok flat)
    (hnames : ∀ rule ∈ rules, ∀ name ∈ Item.namesAll rule.items, ¬ IsReserved name) :
    Rule.Explains rules flat := by
  simp only [expandRules, bind_eq_ok, pure_eq_ok] at h
  obtain ⟨⟨declared, s⟩, hdeclared, rfl⟩ := h
  obtain ⟨hbecomes, hheads, added, hext, hstands⟩ := expandDeclared_eq_ok hdeclared
  obtain ⟨added', hext', haccounts⟩ := accounts_of_expandDeclared hdeclared
  obtain rfl := hext'.unique hext
  obtain rfl : s.fresh = added' := by simpa using hext.fresh
  have hdeclared' : ∀ flatRule ∈ declared, ¬ IsReserved flatRule.head := by
    intro flatRule hflatRule
    obtain ⟨rule, hrule, hb⟩ := exists_of_mem_right hbecomes hflatRule
    exact hb.head_eq ▸ hheads rule hrule
  have howns : Owns (declared ++ s.fresh) 0 s.counter s.fresh := owns_of_declared hdeclared'
  have hnames' := Item.forall_mem_namesAll_flatMap.mpr hnames
  constructor
  · intro flatRule hflatRule hreserved
    rcases List.mem_append.mp hflatRule with hflatRule | hflatRule
    · exact exists_of_mem_right (hstands hnames _ howns) hflatRule
    · exact absurd (hext.drawn flatRule hflatRule).isReserved hreserved
  · intro flatRule hflatRule hreserved
    rcases List.mem_append.mp hflatRule with hflatRule | hflatRule
    · exact absurd hreserved (hdeclared' flatRule hflatRule)
    · exact (supported_of_expandDeclared hdeclared).2 (by simp [Expansion.Unbound]) _ hflatRule
  · intro flatRule hflatRule hreserved
    rcases List.mem_append.mp hflatRule with hflatRule | hflatRule
    · exact absurd hreserved (hdeclared' flatRule hflatRule)
    · exact haccounts hnames' _ howns flatRule hflatRule

end PredictiveParsing
