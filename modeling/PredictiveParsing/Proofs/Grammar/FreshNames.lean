import Mathlib.Data.List.Nodup
import PredictiveParsing.Proofs.Grammar.Expansion

/-!
# Fresh nonterminals are kept apart

Each operator that is expanded draws a name of its own and gets the rules for that name, all of
them at once: two if the rounds may be missing, the second one for no round at all, and one if there
has to be a first round. Items that are repeated at least once are expanded twice, and so are the
operators inside of them, each time with other names. A fresh name is put in the place of one item,
so besides its own rules it occurs once, in a declared rule or in one for another fresh name.

Names are drawn before the operators inside are expanded, and rules are added after theirs; so the
groups of rules are listed from the inside out, and their names are told apart by the ranges of
numbers that the stretches of an expansion draw from.

## Main definitions

* `FreshGroup`: a fresh name with its bodies
* `Unfolds`: items are unfolded into names, with a group for each operator that is expanded
* `Expansion.Makes`: the groups that a stretch of an expansion makes
* `FreshGroup.IsApart`: a group is kept apart from everything else

## Main results

* `Item.expandAll_makes`: expanding items makes a group with a new name for each operator
* `Unfolds.count_add_count`: how often a fresh name occurs outside its own group
* `freshGroups_apart`: fresh nonterminals never collide or mix
-/

namespace PredictiveParsing

/-! ## Groups of rules -/

/-- **A fresh name with its bodies.** -/
structure FreshGroup where
  /-- The name. -/
  name : String
  /-- The bodies of its rules, in order. -/
  bodies : List (List String)
deriving DecidableEq

/-- The rules of a group. -/
def FreshGroup.rules (group : FreshGroup) : List FlatRule :=
  Expansion.rulesOf group.name group.bodies

/-- **Items are unfolded into names**, one for each item, with a group of rules for each operator
that is expanded. The groups of the operators inside come first. -/
inductive Unfolds : List Item → List String → List FreshGroup → Prop
  | nil : Unfolds [] [] []
  /-- Items are unfolded one after the other. -/
  | append {items items' : List Item} {names names' : List String}
      {groups groups' : List FreshGroup} (h : Unfolds items names groups)
      (h' : Unfolds items' names' groups') :
      Unfolds (items ++ items') (names ++ names') (groups ++ groups')
  /-- A symbol is its own name. -/
  | symbol (name : String) : Unfolds [.symbol name] [name] []
  /-- A round and further rounds, or none. -/
  | anyNumber (name : String) {inner : List Item} {body : List String}
      {groups : List FreshGroup} (hne : inner ≠ []) (h : Unfolds inner body groups) :
      Unfolds [.anyNumber inner] [name] (groups ++ [⟨name, [body ++ [name], []]⟩])
  /-- One round or none. -/
  | optional (name : String) {inner : List Item} {body : List String} {groups : List FreshGroup}
      (hne : inner ≠ []) (h : Unfolds inner body groups) :
      Unfolds [.optional inner] [name] (groups ++ [⟨name, [body, []]⟩])
  /-- The first round, and any number of further ones; what is repeated is unfolded twice. -/
  | atLeastOne (name : String) {inner : List Item} {more : String} {body : List String}
      {groups groups' : List FreshGroup} (hne : inner ≠ [])
      (hmore : Unfolds [.anyNumber inner] [more] groups) (h : Unfolds inner body groups') :
      Unfolds [.atLeastOne inner] [name] (groups ++ groups' ++ [⟨name, [body ++ [more]]⟩])

namespace Unfolds

variable {items : List Item} {names : List String} {groups : List FreshGroup}

theorem length_eq (h : Unfolds items names groups) : names.length = items.length := by
  induction h with
  | append _ _ ih ih' => simp [ih, ih']
  | _ => rfl

/-- **A group has two bodies, the second one empty, or a single one** that is not empty. -/
theorem bodies_eq (h : Unfolds items names groups) : ∀ group ∈ groups,
    ∃ body, body ≠ [] ∧ (group.bodies = [body, []] ∨ group.bodies = [body]) := by
  induction h with
  | nil => simp
  | symbol => simp
  | append _ _ ih ih' => exact List.forall_mem_append.mpr ⟨ih, ih'⟩
  | anyNumber name hne _ ih =>
    exact List.forall_mem_append.mpr ⟨ih, by simp⟩
  | optional name hne h ih =>
    have hbody := List.length_pos_iff.mp (h.length_eq ▸ List.length_pos_iff.mpr hne)
    exact List.forall_mem_append.mpr ⟨ih, by simp [hbody]⟩
  | atLeastOne name hne _ _ ih ih' =>
    exact List.forall_mem_append.mpr ⟨List.forall_mem_append.mpr ⟨ih, ih'⟩, by simp⟩

end Unfolds

/-! ## How often a name is used -/

namespace FreshGroup

variable {groups : List FreshGroup} {group : FreshGroup} {n : String}

/-- The names in the bodies of all groups but those of one name. -/
def usesBeside (groups : List FreshGroup) (n : String) : List String :=
  (groups.filter (·.name != n)).flatMap (·.bodies.flatten)

theorem usesBeside_append (groups groups' : List FreshGroup) (n : String) :
    usesBeside (groups ++ groups') n = usesBeside groups n ++ usesBeside groups' n := by
  simp [usesBeside]

theorem usesBeside_self (group : FreshGroup) : usesBeside [group] group.name = [] := by
  simp [usesBeside]

theorem usesBeside_of_ne (h : group.name ≠ n) : usesBeside [group] n = group.bodies.flatten := by
  simp [usesBeside, h]

/-- A group that is added uses the names that have been put in for what its operator repeats, and
perhaps its own. So if those are used once, its own name is, too. -/
theorem count_add_count_concat {body : List String}
    (honce : ((groups ++ [group]).map FreshGroup.name).count n ≤ 1)
    (hinner : (groups.map FreshGroup.name).count n ≤ 1 →
      body.count n + (usesBeside groups n).count n = (groups.map FreshGroup.name).count n)
    (hbodies : group.name ≠ n → group.bodies.flatten.count n = body.count n) :
    [group.name].count n + (usesBeside (groups ++ [group]) n).count n =
      ((groups ++ [group]).map FreshGroup.name).count n := by
  simp only [List.map_append, List.map_cons, List.map_nil, List.count_append] at honce ⊢
  rw [usesBeside_append, List.count_append]
  by_cases hname : group.name = n
  · subst hname
    -- no group inside has this name, so nothing inside uses it
    rw [List.count_singleton_self] at honce ⊢
    rw [usesBeside_self, List.count_nil]
    have hzero := hinner (by omega)
    omega
  · rw [usesBeside_of_ne hname, hbodies hname]
    rw [List.count_singleton, if_neg (by simpa using hname)] at honce ⊢
    have hsum := hinner (by omega)
    omega

end FreshGroup

/-- **A fresh name is used once outside its own group**: in the place of the item for which it was
drawn. -/
theorem Unfolds.count_add_count {items : List Item} {names : List String}
    {groups : List FreshGroup} (h : Unfolds items names groups)
    (hnames : ∀ name ∈ Item.namesAll items, ¬ IsReserved name) {n : String} (hn : IsReserved n)
    (honce : (groups.map FreshGroup.name).count n ≤ 1) :
    names.count n + (FreshGroup.usesBeside groups n).count n =
      (groups.map FreshGroup.name).count n := by
  induction h with
  | nil => rfl
  | symbol name =>
    have hne : name ≠ n := by
      rintro rfl
      exact hnames name (by simp [Item.namesAll, Item.names]) hn
    simp [hne, FreshGroup.usesBeside]
  | append h h' ih ih' =>
    rw [Item.namesAll_append, List.forall_mem_append] at hnames
    simp only [List.map_append, List.count_append, FreshGroup.usesBeside_append] at honce ⊢
    have hfirst := ih hnames.1 (by omega)
    have hrest := ih' hnames.2 (by omega)
    omega
  | anyNumber name hne h ih =>
    simp only [Item.anyNumber, Item.namesAll_repeated] at hnames
    refine FreshGroup.count_add_count_concat honce (ih hnames) fun hname => ?_
    simp [hname]
  | optional name hne h ih =>
    simp only [Item.optional, Item.namesAll_repeated] at hnames
    refine FreshGroup.count_add_count_concat honce (ih hnames) fun hname => ?_
    simp
  | atLeastOne name hne hmore h ih ih' =>
    simp only [Item.anyNumber, Item.atLeastOne, Item.namesAll_repeated] at hnames ih
    -- both times what is repeated is unfolded it uses the names that are drawn for it
    refine FreshGroup.count_add_count_concat honce (fun honce => ?_) fun hname =>
      congrArg (List.count n) List.flatten_singleton
    simp only [List.map_append, List.count_append, FreshGroup.usesBeside_append] at honce ⊢
    have hfurther := ih hnames (by omega)
    have hfirst := ih' hnames (by omega)
    omega

/-! ## The groups that are made -/

namespace Expansion

variable {s s' s'' : Expansion} {groups groups' : List FreshGroup} {kind : String}

/-- **The groups that a stretch of an expansion makes**: it adds their rules, in order, and all of
them have different names, drawn in this stretch. -/
structure Makes (s s' : Expansion) (groups : List FreshGroup) : Prop where
  /-- The rules of the groups are added. -/
  adds : s.Extends s' (groups.flatMap FreshGroup.rules)
  /-- Their names are drawn. -/
  drawn : ∀ group ∈ groups, Drawn s.counter s'.counter group.name
  /-- No two groups have one name. -/
  nodup : (groups.map FreshGroup.name).Nodup

namespace Makes

theorem refl (s : Expansion) : s.Makes s [] := ⟨.refl s, by simp, .nil⟩

theorem trans (h : s.Makes s' groups) (h' : s'.Makes s'' groups') :
    s.Makes s'' (groups ++ groups') where
  adds := by
    rw [List.flatMap_append]
    exact h.adds.trans h'.adds
  drawn := by
    refine List.forall_mem_append.mpr ⟨fun group hgroup => ?_, fun group hgroup => ?_⟩
    · exact (h.drawn group hgroup).mono (Nat.le_refl _) h'.adds.counter_le
    · exact (h'.drawn group hgroup).mono h.adds.counter_le (Nat.le_refl _)
  nodup := by
    rw [List.map_append]
    refine List.Nodup.append h.nodup h'.nodup fun name hname hname' => ?_
    obtain ⟨group, hgroup, rfl⟩ := List.mem_map.mp hname
    obtain ⟨group', hgroup', heq⟩ := List.mem_map.mp hname'
    exact (h.drawn group hgroup).disjoint (heq ▸ h'.drawn group' hgroup')

/-- **A name is drawn before a stretch**, and its group is made after it. -/
theorem wrap (hkind : kind ∈ kinds) (h : (s.draw kind).2.Makes s' groups)
    (bodies : List (List String))
    (hfresh : s''.fresh = s'.fresh ++ rulesOf (s.draw kind).1 bodies)
    (hcounter : s''.counter = s'.counter) :
    s.Makes s'' (groups ++ [⟨(s.draw kind).1, bodies⟩]) := by
  have hle : s.counter < s'.counter := h.adds.counter_le
  have hfirst : Drawn s.counter (s.counter + 1) (s.draw kind).1 :=
    .nameOf hkind (Nat.le_refl _) (Nat.lt_succ_self _)
  constructor
  case adds =>
    rw [List.flatMap_append, List.flatMap_singleton]
    exact h.adds.wrap hkind hfresh hcounter
  case drawn =>
    rw [hcounter]
    refine List.forall_mem_append.mpr ⟨fun group hgroup => ?_, List.forall_mem_singleton.mpr ?_⟩
    · exact (h.drawn group hgroup).mono (Nat.le_succ _) (Nat.le_refl _)
    · exact hfirst.mono (Nat.le_refl _) hle
  case nodup =>
    rw [List.map_append]
    refine List.Nodup.append h.nodup (List.nodup_singleton _) fun name hname hname' => ?_
    obtain ⟨group, hgroup, rfl⟩ := List.mem_map.mp hname
    rw [List.map_singleton, List.mem_singleton] at hname'
    exact hfirst.disjoint (hname' ▸ h.drawn group hgroup)

end Makes

theorem keeps_makes : Keeps fun s s' items names =>
    ∃ groups, Unfolds items names groups ∧ s.Makes s' groups where
  nil s := ⟨[], .nil, .refl s⟩
  symbol s name := ⟨[], .symbol name, .refl s⟩
  cons hfirst hrest := by
    obtain ⟨groups, hunfolds, hmakes⟩ := hfirst
    obtain ⟨groups', hunfolds', hmakes'⟩ := hrest
    exact ⟨_, hunfolds.append hunfolds', hmakes.trans hmakes'⟩
  anyNumber hne hinner := by
    obtain ⟨groups, hunfolds, hmakes⟩ := hinner
    exact ⟨_, .anyNumber _ hne hunfolds,
      hmakes.wrap (by decide) _ (by simp [add, rulesOf]) rfl⟩
  optional hne hinner := by
    obtain ⟨groups, hunfolds, hmakes⟩ := hinner
    exact ⟨_, .optional _ hne hunfolds, hmakes.wrap (by decide) _ (by simp [add, rulesOf]) rfl⟩
  atLeastOne hne hmore hinner := by
    obtain ⟨groups, hunfolds, hmakes⟩ := hmore
    obtain ⟨groups', hunfolds', hmakes'⟩ := hinner
    exact ⟨_, .atLeastOne _ hne hunfolds hunfolds',
      (hmakes.trans hmakes').wrap (by decide) _ (by simp [add, rulesOf]) rfl⟩

end Expansion

/-- **Expanding items makes a group with a new name for each operator.** -/
theorem Item.expandAll_makes {s s' : Expansion} {names : List String} (items : List Item)
    (h : Item.expandAll items s = .ok (names, s')) :
    ∃ groups, Unfolds items names groups ∧ s.Makes s' groups :=
  Item.expandAll_induction Expansion.keeps_makes items h

/-! ## Groups among plain rules -/

namespace FreshGroup

variable {groups : List FreshGroup} {group : FreshGroup} {n : String}

theorem filter_rules_self (group : FreshGroup) :
    group.rules.filter (·.head == group.name) = group.rules := by
  simp [rules, Expansion.rulesOf]

theorem filter_rules_of_ne (h : group.name ≠ n) : group.rules.filter (·.head == n) = [] := by
  simp [rules, Expansion.rulesOf, h]

/-- If no two groups have one name, all rules of a name are those of its group. -/
theorem filter_flatMap_rules (hnodup : (groups.map FreshGroup.name).Nodup)
    (hgroup : group ∈ groups) :
    (groups.flatMap rules).filter (·.head == group.name) = group.rules := by
  induction groups with
  | nil => cases hgroup
  | cons first groups ih =>
    rw [List.map_cons, List.nodup_cons] at hnodup
    rw [List.flatMap_cons, List.filter_append]
    rcases List.mem_cons.mp hgroup with rfl | hgroup
    · have hrest : (groups.flatMap rules).filter (·.head == group.name) = [] := by
        rw [List.filter_flatMap, List.flatMap_eq_nil_iff]
        exact fun other hother => filter_rules_of_ne fun heq =>
          hnodup.1 (heq ▸ List.mem_map_of_mem hother)
      rw [filter_rules_self, hrest, List.append_nil]
    · have hne : first.name ≠ group.name := fun heq =>
        hnodup.1 (heq ▸ List.mem_map_of_mem hgroup)
      rw [filter_rules_of_ne hne, ih hnodup.2 hgroup, List.nil_append]

/-- The bodies of the rules beside a group are those of the other groups. -/
theorem flatMap_body_rules (groups : List FreshGroup) (n : String) :
    ((groups.flatMap rules).filter (·.head != n)).flatMap (·.body) = usesBeside groups n := by
  induction groups with
  | nil => rfl
  | cons first groups ih =>
    rw [List.flatMap_cons, List.filter_append, List.flatMap_append, ih,
      ← List.singleton_append, usesBeside_append]
    congr 1
    by_cases hname : first.name = n
    · subst hname
      simp [usesBeside_self, rules, Expansion.rulesOf]
    · have hfilter : first.rules.filter (·.head != n) = first.rules := by
        simpa [rules, Expansion.rulesOf] using fun _ _ => hname
      rw [usesBeside_of_ne hname, hfilter, rules, Expansion.rulesOf, List.flatMap_map]
      exact List.flatMap_id

/-- **A group is kept apart** from everything else among the plain rules of declared ones. -/
structure IsApart (declared : List Rule) (flat : List FlatRule) (group : FreshGroup) : Prop where
  /-- The name is one that is kept for fresh nonterminals. -/
  reserved : IsReserved group.name
  /-- No rule is declared for it. -/
  undeclared : group.name ∉ declared.map (·.head)
  /-- It has two bodies, the second one empty, or a single one, which is not. -/
  bodies_eq : ∃ body, body ≠ [] ∧ (group.bodies = [body, []] ∨ group.bodies = [body])
  /-- The rules of the group are all rules for its name. -/
  owned : flat.filter (·.head == group.name) = group.rules
  /-- None of them has a binding. -/
  unbound : ∀ rule ∈ group.rules, rule.binding = none
  /-- The name stands in one place outside the rules for it. -/
  used_once : ((flat.filter (·.head != group.name)).flatMap (·.body)).count group.name = 1

end FreshGroup

/-- **Fresh nonterminals never collide or mix**, if no item of a rule writes one of the names that
are kept for them. The plain rules are those for the declared ones, in order, and then the groups of
fresh names, each group in one piece. There is one group for each operator that is expanded, those
in items that are expanded twice counted twice. No two groups have one name, and each of them is
kept apart. -/
theorem freshGroups_apart {rules : List Rule} {flat : List FlatRule}
    (h : expandRules rules = .ok flat)
    (hnames : ∀ rule ∈ rules, ∀ name ∈ Item.namesAll rule.items, ¬ IsReserved name) :
    ∃ declared groups, flat = declared ++ groups.flatMap FreshGroup.rules ∧
      List.Forall₂ Rule.Becomes rules declared ∧
      Unfolds (rules.flatMap (·.items)) (declared.flatMap (·.body)) groups ∧
      (groups.map FreshGroup.name).Nodup ∧
      ∀ group ∈ groups, group.IsApart rules flat := by
  simp only [expandRules, bind_eq_ok, pure_eq_ok] at h
  obtain ⟨⟨declared, s⟩, hdeclared, rfl⟩ := h
  obtain ⟨hbecomes, hheads, -⟩ := expandDeclared_eq_ok hdeclared
  obtain ⟨groups, hunfolds, hmakes⟩ :=
    Item.expandAll_makes _ (expandAll_of_expandDeclared hdeclared)
  have hfresh : s.fresh = groups.flatMap FreshGroup.rules := by simpa using hmakes.adds.fresh
  rw [hfresh]
  refine ⟨declared, groups, rfl, hbecomes, hunfolds, hmakes.nodup, fun group hgroup => ?_⟩
  have hreserved : IsReserved group.name := (hmakes.drawn group hgroup).isReserved
  have hne : ∀ flatRule ∈ declared, flatRule.head ≠ group.name := by
    intro flatRule hflatRule heq
    obtain ⟨rule, hrule, hb⟩ := exists_of_mem_right hbecomes hflatRule
    exact hheads rule hrule (hb.head_eq ▸ heq ▸ hreserved)
  constructor
  case reserved => exact hreserved
  case undeclared =>
    intro hmem
    obtain ⟨rule, hrule, heq⟩ := List.mem_map.mp hmem
    exact hheads rule hrule (heq ▸ hreserved)
  case bodies_eq => exact hunfolds.bodies_eq group hgroup
  case owned =>
    have hnil : declared.filter (·.head == group.name) = [] := by simpa using hne
    rw [List.filter_append, hnil, List.nil_append,
      FreshGroup.filter_flatMap_rules hmakes.nodup hgroup]
  case unbound =>
    intro rule hrule
    obtain ⟨body, -, rfl⟩ := List.mem_map.mp hrule
    rfl
  case used_once =>
    have hall : declared.filter (·.head != group.name) = declared := by simpa using hne
    have hone : (groups.map FreshGroup.name).count group.name = 1 :=
      List.count_eq_one_of_mem hmakes.nodup (List.mem_map_of_mem hgroup)
    rw [List.filter_append, hall, List.flatMap_append, List.count_append,
      FreshGroup.flatMap_body_rules]
    have huses := hunfolds.count_add_count (Item.forall_mem_namesAll_flatMap.mpr hnames) hreserved
      (Nat.le_of_eq hone)
    exact huses.trans hone

/-- The first round of `a` and the rounds of `b` behind it have other names than the further rounds
of `a` and those of `b` within them. -/
theorem freshGroups_apart_rounds : ∃ flat, expandRules Samples.rounds = .ok flat ∧
    (∀ rule ∈ Samples.rounds, ∀ name ∈ Item.namesAll rule.items, ¬ IsReserved name) ∧
    (flat.map (·.head)).eraseDups = ["Groups", "_anon_Repeat2", "_anon_Repeat1", "_anon_Repeat3",
      "_anon_Repeat0", "_anon_Optional4"] ∧
    ∃ (declared : List FlatRule) (groups : List FreshGroup),
      flat = declared ++ groups.flatMap FreshGroup.rules ∧ declared.length = 1 ∧
      (groups.map FreshGroup.name).Nodup ∧ ∀ group ∈ groups, group.IsApart Samples.rounds flat := by
  have hrun : ((expandRules Samples.rounds).toOption.map fun flat =>
      (flat.map (·.head)).eraseDups) = some ["Groups", "_anon_Repeat2", "_anon_Repeat1",
        "_anon_Repeat3", "_anon_Repeat0", "_anon_Optional4"] := by
    decide +kernel
  simp only [Option.map_eq_some_iff, toOption_eq_some] at hrun
  obtain ⟨flat, hflat, hheads⟩ := hrun
  have hnames : ∀ rule ∈ Samples.rounds, ∀ name ∈ Item.namesAll rule.items, ¬ IsReserved name := by
    decide
  obtain ⟨declared, groups, heq, hbecomes, -, hnodup, hapart⟩ := freshGroups_apart hflat hnames
  exact ⟨flat, hflat, hnames, hheads, declared, groups, heq, hbecomes.length_eq.symm, hnodup,
    hapart⟩

end PredictiveParsing
