import PredictiveParsing.Pattern.Engine
import PredictiveParsing.Proofs.Grammar.Build
import PredictiveParsing.Proofs.Grammar.Expansion

/-!
# What written names are resolved to

Names are resolved after the expansion of repetitions, against the declared names and the fresh
ones alike. A declared head must not be reserved, so no fresh name is declared. But nothing keeps a
rule from writing a reserved name, and if a name is drawn that is spelled the same, the rule has
borrowed a nonterminal that belongs to a repetition.

## Main definitions

* `Declarations.Writes`, `Declarations.Declares`: the names in rules, and the declared names
* `Expansion.Carries`: the names of items, among those that an expansion produces
* `Declarations.Denotes`: what a name is resolved to

## Main results

* `Item.expandAll_carries`: an expansion keeps all names of the items, and adds only fresh ones
* `Declarations.written_names`: the names of rules and the start are declared or borrowed, and
  declarations with others are rejected
-/

namespace PredictiveParsing

/-! ## Names in an expansion -/

/-- The names that occur in names for items, or in plain rules. -/
def FlatRule.Mentions (names : List String) (rules : List FlatRule) (name : String) : Prop :=
  name ∈ names ∨ ∃ rule ∈ rules, name ∈ rule.body

theorem FlatRule.mentions_append {names names' : List String} {rules rules' : List FlatRule}
    {name : String} : Mentions (names ++ names') (rules ++ rules') name ↔
      Mentions names rules name ∨ Mentions names' rules' name := by
  simp only [Mentions, List.mem_append, or_and_right, exists_or]
  rw [or_or_or_comm]

namespace Expansion

open FlatRule (Mentions)

/-- **The names of items in their expansion**: all of them are mentioned, and all that is mentioned
is among them or fresh. -/
structure Carries (s s' : Expansion) (written names : List String) (added : List FlatRule) :
    Prop where
  fresh : s'.fresh = s.fresh ++ added
  kept : ∀ name ∈ written, Mentions names added name
  origin : ∀ name, Mentions names added name → name ∈ written ∨ name ∈ added.map (·.head)

namespace Carries

variable {s s' s'' : Expansion} {written written' names names' body : List String}
  {added more : List FlatRule}

theorem refl (s : Expansion) (names : List String) : Carries s s names names [] where
  fresh := (List.append_nil _).symm
  kept _ hname := .inl hname
  origin name h := by
    rcases h with h | ⟨rule, hrule, -⟩
    · exact .inl h
    · cases hrule

theorem append (h : Carries s s' written names added) (h' : Carries s' s'' written' names' more) :
    Carries s s'' (written ++ written') (names ++ names') (added ++ more) where
  fresh := by rw [h'.fresh, h.fresh, List.append_assoc]
  kept name hname := by
    rw [FlatRule.mentions_append]
    exact (List.mem_append.mp hname).imp (h.kept name) (h'.kept name)
  origin name hname := by
    simp only [List.mem_append, List.map_append]
    rcases FlatRule.mentions_append.mp hname with hname | hname
    · exact (h.origin name hname).imp .inl .inl
    · exact (h'.origin name hname).imp .inr .inr

/-- The names of items come to stand in the rules of a fresh name. -/
theorem wrap {fresh : String} {bodies : List (List String)}
    (h : Carries s s' written body added)
    (hfresh : s''.fresh = s'.fresh ++ rulesOf fresh bodies)
    (hkept : ∃ b ∈ bodies, body ⊆ b) (horigin : ∀ b ∈ bodies, b ⊆ fresh :: body) :
    Carries s s'' written [fresh] (added ++ rulesOf fresh bodies) where
  fresh := by rw [hfresh, h.fresh, List.append_assoc]
  kept name hname := by
    right
    rcases h.kept name hname with hmem | ⟨rule, hrule, hbody⟩
    · obtain ⟨b, hb, hsub⟩ := hkept
      exact ⟨_, List.mem_append_right _ (List.mem_map_of_mem hb), hsub hmem⟩
    · exact ⟨rule, List.mem_append_left _ hrule, hbody⟩
  origin name hname := by
    rw [List.map_append, List.mem_append]
    have hhead : fresh ∈ (rulesOf fresh bodies).map (·.head) := by
      obtain ⟨b, hb, -⟩ := hkept
      exact List.mem_map_of_mem (List.mem_map_of_mem hb)
    have hbefore : name = fresh ∨ Mentions body added name := by
      rcases hname with hname | ⟨rule, hrule, hbody⟩
      · exact .inl (List.mem_singleton.mp hname)
      · rcases List.mem_append.mp hrule with hrule | hrule
        · exact .inr (.inr ⟨rule, hrule, hbody⟩)
        · obtain ⟨b, hb, rfl⟩ := List.mem_map.mp hrule
          exact (List.mem_cons.mp (horigin b hb hbody)).imp_right .inl
    rcases hbefore with rfl | hname
    · exact .inr (.inr hhead)
    · exact (h.origin name hname).imp_right .inl

theorem anyNumber (h : Carries (s.draw "Repeat").2 s' written body added) :
    Carries s ((s'.add (s.draw "Repeat").1 (body ++ [(s.draw "Repeat").1])).add
      (s.draw "Repeat").1 []) written [(s.draw "Repeat").1]
      (added ++ rulesOf (s.draw "Repeat").1 [body ++ [(s.draw "Repeat").1], []]) := by
  have hdrawn : Carries s s' written body added := ⟨h.fresh, h.kept, h.origin⟩
  refine hdrawn.wrap (by simp [add, rulesOf]) ⟨_, List.mem_cons_self, by simp⟩ ?_
  simp [List.subset_def, or_comm]

theorem optional (h : Carries (s.draw "Optional").2 s' written body added) :
    Carries s ((s'.add (s.draw "Optional").1 body).add (s.draw "Optional").1 []) written
      [(s.draw "Optional").1] (added ++ rulesOf (s.draw "Optional").1 [body, []]) := by
  have hdrawn : Carries s s' written body added := ⟨h.fresh, h.kept, h.origin⟩
  refine hdrawn.wrap (by simp [add, rulesOf]) ⟨_, List.mem_cons_self, List.Subset.refl _⟩ ?_
  simp

/-- The items of a repetition that has at least one round are expanded twice. -/
theorem atLeastOne {m : String} (hmore : Carries (s.draw "Repeat").2 s' written [m] added)
    (h : Carries s' s'' written body more) :
    Carries s (s''.add (s.draw "Repeat").1 (body ++ [m])) written [(s.draw "Repeat").1]
      (added ++ more ++ rulesOf (s.draw "Repeat").1 [body ++ [m]]) := by
  have hboth : Carries s s'' (written ++ written) ([m] ++ body) (added ++ more) :=
    .append ⟨hmore.fresh, hmore.kept, hmore.origin⟩ h
  have htwice : Carries s s'' written ([m] ++ body) (added ++ more) :=
    ⟨hboth.fresh, fun name hname => hboth.kept name (List.mem_append_left _ hname),
      fun name hname => (hboth.origin name hname).imp_left fun hname =>
        (List.mem_append.mp hname).elim id id⟩
  refine htwice.wrap (by simp [add, rulesOf]) ⟨_, List.mem_cons_self, ?_⟩ ?_
  · simp [List.subset_def, or_comm]
  · simp +contextual [List.subset_def, or_imp]

end Carries

end Expansion

mutual

/-- **An expansion keeps all names of an item**, and adds only fresh ones. -/
theorem Item.expand_carries {s s' : Expansion} {name : String} :
    ∀ item : Item, item.expand s = .ok (name, s') →
      ∃ added, s.Carries s' item.names [name] added
  | .symbol n, h => by
    obtain ⟨rfl, rfl⟩ : n = name ∧ s = s' := by simpa [Item.expand] using h
    exact ⟨[], .refl s [n]⟩
  | .oneOfEach items, h => by simp [Item.expand] at h
  | .repeated items low high, h => by
    unfold Item.expand at h
    split at h
    · cases h
    rw [Item.names]
    split at h
    · simp only [bind_eq_ok, pure_eq_ok] at h
      obtain ⟨⟨body, s₁⟩, hbody, h⟩ := h
      obtain ⟨rfl, rfl⟩ := Prod.mk.inj h
      obtain ⟨added, hinner⟩ := Item.expandAll_carries items hbody
      exact ⟨_, hinner.anyNumber⟩
    · simp only [bind_eq_ok, pure_eq_ok] at h
      obtain ⟨⟨body, s₁⟩, hbody, h⟩ := h
      obtain ⟨rfl, rfl⟩ := Prod.mk.inj h
      obtain ⟨added, hinner⟩ := Item.expandAll_carries items hbody
      exact ⟨_, hinner.optional⟩
    · simp only [bind_eq_ok, pure_eq_ok] at h
      obtain ⟨⟨body, s₁⟩, hbody, ⟨body', s₂⟩, hbody', h⟩ := h
      obtain ⟨rfl, rfl⟩ := Prod.mk.inj h
      obtain ⟨added, hinner⟩ := Item.expandAll_carries items hbody
      obtain ⟨more, hinner'⟩ := Item.expandAll_carries items hbody'
      exact ⟨_, hinner.anyNumber.atLeastOne hinner'⟩
    · cases h

/-- **An expansion keeps all names of items**, and adds only fresh ones. -/
theorem Item.expandAll_carries {s s' : Expansion} {names : List String} :
    ∀ items : List Item, Item.expandAll items s = .ok (names, s') →
      ∃ added, s.Carries s' (Item.namesAll items) names added
  | [], h => by
    obtain ⟨rfl, rfl⟩ : [] = names ∧ s = s' := by simpa [Item.expandAll] using h
    exact ⟨[], .refl s []⟩
  | item :: items, h => by
    simp only [Item.expandAll, bind_eq_ok, pure_eq_ok] at h
    obtain ⟨⟨name, s₁⟩, hitem, ⟨rest, s₂⟩, hitems, heq⟩ := h
    obtain ⟨rfl, rfl⟩ := Prod.mk.inj heq
    obtain ⟨added, hfirst⟩ := Item.expand_carries item hitem
    obtain ⟨more, hrest⟩ := Item.expandAll_carries items hitems
    exact ⟨_, hfirst.append hrest⟩

end

/-! ## Names in rules -/

theorem expandDeclared_carries {rules : List Rule} {s s' : Expansion} {declared : List FlatRule}
    (h : expandDeclared rules s = .ok (declared, s')) :
    ∃ added, s.Carries s' (rules.flatMap fun rule => Item.namesAll rule.items)
      (declared.flatMap (·.body)) added := by
  induction rules generalizing s declared with
  | nil =>
    obtain ⟨rfl, rfl⟩ : [] = declared ∧ s = s' := by simpa [expandDeclared] using h
    exact ⟨[], .refl s []⟩
  | cons rule rules ih =>
    unfold expandDeclared at h
    split at h
    · cases h
    · simp only [bind_eq_ok, pure_eq_ok] at h
      obtain ⟨⟨body, s₁⟩, hbody, ⟨rest, s₂⟩, hrest, heq⟩ := h
      obtain ⟨rfl, rfl⟩ := Prod.mk.inj heq
      obtain ⟨added, hfirst⟩ := Item.expandAll_carries rule.items hbody
      obtain ⟨more, hrest⟩ := ih hrest
      exact ⟨_, hfirst.append hrest⟩

/-- **The names in plain rules** are those that are written in rules, and fresh ones. -/
theorem mem_body_of_expandRules {rules : List Rule} {flat : List FlatRule}
    (h : expandRules rules = .ok flat) (name : String) :
    ((∃ rule ∈ rules, name ∈ Item.namesAll rule.items) → ∃ rule ∈ flat, name ∈ rule.body) ∧
    ((∃ rule ∈ flat, name ∈ rule.body) →
      (∃ rule ∈ rules, name ∈ Item.namesAll rule.items) ∨ name ∈ flat.map (·.head)) := by
  simp only [expandRules, bind_eq_ok, pure_eq_ok] at h
  obtain ⟨⟨declared, s⟩, hdeclared, rfl⟩ := h
  obtain ⟨added, hcarries⟩ := expandDeclared_carries hdeclared
  obtain rfl : s.fresh = added := by simpa using hcarries.fresh
  have hmentions : FlatRule.Mentions (declared.flatMap (·.body)) s.fresh name ↔
      ∃ rule ∈ declared ++ s.fresh, name ∈ rule.body := by
    simp [FlatRule.Mentions, or_and_right, exists_or]
  rw [← hmentions, ← List.mem_flatMap]
  refine ⟨hcarries.kept name, fun hname => (hcarries.origin name hname).imp_right fun hhead => ?_⟩
  rw [List.map_append]
  exact List.mem_append_right _ hhead

/-- **The heads of plain rules** are those that are declared, and fresh ones. -/
theorem mem_heads_of_expandRules {rules : List Rule} {flat : List FlatRule}
    (h : expandRules rules = .ok flat) (name : String) :
    (name ∈ rules.map (·.head) → name ∈ flat.map (·.head) ∧ ¬ IsReserved name) ∧
    (name ∈ flat.map (·.head) → name ∈ rules.map (·.head) ∨ IsReserved name) := by
  simp only [expandRules, bind_eq_ok, pure_eq_ok] at h
  obtain ⟨⟨declared, s⟩, hdeclared, rfl⟩ := h
  obtain ⟨hbecomes, hheads, added, hext, -⟩ := expandDeclared_eq_ok hdeclared
  obtain rfl : s.fresh = added := by simpa using hext.fresh
  rw [List.map_append, List.mem_append]
  constructor
  · intro hname
    obtain ⟨rule, hrule, rfl⟩ := List.mem_map.mp hname
    obtain ⟨flatRule, hflatRule, hb⟩ := exists_of_mem_left hbecomes hrule
    exact ⟨.inl (List.mem_map.mpr ⟨flatRule, hflatRule, hb.head_eq⟩), hheads rule hrule⟩
  · rintro (hname | hname)
    · obtain ⟨flatRule, hflatRule, rfl⟩ := List.mem_map.mp hname
      obtain ⟨rule, hrule, hb⟩ := exists_of_mem_right hbecomes hflatRule
      exact .inl (List.mem_map.mpr ⟨rule, hrule, hb.head_eq.symm⟩)
    · obtain ⟨flatRule, hflatRule, rfl⟩ := List.mem_map.mp hname
      exact .inr (hext.drawn flatRule hflatRule).isReserved

/-! ## Resolution -/

theorem resolve_eq_error {terminals heads : List String} {head name : String} {e : BuildError} :
    resolve terminals heads head name = .error e ↔
      name ∉ terminals ∧ name ∉ heads ∧ e = .undeclaredSymbol head name := by
  unfold resolve
  rw [← List.idxOf?_eq_none_iff, ← List.idxOf?_eq_none_iff]
  cases terminals.idxOf? name with
  | some t => simp
  | none => cases heads.idxOf? name <;> simp [eq_comm]

/-- A rule whose binding fits has no fault but a name that is not known. -/
theorem FlatRule.toProduction_eq_error {terminals heads : List String} {rule : FlatRule}
    {e : BuildError} (hbinding : checkBinding rule.head rule.body.length rule.binding = .ok ())
    (h : rule.toProduction terminals heads = .error e) :
    ∃ name ∈ rule.body, name ∉ terminals ∧ name ∉ heads ∧ e = .undeclaredSymbol rule.head name := by
  rcases bind_eq_error.mp h with hbody | ⟨body, hbody, hrest⟩
  · obtain ⟨name, hname, hresolve⟩ := exists_of_mapM_eq_error hbody
    exact ⟨name, hname, resolve_eq_error.mp hresolve⟩
  · rw [← (mapM_eq_ok.mp hbody).length_eq, hbinding] at hrest
    cases hrest

namespace Declarations

variable {engine : PatternEngine} {d : Declarations} {g : Grammar} {flat : List FlatRule}
  {name : String}

/-- **A name is written** in the items of a rule, at any depth. -/
def Writes (d : Declarations) (name : String) : Prop :=
  ∃ rule ∈ d.rules, name ∈ Item.namesAll rule.items

/-- **A name is declared** as a terminal, or as the head of a rule. -/
def Declares (d : Declarations) (name : String) : Prop :=
  name ∈ d.terminals.map (·.1) ∨ name ∈ d.rules.map (·.head)

/-- **What a name denotes** in the grammar of declarations. A reserved name that is not declared may
still denote a nonterminal, which was made for a repetition. -/
inductive Denotes (d : Declarations) (g : Grammar) (name : String) : Symbol → Prop
  | terminal {t : Nat} (hdeclared : name ∈ d.terminals.map (·.1)) (h : g.terminal? name = some t) :
      Denotes d g name (.terminal t)
  | nonterminal {nt : Nat} (hdeclared : name ∈ d.rules.map (·.head))
      (h : g.nonterminal? name = some nt) : Denotes d g name (.nonterminal nt)
  | borrowed {nt : Nat} (hreserved : IsReserved name) (hdeclared : ¬ d.Declares name)
      (h : g.nonterminal? name = some nt) : Denotes d g name (.nonterminal nt)

section Lookup

variable {heads : List String} {start : Nat} {productions : List Production} {lexicon : Lexicon}

theorem terminal?_assemble (name : String) :
    (d.assemble heads start productions lexicon).terminal? name =
      (d.terminals.map (·.1)).idxOf? name := by
  simp [Grammar.terminal?, assemble, List.idxOf?, List.findIdx?_map, Function.comp_def]

theorem nonterminal?_assemble (name : String) :
    (d.assemble heads start productions lexicon).nonterminal? name = heads.idxOf? name := by
  have hfst : (heads.zipIdx.map (·.1)).findIdx? (· == name) = _ := List.findIdx?_map
  rw [List.zipIdx_map_fst] at hfst
  simp [Grammar.nonterminal?, assemble, List.idxOf?, List.findIdx?_map, Function.comp_def, hfst]

end Lookup

/-- A name that is not a terminal but a head of a plain rule is declared or borrowed. -/
theorem denotes_of_mem_heads (hflat : expandRules d.rules = .ok flat)
    (hterminal : name ∉ d.terminals.map (·.1)) (hhead : name ∈ flat.map (·.head)) {nt : Nat}
    (hnt : g.nonterminal? name = some nt) : d.Denotes g name (.nonterminal nt) := by
  by_cases hdeclared : name ∈ d.rules.map (·.head)
  · exact .nonterminal hdeclared hnt
  · have hreserved := ((mem_heads_of_expandRules hflat name).2 hhead).resolve_left hdeclared
    exact .borrowed hreserved (not_or.mpr ⟨hterminal, hdeclared⟩) hnt

/-- **Names of a built grammar**: the start and each name that is written in a rule denote a
symbol, and it is this symbol that stands in a body. -/
theorem denotes_of_build (h : d.build engine = .ok g) :
    d.Denotes g d.start (.nonterminal g.start) ∧
      ∀ name, d.Writes name → ∃ x, d.Denotes g name x ∧ ∃ p ∈ g.productions, x ∈ p.body := by
  obtain ⟨flat, start, productions, lexicon, hflat, hnames, hstart, hproductions, -, rfl⟩ :=
    build_eq_ok.mp h
  have hclash := (checkNames_eq_ok.mp hnames).2
  constructor
  · have hhead : d.start ∈ headsOf flat := List.mem_of_getElem? (getElem?_of_idxOf? hstart)
    refine denotes_of_mem_heads hflat (hclash _ hhead) (List.mem_eraseDups.mp hhead) ?_
    rw [nonterminal?_assemble]
    exact hstart
  · intro name hwrites
    obtain ⟨rule, hrule, hname⟩ := (mem_body_of_expandRules hflat name).1 hwrites
    obtain ⟨p, hp, hto⟩ := exists_of_mem_left hproductions hrule
    obtain ⟨x, hx, hresolve⟩ := exists_of_mem_left (FlatRule.toProduction_eq_ok.mp hto).1 hname
    refine ⟨x, ?_, p, by simpa [assemble] using hp, hx⟩
    rcases resolve_eq_ok.mp hresolve with ⟨t, ht, rfl⟩ | ⟨hnone, nt, hnt, rfl⟩
    · refine .terminal (List.mem_of_getElem? (getElem?_of_idxOf? ht)) ?_
      rw [terminal?_assemble]
      exact ht
    · have hhead : name ∈ headsOf flat := List.mem_of_getElem? (getElem?_of_idxOf? hnt)
      refine denotes_of_mem_heads hflat (List.idxOf?_eq_none_iff.mp hnone)
        (List.mem_eraseDups.mp hhead) ?_
      rw [nonterminal?_assemble]
      exact hnt

/-! ### Rejected names -/

/-- The start has to be the head of a plain rule. -/
theorem build_eq_unknownStart (hflat : expandRules d.rules = .ok flat)
    (hnames : checkNames (d.terminals.map (·.1)) (headsOf flat) = .ok ())
    (hstart : d.start ∉ headsOf flat) : d.build engine = .error (.unknownStart d.start) := by
  rw [headsOf] at hnames hstart
  have hnone := List.idxOf?_eq_none_iff.mpr hstart
  simp only [build, hflat, hnames, hnone, bind, Except.bind]
  rfl

/-- Behind the checks of names, the first fault of a rule is the one that is reported. -/
theorem build_eq_error_of_mapM (hflat : expandRules d.rules = .ok flat)
    (hnames : checkNames (d.terminals.map (·.1)) (headsOf flat) = .ok ())
    (hstart : d.start ∈ headsOf flat) {e : BuildError}
    (h : flat.mapM (·.toProduction (d.terminals.map (·.1)) (headsOf flat)) = .error e) :
    d.build engine = .error e := by
  rw [headsOf] at hnames hstart h
  have hsome : ((flat.map (·.head)).eraseDups.idxOf? d.start).isSome := by
    rw [List.isSome_idxOf?]
    simpa using hstart
  obtain ⟨start, hstart⟩ := Option.isSome_iff_exists.mp hsome
  simp only [build, hflat, hnames, hstart, h, bind, Except.bind]

/-- Where nothing else is wrong, a name that is not known is the fault. -/
theorem build_eq_undeclaredSymbol (hflat : expandRules d.rules = .ok flat)
    (hnames : checkNames (d.terminals.map (·.1)) (headsOf flat) = .ok ())
    (hstart : d.start ∈ headsOf flat)
    (hbindings : ∀ rule ∈ flat, checkBinding rule.head rule.body.length rule.binding = .ok ())
    (hwrites : d.Writes name) (hterminal : name ∉ d.terminals.map (·.1))
    (hhead : name ∉ headsOf flat) : ∃ head name,
      d.build engine = .error (.undeclaredSymbol head name) ∧
      d.Writes name ∧ name ∉ d.terminals.map (·.1) ∧ name ∉ headsOf flat := by
  cases hmap : flat.mapM (·.toProduction (d.terminals.map (·.1)) (headsOf flat)) with
  | ok productions =>
    obtain ⟨rule, hrule, hname⟩ := (mem_body_of_expandRules hflat name).1 hwrites
    obtain ⟨p, -, hto⟩ := exists_of_mem_left (mapM_eq_ok.mp hmap) hrule
    obtain ⟨x, -, hresolve⟩ := exists_of_mem_left (FlatRule.toProduction_eq_ok.mp hto).1 hname
    rw [resolve_eq_error.mpr ⟨hterminal, hhead, rfl⟩] at hresolve
    cases hresolve
  | error e =>
    obtain ⟨rule, hrule, hto⟩ := exists_of_mapM_eq_error hmap
    obtain ⟨name', hname', hterminal', hhead', rfl⟩ :=
      FlatRule.toProduction_eq_error (hbindings rule hrule) hto
    refine ⟨rule.head, name', build_eq_error_of_mapM hflat hnames hstart hmap, ?_, hterminal',
      hhead'⟩
    refine ((mem_body_of_expandRules hflat name').2 ⟨rule, hrule, hname'⟩).resolve_right ?_
    exact fun hmem => hhead' (List.mem_eraseDups.mpr hmem)

/-- **What becomes of written names.** If the declarations make a grammar, the start and each name
that is written denote a declared symbol, or they have borrowed a reserved name. A name that is
neither declared nor fresh is rejected, with the fault of an unknown start or of an undeclared
symbol if no other check comes first. -/
theorem written_names (engine : PatternEngine) (d : Declarations) :
    (∀ g, d.build engine = .ok g → d.Denotes g d.start (.nonterminal g.start) ∧
      ∀ name, d.Writes name → ∃ x, d.Denotes g name x ∧ ∃ p ∈ g.productions, x ∈ p.body) ∧
    ∀ flat, expandRules d.rules = .ok flat →
      (∀ name ∈ headsOf flat, name ∈ d.rules.map (·.head) ∨ IsReserved name) ∧
      (checkNames (d.terminals.map (·.1)) (headsOf flat) = .ok () →
        (d.start ∉ headsOf flat → d.build engine = .error (.unknownStart d.start)) ∧
        (d.start ∈ headsOf flat →
          (∀ rule ∈ flat, checkBinding rule.head rule.body.length rule.binding = .ok ()) →
          ∀ name, d.Writes name → name ∉ d.terminals.map (·.1) → name ∉ headsOf flat →
          ∃ head name', d.build engine = .error (.undeclaredSymbol head name') ∧
            d.Writes name' ∧ name' ∉ d.terminals.map (·.1) ∧ name' ∉ headsOf flat)) := by
  refine ⟨fun g h => denotes_of_build h, fun flat hflat => ⟨?_, fun hnames => ⟨?_, ?_⟩⟩⟩
  · intro name hname
    exact (mem_heads_of_expandRules hflat name).2 (List.mem_eraseDups.mp hname)
  · exact build_eq_unknownStart hflat hnames
  · intro hstart hbindings name hwrites hterminal hhead
    exact build_eq_undeclaredSymbol hflat hnames hstart hbindings hwrites hterminal hhead

/-- Nobody declares `_anon_Repeat0`, and yet the rule that writes it gets the nonterminal of the
repetition before it. -/
theorem borrowed_name : ∃ g, Samples.borrowed.build Pattern.engine = .ok g ∧
    Samples.borrowed.Writes "_anon_Repeat0" ∧ ¬ Samples.borrowed.Declares "_anon_Repeat0" ∧
    g.nonterminal? "_anon_Repeat0" = some 1 ∧
    g.body 0 = [.nonterminal 1, .terminal 1, .nonterminal 1] := by
  have hrun : ((Samples.borrowed.build Pattern.engine).toOption.map fun g =>
      decide (g.nonterminal? "_anon_Repeat0" = some 1 ∧
        g.body 0 = [.nonterminal 1, .terminal 1, .nonterminal 1])) = some true := by
    decide +kernel
  simp only [Option.map_eq_some_iff, toOption_eq_some, decide_eq_true_eq] at hrun
  obtain ⟨g, hbuild, hname, hbody⟩ := hrun
  refine ⟨g, hbuild, ?_, ?_, hname, hbody⟩
  · rw [Writes]
    decide
  · rw [Declares]
    decide

end Declarations

end PredictiveParsing
