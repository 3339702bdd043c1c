import PredictiveParsing.Proofs.Grammar.WellFormed
import PredictiveParsing.Proofs.Result

/-!
# Grammars that are built are well formed

Building turns names into numbers: a terminal gets its place among the declared terminals, a
nonterminal the place of its first rule. The checks on the way are what makes the tables of the
grammar consistent.

## Main results

* `Declarations.build_eq_ok`: what a successful build has checked, and what it returns
* `Declarations.wellFormed_of_build`: the grammar is well formed
* `Declarations.map_ruleOf_of_build`: the productions are the rules, written with numbers
* `Lexicon.mapM_rules_of_build`: the rules for tokens are what an engine makes of their patterns
-/

namespace PredictiveParsing

/-! ## The checks -/

theorem firstRepeated?_eq_none {seen names : List String} :
    firstRepeated? seen names = none ↔ names.Nodup ∧ ∀ name ∈ names, name ∉ seen := by
  induction names generalizing seen with
  | nil => simp [firstRepeated?]
  | cons name names ih =>
    unfold firstRepeated?
    split
    · rename_i h
      simp [h]
    · rename_i h
      rw [ih, List.nodup_cons]
      simp only [List.mem_cons, not_or]
      constructor
      · rintro ⟨hnd, hseen⟩
        refine ⟨⟨fun hmem => (hseen name hmem).1 rfl, hnd⟩, ?_⟩
        rintro x (rfl | hx)
        · exact h
        · exact (hseen x hx).2
      · rintro ⟨⟨hname, hnd⟩, hseen⟩
        exact ⟨hnd, fun x hx => ⟨fun e => hname (e ▸ hx), hseen x (.inr hx)⟩⟩

theorem checkNames_eq_ok {terminals heads : List String} :
    checkNames terminals heads = .ok () ↔ terminals.Nodup ∧ ∀ head ∈ heads, head ∉ terminals := by
  unfold checkNames
  split
  · rename_i name h
    have : ¬ (terminals.Nodup ∧ ∀ name ∈ terminals, name ∉ ([] : List String)) := by
      rw [← firstRepeated?_eq_none, h]
      simp
    simp only [List.not_mem_nil, not_false_eq_true, implies_true, and_true] at this
    simp [this]
  · rename_i h
    have hnd := (firstRepeated?_eq_none.mp h).1
    split
    · rename_i name hname
      obtain ⟨hterminal, hhead⟩ := List.find?_some hname, List.mem_of_find?_eq_some hname
      simp only [reduceCtorEq, hnd, true_and, false_iff]
      exact fun hall => hall name hhead (by simpa using hterminal)
    · rename_i hname
      simpa [hnd] using hname

theorem checkBinding_eq_ok {head : String} {p : Production}
    (h : checkBinding head p.body.length p.binding = .ok ()) : p.Binds := by
  unfold checkBinding at h
  unfold Production.Binds
  cases hb : p.binding with
  | none => trivial
  | some binding =>
    rw [hb] at h
    cases binding with
    | suppressed =>
      by_cases hlen : p.body.length = 0
      · exact List.length_eq_zero_iff.mp hlen
      · simp [hlen] at h
    | node nodeType fields =>
      by_cases hlen : fields.length = p.body.length
      · cases hfields : firstRepeated? [] (Field.namesOf fields) with
        | none => exact ⟨hlen, (firstRepeated?_eq_none.mp hfields).1⟩
        | some field => simp [hlen, hfields] at h
      · simp [hlen] at h

/-! ## Names become numbers -/

/-- The number that a name is resolved to is its place among the terminals or the heads. -/
theorem resolve_eq_ok {terminals heads : List String} {head name : String} {x : Symbol} :
    resolve terminals heads head name = .ok x ↔
      (∃ t, terminals.idxOf? name = some t ∧ x = .terminal t) ∨
      (terminals.idxOf? name = none ∧ ∃ nt, heads.idxOf? name = some nt ∧ x = .nonterminal nt) := by
  unfold resolve
  cases terminals.idxOf? name with
  | some t => simp [eq_comm]
  | none => cases heads.idxOf? name <;> simp [eq_comm]

theorem lt_length_of_idxOf? {names : List String} {name : String} {i : Nat}
    (h : names.idxOf? name = some i) : i < names.length := by
  rw [List.idxOf?, List.findIdx?_eq_some_iff_getElem] at h
  exact h.1

theorem getElem?_of_idxOf? {names : List String} {name : String} {i : Nat}
    (h : names.idxOf? name = some i) : names[i]? = some name := by
  obtain ⟨hlt, hname, -⟩ := List.findIdx?_eq_some_iff_getElem.mp h
  rw [List.getElem?_eq_getElem hlt, eq_of_beq hname]

/-- A name that stands once in a list stands where it is found. -/
theorem getElem?_eq_some_iff_of_idxOf? {names : List String} (hnodup : names.Nodup) {name : String}
    {i j : Nat} (h : names.idxOf? name = some i) : names[j]? = some name ↔ j = i := by
  have hi := getElem?_of_idxOf? h
  constructor
  · intro hj
    obtain ⟨hjlt, hj⟩ := List.getElem?_eq_some_iff.mp hj
    obtain ⟨hilt, hi⟩ := List.getElem?_eq_some_iff.mp hi
    exact hnodup.getElem_inj_iff.mp (hj.trans hi.symm)
  · rintro rfl
    exact hi

theorem FlatRule.toProduction_eq_ok {terminals heads : List String} {rule : FlatRule}
    {p : Production} : rule.toProduction terminals heads = .ok p ↔
      List.Forall₂ (fun name x => resolve terminals heads rule.head name = .ok x) rule.body p.body ∧
      checkBinding rule.head p.body.length p.binding = .ok () ∧
      p.head = heads.idxOf rule.head ∧ p.binding = rule.binding := by
  simp only [toProduction, bind_eq_ok, mapM_eq_ok, pure_eq_ok]
  constructor
  · rintro ⟨body, hbody, ⟨⟩, hbinding, rfl⟩
    exact ⟨hbody, hbinding, rfl, rfl⟩
  · rintro ⟨hbody, hbinding, hhead, hb⟩
    refine ⟨p.body, hbody, (), hb ▸ hbinding, ?_⟩
    cases p
    simp_all

theorem mem_alternativesOf {productions : List Production} {nt p : Nat} :
    p ∈ alternativesOf productions nt ↔
      ∃ production, productions[p]? = some production ∧ production.head = nt := by
  simp [alternativesOf, List.mem_zipIdx_iff_getElem?]

theorem pairwise_alternativesOf (productions : List Production) (nt : Nat) :
    (alternativesOf productions nt).Pairwise (· < ·) := by
  have hsub : (alternativesOf productions nt).Sublist (productions.zipIdx.map (·.2)) :=
    List.filter_sublist.map _
  rw [List.zipIdx_map_snd] at hsub
  exact List.Pairwise.sublist hsub List.pairwise_lt_range'

/-! ## The rules for tokens -/

theorem LexRule.build_eq_ok {engine : PatternEngine} {name pattern : String} {rule : LexRule} :
    LexRule.build engine name pattern = .ok rule ↔
      ∃ find, engine pattern = some find ∧ rule = ⟨name, pattern, find⟩ := by
  unfold LexRule.build
  cases engine pattern <;> simp [eq_comm]

theorem Lexicon.build_eq_ok {engine : PatternEngine} {terminals : List (String × String)}
    {lexicon : Lexicon} : Lexicon.build engine terminals = .ok lexicon ↔
      List.Forall₂ (fun entry rule => LexRule.build engine entry.1 entry.2 = .ok rule)
        ((LexRule.whitespaceName, LexRule.whitespacePattern) :: terminals) lexicon.rules := by
  simp only [Lexicon.build, bind_eq_ok, mapM_eq_ok, pure_eq_ok]
  constructor
  · rintro ⟨rules, hrules, rfl⟩
    exact hrules
  · exact fun hrules => ⟨lexicon.rules, hrules, rfl⟩

theorem Lexicon.map_rules_of_build {engine : PatternEngine} {terminals : List (String × String)}
    {lexicon : Lexicon} (h : Lexicon.build engine terminals = .ok lexicon) :
    lexicon.rules.map (fun rule => (rule.name, rule.pattern)) =
      (LexRule.whitespaceName, LexRule.whitespacePattern) :: terminals := by
  have hrules := Lexicon.build_eq_ok.mp h
  rw [← List.forall₂_eq_eq_eq, List.forall₂_map_left_iff]
  refine hrules.flip.imp fun rule entry hrule => ?_
  obtain ⟨find, -, rfl⟩ := LexRule.build_eq_ok.mp hrule
  rfl

/-- What an engine makes of the rules of a lexicon that it has built is that lexicon. -/
theorem Lexicon.mapM_rules_of_build {engine : PatternEngine} {terminals : List (String × String)}
    {lexicon : Lexicon} (h : Lexicon.build engine terminals = .ok lexicon) :
    (lexicon.rules.map fun rule => (rule.name, rule.pattern)).mapM
      (fun (name, pattern) => LexRule.build engine name pattern) = .ok lexicon.rules := by
  rw [Lexicon.map_rules_of_build h]
  exact mapM_eq_ok.mpr (Lexicon.build_eq_ok.mp h)

/-! ## The grammar -/

/-- The rule that a production stands for, by the names of its symbols. -/
def Grammar.ruleOf (g : Grammar) (p : Production) : FlatRule :=
  ⟨g.nonterminalName p.head, p.body.map g.symbolName, p.binding⟩

namespace Declarations

variable {engine : PatternEngine} {d : Declarations} {g : Grammar}

/-- The names of the nonterminals, in the order of their first rules. -/
def headsOf (rules : List FlatRule) : List String := (rules.map (·.head)).eraseDups

/-- The tables of a grammar, from the names of its nonterminals and its productions. -/
def assemble (d : Declarations) (heads : List String) (start : Nat)
    (productions : List Production) (lexicon : Lexicon) : Grammar where
  terminals := (d.terminals.map fun (name, pattern) => ⟨name, pattern⟩).toArray
  nonterminals := (heads.zipIdx.map fun (name, nt) =>
    ⟨name, alternativesOf productions nt, name == d.start⟩).toArray
  productions := productions.toArray
  start := start
  lexicon := lexicon

theorem alternatives_assemble {heads : List String} {start : Nat} {productions : List Production}
    {lexicon : Lexicon} (nt : Nat) :
    (d.assemble heads start productions lexicon).alternatives nt =
      if nt < heads.length then alternativesOf productions nt else [] := by
  simp only [Grammar.alternatives, assemble, List.getElem?_toArray, List.getElem?_map,
    List.getElem?_zipIdx]
  split <;> simp_all

/-- A nonterminal is marked if it has the name of the start symbol. -/
theorem isStart_assemble {heads : List String} {start : Nat} {productions : List Production}
    {lexicon : Lexicon} (nt : Nat) :
    (d.assemble heads start productions lexicon).isStart nt = true ↔ heads[nt]? = some d.start := by
  cases h : heads[nt]? <;> simp [Grammar.isStart, assemble, h]

/-- **What a successful build has checked, and what it returns.** -/
theorem build_eq_ok : d.build engine = .ok g ↔
    ∃ rules start productions lexicon,
      expandRules d.rules = .ok rules ∧
      checkNames (d.terminals.map (·.1)) (headsOf rules) = .ok () ∧
      (headsOf rules).idxOf? d.start = some start ∧
      List.Forall₂ (fun rule p =>
        rule.toProduction (d.terminals.map (·.1)) (headsOf rules) = .ok p) rules productions ∧
      Lexicon.build engine d.terminals = .ok lexicon ∧
      g = d.assemble (headsOf rules) start productions lexicon := by
  have hfold (rules : List FlatRule) : (rules.map (·.head)).eraseDups = headsOf rules := rfl
  simp only [build, bind_eq_ok, hfold]
  constructor
  · rintro ⟨rules, hrules, ⟨⟩, hnames, h⟩
    cases hstart : (headsOf rules).idxOf? d.start with
    | none => simp only [hstart, throw, throwThe, MonadExceptOf.throw, reduceCtorEq] at h
    | some start =>
      simp only [hstart, bind_eq_ok, mapM_eq_ok, mapError_eq_ok, pure_eq_ok] at h
      obtain ⟨productions, hproductions, lexicon, hlexicon, rfl⟩ := h
      exact ⟨rules, start, productions, lexicon, hrules, hnames, hstart, hproductions, hlexicon,
        rfl⟩
  · rintro ⟨rules, start, productions, lexicon, hrules, hnames, hstart, hproductions, hlexicon,
      rfl⟩
    refine ⟨rules, hrules, (), hnames, ?_⟩
    simp only [hstart, bind_eq_ok, mapM_eq_ok, mapError_eq_ok, pure_eq_ok]
    exact ⟨productions, hproductions, lexicon, hlexicon, rfl⟩

/-- Every production comes from a rule whose head is a nonterminal. -/
theorem exists_rule {terminals : List String} {rules : List FlatRule}
    {productions : List Production} (h : List.Forall₂ (fun rule p =>
      rule.toProduction terminals (headsOf rules) = .ok p) rules productions) {p : Production}
    (hp : p ∈ productions) : ∃ rule ∈ rules, rule.head ∈ headsOf rules ∧
      rule.toProduction terminals (headsOf rules) = .ok p := by
  obtain ⟨rule, hrule, hto⟩ := exists_of_mem_right h hp
  exact ⟨rule, hrule, List.mem_eraseDups.mpr (List.mem_map_of_mem hrule), hto⟩

theorem head_lt_of_toProduction {terminals : List String} {rules : List FlatRule}
    {productions : List Production} (h : List.Forall₂ (fun rule p =>
      rule.toProduction terminals (headsOf rules) = .ok p) rules productions) {p : Production}
    (hp : p ∈ productions) : p.head < (headsOf rules).length := by
  obtain ⟨rule, -, hmem, hto⟩ := exists_rule h hp
  rw [(FlatRule.toProduction_eq_ok.mp hto).2.2.1]
  exact List.idxOf_lt_length_of_mem hmem

/-- Every head is the head of a production. -/
theorem exists_production_of_head {terminals : List String} {rules : List FlatRule}
    {productions : List Production} (h : List.Forall₂ (fun rule p =>
      rule.toProduction terminals (headsOf rules) = .ok p) rules productions) {nt : Nat}
    (hnt : nt < (headsOf rules).length) : ∃ p ∈ productions, p.head = nt := by
  have hmem : (headsOf rules)[nt] ∈ rules.map (·.head) :=
    List.mem_eraseDups.mp (List.getElem_mem hnt)
  obtain ⟨rule, hrule, hhead⟩ := List.mem_map.mp hmem
  obtain ⟨p, hp, hto⟩ := exists_of_mem_left h hrule
  refine ⟨p, hp, ?_⟩
  rw [(FlatRule.toProduction_eq_ok.mp hto).2.2.1, hhead]
  exact (nodup_eraseDups _).idxOf_getElem nt hnt

/-- **The grammar of declarations is well formed.** -/
theorem wellFormed_of_build (h : d.build engine = .ok g) : g.WellFormed := by
  obtain ⟨rules, start, productions, lexicon, -, hnames, hstart, hproductions, hlexicon, rfl⟩ :=
    build_eq_ok.mp h
  obtain ⟨hterminals, hclash⟩ := checkNames_eq_ok.mp hnames
  constructor
  case names_nodup =>
    have hfst : (headsOf rules).zipIdx.map (fun entry => entry.1) = headsOf rules :=
      List.zipIdx_map_fst ..
    simp only [assemble, List.map_map, Function.comp_def, hfst]
    refine List.nodup_append.mpr ⟨hterminals, nodup_eraseDups _, ?_⟩
    rintro name hname _ hhead rfl
    exact hclash name hhead hname
  case start_lt => simpa [assemble] using lt_length_of_idxOf? hstart
  case head_lt =>
    intro p hp
    simpa [assemble] using head_lt_of_toProduction hproductions (by simpa [assemble] using hp)
  case body_mem =>
    intro p hp x hx
    obtain ⟨rule, -, -, hto⟩ := exists_rule hproductions (by simpa [assemble] using hp)
    obtain ⟨name, -, hresolve⟩ := exists_of_mem_right (FlatRule.toProduction_eq_ok.mp hto).1 hx
    rcases resolve_eq_ok.mp hresolve with ⟨t, ht, rfl⟩ | ⟨-, nt, hnt, rfl⟩
    · simpa [Grammar.HasSymbol, assemble] using lt_length_of_idxOf? ht
    · simpa [Grammar.HasSymbol, assemble] using lt_length_of_idxOf? hnt
  case binds =>
    intro p hp
    obtain ⟨rule, -, -, hto⟩ := exists_rule hproductions (by simpa [assemble] using hp)
    exact checkBinding_eq_ok (FlatRule.toProduction_eq_ok.mp hto).2.1
  case mem_alternatives =>
    intro nt p
    rw [alternatives_assemble]
    split
    · simp [assemble, mem_alternativesOf]
    · rename_i hnt
      simp only [assemble, List.not_mem_nil, List.getElem?_toArray, false_iff, not_exists, not_and]
      rintro production hp rfl
      exact hnt (head_lt_of_toProduction hproductions (List.mem_of_getElem? hp))
  case alternatives_increasing =>
    intro nt
    rw [alternatives_assemble]
    split
    · exact pairwise_alternativesOf productions nt
    · exact .nil
  case alternatives_ne_nil =>
    intro nt hnt
    replace hnt : nt < (headsOf rules).length := by simpa [assemble] using hnt
    obtain ⟨p, hp, hhead⟩ := exists_production_of_head hproductions hnt
    obtain ⟨i, hi⟩ := List.mem_iff_getElem?.mp hp
    rw [alternatives_assemble, if_pos hnt]
    exact List.ne_nil_of_mem (mem_alternativesOf.mpr ⟨p, hi, hhead⟩)
  case isStart_iff =>
    intro nt
    rw [isStart_assemble]
    exact getElem?_eq_some_iff_of_idxOf? (nodup_eraseDups _) hstart
  case tokenRules =>
    simpa [assemble, Function.comp_def] using Lexicon.map_rules_of_build hlexicon

/-! ## Names of symbols -/

section Names

variable {heads : List String} {start : Nat} {productions : List Production} {lexicon : Lexicon}

theorem terminalName_assemble (t : Nat) :
    (d.assemble heads start productions lexicon).terminalName t =
      (d.terminals.map (·.1))[t]?.getD "" := by
  simp [Grammar.terminalName, assemble, Function.comp_def]

theorem nonterminalName_assemble (nt : Nat) :
    (d.assemble heads start productions lexicon).nonterminalName nt = heads[nt]?.getD "" := by
  cases h : heads[nt]? <;> simp [Grammar.nonterminalName, assemble, h]

/-- A symbol has the name that it was resolved from. -/
theorem symbolName_of_resolve {head name : String} {x : Symbol}
    (h : resolve (d.terminals.map (·.1)) heads head name = .ok x) :
    (d.assemble heads start productions lexicon).symbolName x = name := by
  rcases resolve_eq_ok.mp h with ⟨t, ht, rfl⟩ | ⟨-, nt, hnt, rfl⟩
  · rw [Grammar.symbolName, terminalName_assemble, getElem?_of_idxOf? ht, Option.getD_some]
  · rw [Grammar.symbolName, nonterminalName_assemble, getElem?_of_idxOf? hnt, Option.getD_some]

/-- A production stands for the rule that it was made from. -/
theorem ruleOf_of_toProduction {rule : FlatRule} {p : Production}
    (h : rule.toProduction (d.terminals.map (·.1)) heads = .ok p) (hhead : rule.head ∈ heads) :
    (d.assemble heads start productions lexicon).ruleOf p = rule := by
  obtain ⟨hbody, -, hp, hbinding⟩ := FlatRule.toProduction_eq_ok.mp h
  have hnames : p.body.map (d.assemble heads start productions lexicon).symbolName =
      rule.body := by
    rw [← List.forall₂_eq_eq_eq, List.forall₂_map_left_iff]
    exact hbody.flip.imp fun _ _ hresolve => symbolName_of_resolve hresolve
  rw [Grammar.ruleOf, nonterminalName_assemble, hp, List.getElem?_idxOf hhead, hnames, hbinding]
  rfl

end Names

/-- **The productions of a grammar are its rules**, written with numbers. -/
theorem map_ruleOf_of_build (h : d.build engine = .ok g) :
    expandRules d.rules = .ok (g.productions.toList.map g.ruleOf) := by
  obtain ⟨rules, start, productions, lexicon, hrules, -, -, hproductions, -, rfl⟩ :=
    build_eq_ok.mp h
  have hheads : ∀ rule ∈ rules, rule.head ∈ headsOf rules :=
    fun rule hrule => List.mem_eraseDups.mpr (List.mem_map_of_mem hrule)
  have hsame {rules' : List FlatRule} {productions' : List Production}
      (hsub : ∀ rule ∈ rules', rule.head ∈ headsOf rules)
      (h : List.Forall₂ (fun rule p =>
        rule.toProduction (d.terminals.map (·.1)) (headsOf rules) = .ok p) rules' productions') :
      productions'.map (d.assemble (headsOf rules) start productions lexicon).ruleOf = rules' := by
    induction h with
    | nil => rfl
    | @cons rule p rules' productions' hto _ ih =>
      obtain ⟨hhead, hsub⟩ := List.forall_mem_cons.mp hsub
      rw [List.map_cons, ruleOf_of_toProduction hto hhead, ih hsub]
  exact hrules.trans (congrArg Except.ok (hsame hheads hproductions).symm)

/-- The terminals are those that were declared, and so are the rules for tokens. -/
theorem terminals_of_build (h : d.build engine = .ok g) :
    g.terminals = (d.terminals.map fun (name, pattern) => ⟨name, pattern⟩).toArray ∧
      Lexicon.build engine d.terminals = .ok g.lexicon := by
  obtain ⟨_, _, _, _, -, -, -, -, hlexicon, rfl⟩ := build_eq_ok.mp h
  exact ⟨rfl, hlexicon⟩

/-- The terminals have the names that were declared. -/
theorem terminalName_mem_of_build (h : d.build engine = .ok g) {t : Nat}
    (ht : t < g.terminals.size) : g.terminalName t ∈ d.terminals.map (·.1) := by
  obtain ⟨_, _, _, _, -, -, -, -, -, rfl⟩ := build_eq_ok.mp h
  replace ht : t < (d.terminals.map (·.1)).length := by simpa [assemble] using ht
  rw [terminalName_assemble, List.getElem?_eq_getElem ht, Option.getD_some]
  exact List.getElem_mem ht

/-- The start symbol has the name that was declared. -/
theorem nonterminalName_start_of_build (h : d.build engine = .ok g) :
    g.nonterminalName g.start = d.start := by
  obtain ⟨rules, start, productions, lexicon, -, -, hstart, -, -, rfl⟩ := build_eq_ok.mp h
  rw [nonterminalName_assemble, assemble, getElem?_of_idxOf? hstart, Option.getD_some]

/-- An engine makes the lexicon of a built grammar from its rules. -/
theorem mapM_rules_of_build (h : d.build engine = .ok g) :
    (g.lexicon.rules.map fun rule => (rule.name, rule.pattern)).mapM
      (fun (name, pattern) => LexRule.build engine name pattern) = .ok g.lexicon.rules := by
  obtain ⟨_, _, _, _, -, -, -, -, hlexicon, rfl⟩ := build_eq_ok.mp h
  exact Lexicon.mapM_rules_of_build hlexicon

/-- The rule for the tokens of a terminal finds what an engine makes of its pattern. -/
theorem exists_rule_of_build (h : d.build engine = .ok g) {t : Nat} {terminal : Terminal}
    (ht : g.terminals[t]? = some terminal) : ∃ find, engine terminal.pattern = some find ∧
      g.lexicon.rules[t + 1]? = some ⟨terminal.name, terminal.pattern, find⟩ := by
  have htoken : (g.lexicon.rules.map fun rule => (rule.name, rule.pattern))[t + 1]? =
      some (terminal.name, terminal.pattern) := by
    rw [(wellFormed_of_build h).tokenRules, List.getElem?_cons_succ, List.getElem?_map,
      Array.getElem?_toList, ht]
    rfl
  rw [List.getElem?_map] at htoken
  obtain ⟨rule, hrule, hentry⟩ := Option.map_eq_some_iff.mp htoken
  obtain ⟨hname, hpattern⟩ := Prod.mk.inj hentry
  have hrules := mapM_eq_ok.mp (mapM_rules_of_build h)
  rw [List.forall₂_map_left_iff, List.forall₂_same] at hrules
  obtain ⟨find, hfind, hmk⟩ := LexRule.build_eq_ok.mp (hrules rule (List.mem_of_getElem? hrule))
  rw [hname, hpattern] at hmk
  rw [hpattern] at hfind
  exact ⟨find, hfind, hmk ▸ hrule⟩

end Declarations

end PredictiveParsing
