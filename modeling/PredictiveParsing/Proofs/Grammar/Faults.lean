import Mathlib.Data.Prod.Lex
import PredictiveParsing.Proofs.Grammar.Resolution
import PredictiveParsing.Proofs.Grammar.Supported

/-!
# Valid declarations and the first fault

Building makes its checks one after the other: of each rule the head and then the items, of the
names of the terminals, of the heads of the plain rules, of the start, of each plain rule the names
in its body and then its binding, and last of each pattern. Each check has a place in this order,
and its faults are described by what is declared.

Declarations are valid if they have no fault, and then a grammar is built. Otherwise the error is a
fault of the first check that has one. The proof goes along the order: where a check has no fault,
all faults that are not before it are at the next check or behind that.

## Main definitions

* `Declarations.Valid`: the conditions on declarations
* `Declarations.Check`, `Check.rank`: the checks and their order
* `Declarations.Fault`: what each check finds fault with
* `Declarations.PassesUpTo`: no fault is before a check

## Main results

* `Declarations.exists_first_fault`: an error is a fault of the first check that has one
* `Declarations.build_faults`: a grammar is built just if there is no fault
-/

namespace PredictiveParsing

/-! ## Bindings -/

/-- **A binding does not fit** a body of some number of symbols. -/
inductive Binding.Misfits (head : String) (symbols : Nat) : Binding → BuildError → Prop
  | arity {nodeType : String} {fields : List Field} (h : fields.length ≠ symbols) :
      Misfits head symbols (.node nodeType fields)
        (.bindingArity head nodeType fields.length symbols)
  | suppressed (h : symbols ≠ 0) : Misfits head symbols .suppressed (.suppressedNonEpsilon head)

/-- **A binding names a field twice.** -/
inductive Binding.Repeats (head : String) : Binding → BuildError → Prop
  | field {nodeType field : String} {fields : List Field}
      (h : 1 < (Field.namesOf fields).count field) :
      Repeats head (.node nodeType fields) (.duplicateField head nodeType field)

/-- A name that is found repeated has been seen before, or stands twice in the list. -/
theorem count_of_firstRepeated? {seen names : List String} {name : String}
    (h : firstRepeated? seen names = some name) :
    name ∈ seen ∧ name ∈ names ∨ 1 < names.count name := by
  induction names generalizing seen with
  | nil => simp [firstRepeated?] at h
  | cons first names ih =>
    unfold firstRepeated? at h
    split at h
    · rename_i hseen
      cases h
      exact .inl ⟨hseen, List.mem_cons_self⟩
    · rcases ih h with ⟨hseen, hmem⟩ | hcount
      · rcases List.mem_cons.mp hseen with rfl | hseen
        · right
          have hpos := List.count_pos_iff.mpr hmem
          rw [List.count_cons_self]
          omega
        · exact .inl ⟨hseen, List.mem_cons_of_mem _ hmem⟩
      · exact .inr (Nat.lt_of_lt_of_le hcount List.count_le_count_cons)

/-- A name that is found repeated stands twice in the list. -/
theorem one_lt_count_of_firstRepeated? {names : List String} {name : String}
    (h : firstRepeated? [] names = some name) : 1 < names.count name := by
  rcases count_of_firstRepeated? h with ⟨hseen, -⟩ | hcount
  · cases hseen
  · exact hcount

theorem not_one_lt_count_of_nodup {names : List String} (h : names.Nodup) {name : String} :
    ¬ 1 < names.count name := Nat.not_lt.mpr (List.nodup_iff_count_le_one.mp h name)

/-- **A binding that is accepted** fits, and names no field twice. -/
theorem fits_of_checkBinding {head : String} {symbols : Nat} {binding : Binding}
    (h : checkBinding head symbols (some binding) = .ok ()) {e : BuildError} :
    ¬ binding.Misfits head symbols e ∧ ¬ binding.Repeats head e := by
  cases binding with
  | suppressed =>
    refine ⟨fun hmisfits => ?_, fun hrepeats => by cases hrepeats⟩
    cases hmisfits with
    | suppressed hsymbols => simp [checkBinding, hsymbols] at h
  | node nodeType fields =>
    by_cases hlength : fields.length = symbols
    · cases hfields : firstRepeated? [] (Field.namesOf fields) with
      | some field => simp [checkBinding, hlength, hfields] at h
      | none =>
        have hnodup := (firstRepeated?_eq_none.mp hfields).1
        constructor
        · intro hmisfits
          cases hmisfits with
          | arity hne => exact hne hlength
        · intro hrepeats
          cases hrepeats with
          | field hcount => exact not_one_lt_count_of_nodup hnodup hcount
    · simp [checkBinding, hlength] at h

/-- **A binding that is rejected** does not fit, or it fits and names a field twice. -/
theorem exists_of_checkBinding_eq_error {head : String} {symbols : Nat} {binding : Option Binding}
    {e : BuildError} (h : checkBinding head symbols binding = .error e) :
    ∃ b, binding = some b ∧ (b.Misfits head symbols e ∨
      (∀ e', ¬ b.Misfits head symbols e') ∧ b.Repeats head e) := by
  unfold checkBinding at h
  split at h
  · cases h
  · split at h
    · cases h
    · rename_i hsymbols
      cases h
      exact ⟨_, rfl, .inl (.suppressed hsymbols)⟩
  · split at h
    · rename_i hlength
      cases h
      exact ⟨_, rfl, .inl (.arity hlength)⟩
    · rename_i hlength
      split at h
      · rename_i field hfield
        cases h
        refine ⟨_, rfl, .inr ⟨?_, .field (one_lt_count_of_firstRepeated? hfield)⟩⟩
        intro e' hmisfits
        cases hmisfits with
        | arity hne => exact hlength hne
      · cases h

/-! ## Names, bodies and patterns -/

theorem exists_of_checkNames_eq_error {terminals heads : List String} {e : BuildError}
    (h : checkNames terminals heads = .error e) : ∃ name, e = .duplicateSymbol name ∧
      (1 < terminals.count name ∨ terminals.Nodup ∧ name ∈ heads ∧ name ∈ terminals) := by
  unfold checkNames at h
  split at h
  · rename_i name hname
    cases h
    exact ⟨name, rfl, .inl (one_lt_count_of_firstRepeated? hname)⟩
  · rename_i hnone
    split at h
    · rename_i name hname
      cases h
      refine ⟨name, rfl, .inr ⟨(firstRepeated?_eq_none.mp hnone).1, ?_, ?_⟩⟩
      · exact List.mem_of_find?_eq_some hname
      · simpa using List.find?_some hname
    · cases h

/-- A name that is resolved is that of a terminal or a head. -/
theorem known_of_resolve {terminals heads : List String} {head name : String} {x : Symbol}
    (h : resolve terminals heads head name = .ok x) : name ∈ terminals ∨ name ∈ heads := by
  by_contra hunknown
  obtain ⟨hterminal, hhead⟩ := not_or.mp hunknown
  rw [resolve_eq_error.mpr ⟨hterminal, hhead, rfl⟩] at h
  cases h

/-- A rule is made a production if its names are known and its binding is accepted. -/
theorem FlatRule.known_of_toProduction {terminals heads : List String} {rule : FlatRule}
    {p : Production} (h : rule.toProduction terminals heads = .ok p) :
    (∀ name ∈ rule.body, name ∈ terminals ∨ name ∈ heads) ∧
      checkBinding rule.head rule.body.length rule.binding = .ok () := by
  obtain ⟨hbody, hbinding, -, hb⟩ := toProduction_eq_ok.mp h
  constructor
  · intro name hname
    obtain ⟨x, -, hresolve⟩ := exists_of_mem_left hbody hname
    exact known_of_resolve hresolve
  · rwa [← hb, hbody.length_eq]

/-- Otherwise a name is blamed, or if all of them are known, the binding. -/
theorem FlatRule.blamed_of_toProduction {terminals heads : List String} {rule : FlatRule}
    {e : BuildError} (h : rule.toProduction terminals heads = .error e) :
    (∃ name ∈ rule.body, name ∉ terminals ∧ name ∉ heads ∧
      e = .undeclaredSymbol rule.head name) ∨
    (∀ name ∈ rule.body, name ∈ terminals ∨ name ∈ heads) ∧
      checkBinding rule.head rule.body.length rule.binding = .error e := by
  cases hcheck : checkBinding rule.head rule.body.length rule.binding with
  | ok u => exact .inl (toProduction_eq_error hcheck h)
  | error e' =>
    rcases bind_eq_error.mp h with hbody | ⟨body, hbody, hrest⟩
    · obtain ⟨name, hname, hresolve⟩ := exists_of_mapM_eq_error hbody
      exact .inl ⟨name, hname, resolve_eq_error.mp hresolve⟩
    · have hforall := mapM_eq_ok.mp hbody
      right
      constructor
      · intro name hname
        obtain ⟨x, -, hresolve⟩ := exists_of_mem_left hforall hname
        exact known_of_resolve hresolve
      · rw [← hforall.length_eq, hcheck] at hrest
        cases hrest
        rfl

/-- **The first text that is no pattern** is blamed. -/
theorem Lexicon.exists_of_build_eq_error {engine : PatternEngine}
    (hspace : (engine LexRule.whitespacePattern).isSome) {terminals : List (String × String)}
    {e : PatternError} (h : Lexicon.build engine terminals = .error e) :
    ∃ before entry after, terminals = before ++ entry :: after ∧
      (∀ earlier ∈ before, engine earlier.2 ≠ none) ∧ engine entry.2 = none ∧
      e = ⟨entry.1, entry.2⟩ := by
  have hrule {name pattern : String} {e : PatternError}
      (h : LexRule.build engine name pattern = .error e) :
      engine pattern = none ∧ e = ⟨name, pattern⟩ := by
    unfold LexRule.build at h
    cases hpattern : engine pattern <;> simp_all
  simp only [Lexicon.build, bind_eq_error, pure_ne_error, and_false, exists_false, or_false] at h
  obtain ⟨before, entry, after, hsplit, hbefore, hentry⟩ := exists_first_of_mapM_eq_error h
  obtain ⟨hnone, rfl⟩ := hrule hentry
  cases before with
  | nil =>
    obtain ⟨rfl, -⟩ := List.cons.inj hsplit
    simp [hnone] at hspace
  | cons first before =>
    obtain ⟨-, rfl⟩ := List.cons.inj hsplit
    refine ⟨before, entry, after, rfl, fun earlier hearlier => ?_, hnone, rfl⟩
    obtain ⟨rule, hok⟩ := hbefore earlier (List.mem_cons_of_mem _ hearlier)
    obtain ⟨find, hfind, -⟩ := LexRule.build_eq_ok.mp hok
    simp [hfind]

namespace Declarations

/-! ## Conditions and faults -/

/-- **The conditions on declarations.** Names and the start are looked up among the heads of the
plain rules, those for fresh nonterminals included. -/
structure Valid (engine : PatternEngine) (d : Declarations) : Prop where
  /-- No head is reserved. -/
  heads_unreserved : ∀ rule ∈ d.rules, ¬ IsReserved rule.head
  /-- Each item at any depth is a symbol, or a repetition of some items with bounds that have an
  expansion. -/
  items_supported : ∀ rule ∈ d.rules, ∀ item : Item, item.Within rule.items → item.IsSupported
  /-- No terminal is declared twice. -/
  terminals_nodup : (d.terminals.map (·.1)).Nodup
  /-- No terminal has the name of a head. -/
  heads_disjoint : ∀ flat, expandRules d.rules = .ok flat →
    ∀ head ∈ flat.map (·.head), head ∉ d.terminals.map (·.1)
  /-- The start is a head. -/
  start_mem : ∀ flat, expandRules d.rules = .ok flat → d.start ∈ flat.map (·.head)
  /-- Each name in a body is that of a terminal or a head. -/
  names_known : ∀ flat, expandRules d.rules = .ok flat → ∀ rule ∈ flat, ∀ name ∈ rule.body,
    name ∈ d.terminals.map (·.1) ∨ name ∈ flat.map (·.head)
  /-- A binding to a type of node has a field for each item, and names none twice. -/
  node_binds : ∀ rule ∈ d.rules, ∀ nodeType fields, rule.binding = some (.node nodeType fields) →
    fields.length = rule.items.length ∧ (Field.namesOf fields).Nodup
  /-- Only a rule without items has its value suppressed. -/
  suppressed_binds : ∀ rule ∈ d.rules, rule.binding = some .suppressed → rule.items = []
  /-- The text of each pattern is a pattern. -/
  patterns : ∀ entry ∈ d.terminals, (engine entry.2).isSome

/-- **The checks**, by what is checked. -/
inductive Check where
  /-- The head of a rule. -/
  | head (rule : Nat)
  /-- The items of a rule. -/
  | items (rule : Nat)
  /-- The names of the terminals. -/
  | terminals
  /-- The names of the heads. -/
  | heads
  /-- The start. -/
  | start
  /-- The names in the body of a plain rule. -/
  | body (rule : Nat)
  /-- Whether the binding of a plain rule fits its body. -/
  | binding (rule : Nat)
  /-- The fields of the binding of a plain rule. -/
  | fields (rule : Nat)
  /-- The pattern of a terminal. -/
  | pattern (terminal : Nat)

namespace Check

/-- **The order of the checks**: by kind, then by the number of what is checked. -/
def rank : Check → Nat ×ₗ Nat ×ₗ Nat
  | head i => toLex (0, toLex (i, 0))
  | items i => toLex (0, toLex (i, 1))
  | terminals => toLex (1, toLex (0, 0))
  | heads => toLex (2, toLex (0, 0))
  | start => toLex (3, toLex (0, 0))
  | body i => toLex (4, toLex (i, 0))
  | binding i => toLex (4, toLex (i, 1))
  | fields i => toLex (4, toLex (i, 2))
  | pattern i => toLex (5, toLex (i, 0))

/-- The check that is made next, where there is no limit to the rules, and to the terminals. -/
def next : Check → Check
  | head i => items i
  | items i => head (i + 1)
  | terminals => heads
  | heads => start
  | start => body 0
  | body i => binding i
  | binding i => fields i
  | fields i => body (i + 1)
  | pattern i => pattern (i + 1)

/-- **Nothing is between a check and the next one.** -/
theorem eq_or_next_le {c c' : Check} (h : c.rank ≤ c'.rank) : c' = c ∨ c.next.rank ≤ c'.rank := by
  cases c <;> cases c' <;> simp [rank, next, Prod.Lex.toLex_le_toLex] at h ⊢ <;> omega

/-- No check is before that of the head of the first rule. -/
theorem head_zero_le (c : Check) : (head 0).rank ≤ c.rank := by
  cases c <;> simp [rank, Prod.Lex.toLex_le_toLex] <;> omega

/-- A check behind those of all heads is behind those of the rules. -/
theorem terminals_le {c : Check} (h : ∀ i, (head i).rank ≤ c.rank) : terminals.rank ≤ c.rank := by
  cases c with
  | head i => exact absurd (h (i + 1)) (by simp [rank, Prod.Lex.toLex_le_toLex])
  | items i => exact absurd (h (i + 1)) (by simp [rank, Prod.Lex.toLex_le_toLex])
  | _ => simp [rank, Prod.Lex.toLex_le_toLex]

/-- A check behind those of all bodies is behind those of the plain rules. -/
theorem pattern_zero_le {c : Check} (h : ∀ i, (body i).rank ≤ c.rank) :
    (pattern 0).rank ≤ c.rank := by
  cases c with
  | body i => exact absurd (h (i + 1)) (by simp [rank, Prod.Lex.toLex_le_toLex])
  | binding i => exact absurd (h (i + 1)) (by simp [rank, Prod.Lex.toLex_le_toLex])
  | fields i => exact absurd (h (i + 1)) (by simp [rank, Prod.Lex.toLex_le_toLex])
  | pattern i => simp [rank, Prod.Lex.toLex_le_toLex]; omega
  | _ => exact absurd (h 0) (by simp [rank, Prod.Lex.toLex_le_toLex])

end Check

/-- **What a check finds fault with**, and the error that says so. -/
inductive Fault (engine : PatternEngine) (d : Declarations) : Check → BuildError → Prop
  | head {i : Nat} {rule : Rule} (hrule : d.rules[i]? = some rule) (h : IsReserved rule.head) :
      Fault engine d (.head i) (.reservedName rule.head)
  | items {i : Nat} {rule : Rule} {item : Item} {op : UnsupportedOperator}
      (hrule : d.rules[i]? = some rule) (hitem : item.Within rule.items) (h : item.Shows op) :
      Fault engine d (.items i) (.unsupportedOperator op)
  | terminals {name : String} (h : 1 < (d.terminals.map (·.1)).count name) :
      Fault engine d .terminals (.duplicateSymbol name)
  | heads {flat : List FlatRule} {name : String} (hflat : expandRules d.rules = .ok flat)
      (hhead : name ∈ flat.map (·.head)) (hterminal : name ∈ d.terminals.map (·.1)) :
      Fault engine d .heads (.duplicateSymbol name)
  | start {flat : List FlatRule} (hflat : expandRules d.rules = .ok flat)
      (h : d.start ∉ flat.map (·.head)) : Fault engine d .start (.unknownStart d.start)
  | body {flat : List FlatRule} {i : Nat} {rule : FlatRule} {name : String}
      (hflat : expandRules d.rules = .ok flat) (hrule : flat[i]? = some rule)
      (hname : name ∈ rule.body) (hterminal : name ∉ d.terminals.map (·.1))
      (hhead : name ∉ flat.map (·.head)) :
      Fault engine d (.body i) (.undeclaredSymbol rule.head name)
  | binding {i : Nat} {rule : Rule} {b : Binding} {e : BuildError}
      (hrule : d.rules[i]? = some rule) (hbinding : rule.binding = some b)
      (h : b.Misfits rule.head rule.items.length e) : Fault engine d (.binding i) e
  | fields {i : Nat} {rule : Rule} {b : Binding} {e : BuildError}
      (hrule : d.rules[i]? = some rule) (hbinding : rule.binding = some b)
      (h : b.Repeats rule.head e) : Fault engine d (.fields i) e
  | pattern {i : Nat} {entry : String × String} (hentry : d.terminals[i]? = some entry)
      (h : engine entry.2 = none) :
      Fault engine d (.pattern i) (.invalidPattern ⟨entry.1, entry.2⟩)

variable {engine : PatternEngine} {d : Declarations}

/-- **Valid declarations have no fault.** -/
theorem Valid.not_fault (hvalid : d.Valid engine) {c : Check} {e : BuildError} :
    ¬ d.Fault engine c e := by
  intro hfault
  cases hfault with
  | head hrule h => exact hvalid.heads_unreserved _ (List.mem_of_getElem? hrule) h
  | items hrule hitem h =>
    exact (hvalid.items_supported _ (List.mem_of_getElem? hrule) _ hitem).not_shows h
  | terminals h => exact not_one_lt_count_of_nodup hvalid.terminals_nodup h
  | heads hflat hhead hterminal => exact hvalid.heads_disjoint _ hflat _ hhead hterminal
  | start hflat h => exact h (hvalid.start_mem _ hflat)
  | body hflat hrule hname hterminal hhead =>
    rcases hvalid.names_known _ hflat _ (List.mem_of_getElem? hrule) _ hname with h | h
    · exact hterminal h
    · exact hhead h
  | binding hrule hbinding h =>
    cases h with
    | arity hne => exact hne (hvalid.node_binds _ (List.mem_of_getElem? hrule) _ _ hbinding).1
    | suppressed hne =>
      have hnil := hvalid.suppressed_binds _ (List.mem_of_getElem? hrule) hbinding
      simp [hnil] at hne
  | fields hrule hbinding h =>
    cases h with
    | field hcount =>
      have hnodup := (hvalid.node_binds _ (List.mem_of_getElem? hrule) _ _ hbinding).2
      exact not_one_lt_count_of_nodup hnodup hcount
  | pattern hentry h =>
    have hpattern := hvalid.patterns _ (List.mem_of_getElem? hentry)
    simp [h] at hpattern

/-! ## Along the order of the checks -/

/-- **No fault is before a check.** -/
def PassesUpTo (engine : PatternEngine) (d : Declarations) (c : Check) : Prop :=
  ∀ c' e, d.Fault engine c' e → c.rank ≤ c'.rank

/-- Where a check has no fault, none is before the next. -/
theorem PassesUpTo.next {c : Check} (h : d.PassesUpTo engine c)
    (hnone : ∀ e, ¬ d.Fault engine c e) : d.PassesUpTo engine c.next := by
  intro c' e hfault
  rcases Check.eq_or_next_le (h c' e hfault) with rfl | hle
  · exact absurd hfault (hnone e)
  · exact hle

theorem passesUpTo_head (i : Nat)
    (h : ∀ j < i, ∀ rule, d.rules[j]? = some rule → rule.IsSupported) :
    d.PassesUpTo engine (.head i) := by
  induction i with
  | zero => exact fun c' _ _ => Check.head_zero_le c'
  | succ i ih =>
    refine ((ih fun j hj => h j (by omega)).next ?_).next ?_
    · intro e hfault
      cases hfault with
      | head hrule hreserved => exact (h i (Nat.lt_succ_self i) _ hrule).1 hreserved
    · intro e hfault
      cases hfault with
      | items hrule hitem hshows =>
        exact ((h i (Nat.lt_succ_self i) _ hrule).2 _ hitem).not_shows hshows

theorem passesUpTo_terminals (h : ∀ rule ∈ d.rules, rule.IsSupported) :
    d.PassesUpTo engine .terminals := by
  intro c' e hfault
  refine Check.terminals_le fun i => passesUpTo_head i ?_ c' e hfault
  exact fun j _ rule hrule => h rule (List.mem_of_getElem? hrule)

section Flat

variable {flat : List FlatRule} (hflat : expandRules d.rules = .ok flat)

include hflat

theorem passesUpTo_start
    (hnames : checkNames (d.terminals.map (·.1)) (headsOf flat) = .ok ()) :
    d.PassesUpTo engine .start := by
  obtain ⟨hnodup, hdisjoint⟩ := checkNames_eq_ok.mp hnames
  refine ((passesUpTo_terminals (supported_of_expandRules hflat)).next ?_).next ?_
  · intro e hfault
    cases hfault with
    | terminals hcount => exact not_one_lt_count_of_nodup hnodup hcount
  · intro e hfault
    cases hfault with
    | heads hflat' hhead hterminal =>
      cases hflat.symm.trans hflat'
      exact hdisjoint _ (List.mem_eraseDups.mpr hhead) hterminal

/-- **The binding of a declared rule fits** if the plain rule with its number is made a
production. -/
theorem fits_of_toProduction {i : Nat} {rule : Rule} {b : Binding}
    (h : ∀ flatRule, flat[i]? = some flatRule →
      ∃ p, flatRule.toProduction (d.terminals.map (·.1)) (headsOf flat) = .ok p)
    (hrule : d.rules[i]? = some rule) (hbinding : rule.binding = some b) (e : BuildError) :
    ¬ b.Misfits rule.head rule.items.length e ∧ ¬ b.Repeats rule.head e := by
  obtain ⟨flatRule, hflatRule, hbecomes⟩ := exists_flatRule_of_expandRules hflat hrule
  obtain ⟨p, hto⟩ := h flatRule hflatRule
  have hcheck := (FlatRule.known_of_toProduction hto).2
  rw [hbecomes.head_eq, hbecomes.length_body, hbecomes.binding_eq, hbinding] at hcheck
  exact fits_of_checkBinding hcheck

/-- A plain rule that is made a production has no fault. -/
theorem not_fault_of_toProduction {i : Nat}
    (h : ∀ rule, flat[i]? = some rule →
      ∃ p, rule.toProduction (d.terminals.map (·.1)) (headsOf flat) = .ok p) (e : BuildError) :
    ¬ d.Fault engine (.body i) e ∧ ¬ d.Fault engine (.binding i) e ∧
      ¬ d.Fault engine (.fields i) e := by
  refine ⟨fun hfault => ?_, fun hfault => ?_, fun hfault => ?_⟩
  · cases hfault with
    | body hflat' hrule hname hterminal hhead =>
      cases hflat.symm.trans hflat'
      obtain ⟨p, hto⟩ := h _ hrule
      rcases (FlatRule.known_of_toProduction hto).1 _ hname with hknown | hknown
      · exact hterminal hknown
      · exact hhead (List.mem_eraseDups.mp hknown)
  · cases hfault with
    | binding hrule hbinding hmisfits =>
      exact (fits_of_toProduction hflat h hrule hbinding e).1 hmisfits
  · cases hfault with
    | fields hrule hbinding hrepeats =>
      exact (fits_of_toProduction hflat h hrule hbinding e).2 hrepeats

theorem passesUpTo_body (hnames : checkNames (d.terminals.map (·.1)) (headsOf flat) = .ok ())
    (hstart : d.start ∈ headsOf flat) (i : Nat)
    (h : ∀ j < i, ∀ rule, flat[j]? = some rule →
      ∃ p, rule.toProduction (d.terminals.map (·.1)) (headsOf flat) = .ok p) :
    d.PassesUpTo engine (.body i) := by
  induction i with
  | zero =>
    refine (passesUpTo_start hflat hnames).next fun e hfault => ?_
    cases hfault with
    | start hflat' hmissing =>
      cases hflat.symm.trans hflat'
      exact hmissing (List.mem_eraseDups.mp hstart)
  | succ i ih =>
    have hto := h i (Nat.lt_succ_self i)
    have hbefore : d.PassesUpTo engine (.body i) := ih fun j hj => h j (by omega)
    refine ((hbefore.next fun e => ?_).next fun e => ?_).next fun e => ?_
    · exact (not_fault_of_toProduction hflat hto e).1
    · exact (not_fault_of_toProduction hflat hto e).2.1
    · exact (not_fault_of_toProduction hflat hto e).2.2

theorem passesUpTo_pattern (hnames : checkNames (d.terminals.map (·.1)) (headsOf flat) = .ok ())
    (hstart : d.start ∈ headsOf flat)
    (hproductions : ∀ rule ∈ flat,
      ∃ p, rule.toProduction (d.terminals.map (·.1)) (headsOf flat) = .ok p) (i : Nat)
    (h : ∀ j < i, ∀ entry, d.terminals[j]? = some entry → engine entry.2 ≠ none) :
    d.PassesUpTo engine (.pattern i) := by
  induction i with
  | zero =>
    intro c' e hfault
    refine Check.pattern_zero_le fun i => passesUpTo_body hflat hnames hstart i ?_ c' e hfault
    exact fun j _ rule hrule => hproductions rule (List.mem_of_getElem? hrule)
  | succ i ih =>
    refine (ih fun j hj => h j (by omega)).next fun e hfault => ?_
    cases hfault with
    | pattern hentry hnone => exact h i (Nat.lt_succ_self i) _ hentry hnone

end Flat

/-! ## The first fault -/

/-- Where a build fails, the checks before have passed. -/
theorem cases_of_build_eq_error {e : BuildError} (h : d.build engine = .error e) :
    expandRules d.rules = .error e ∨ ∃ flat, expandRules d.rules = .ok flat ∧
      (checkNames (d.terminals.map (·.1)) (headsOf flat) = .error e ∨
        checkNames (d.terminals.map (·.1)) (headsOf flat) = .ok () ∧
          (d.start ∉ headsOf flat ∧ e = .unknownStart d.start ∨ d.start ∈ headsOf flat ∧
            (flat.mapM (·.toProduction (d.terminals.map (·.1)) (headsOf flat)) = .error e ∨
              (∀ rule ∈ flat,
                ∃ p, rule.toProduction (d.terminals.map (·.1)) (headsOf flat) = .ok p) ∧
                ∃ e', Lexicon.build engine d.terminals = .error e' ∧ e = .invalidPattern e'))) := by
  -- one case for each step of the build that can fail, the others having succeeded
  rcases bind_eq_error.mp h with hrules | ⟨flat, hflat, h⟩
  · exact .inl hrules
  refine .inr ⟨flat, hflat, ?_⟩
  rcases bind_eq_error.mp h with hnames | ⟨⟨⟩, hnames, h⟩
  · exact .inl hnames
  refine .inr ⟨hnames, ?_⟩
  split at h
  · rename_i hstart
    cases h
    exact .inl ⟨List.idxOf?_eq_none_iff.mp hstart, rfl⟩
  · rename_i start hstart
    refine .inr ⟨List.mem_of_getElem? (getElem?_of_idxOf? hstart), ?_⟩
    rcases bind_eq_error.mp h with hproductions | ⟨productions, hproductions, h⟩
    · exact .inl hproductions
    · have hforall := mapM_eq_ok.mp hproductions
      refine .inr ⟨fun rule hrule => ?_, ?_⟩
      · obtain ⟨p, -, hto⟩ := exists_of_mem_left hforall hrule
        exact ⟨p, hto⟩
      · cases hlexicon : Lexicon.build engine d.terminals with
        | ok lexicon => simp [hlexicon, Except.mapError, bind, Except.bind, pure, Except.pure] at h
        | error e' =>
          refine ⟨e', rfl, ?_⟩
          simpa [hlexicon, Except.mapError, bind, Except.bind, eq_comm] using h

/-- What stands in a list before a place is in the part before that place. -/
theorem mem_of_getElem?_append {α : Type} {before rest : List α} {j : Nat} {x : α}
    (hj : j < before.length) (h : (before ++ rest)[j]? = some x) : x ∈ before := by
  rw [List.getElem?_append_left hj] at h
  exact List.mem_of_getElem? h

theorem getElem?_append_length {α : Type} {before after : List α} {x : α} :
    (before ++ x :: after)[before.length]? = some x := by
  rw [List.getElem?_append_right (Nat.le_refl _), Nat.sub_self]
  rfl

/-- A rule that cannot be expanded is the first fault. -/
theorem exists_fault_of_expandRules {e : BuildError} (h : expandRules d.rules = .error e) :
    ∃ c, d.Fault engine c e ∧ d.PassesUpTo engine c := by
  obtain ⟨before, rule, after, hsplit, hbefore, hblamed⟩ :=
    exists_of_expandDeclared_eq_error (expandRules_eq_error.mp h)
  have hrule : d.rules[before.length]? = some rule := hsplit ▸ getElem?_append_length
  have hpasses : d.PassesUpTo engine (.head before.length) := by
    refine passesUpTo_head _ fun j hj earlier hearlier => hbefore earlier ?_
    exact mem_of_getElem?_append hj (hsplit ▸ hearlier)
  rcases hblamed with ⟨hreserved, rfl⟩ | ⟨hunreserved, item, op, hitem, hshows, rfl⟩
  · exact ⟨_, .head hrule hreserved, hpasses⟩
  · refine ⟨_, .items hrule hitem hshows, hpasses.next fun e hfault => ?_⟩
    cases hfault with
    | head hrule' hreserved =>
      cases hrule.symm.trans hrule'
      exact hunreserved hreserved

section Flat

variable {flat : List FlatRule} (hflat : expandRules d.rules = .ok flat)

include hflat

/-- A name that is declared as two symbols is the first fault. -/
theorem exists_fault_of_checkNames {e : BuildError}
    (h : checkNames (d.terminals.map (·.1)) (headsOf flat) = .error e) :
    ∃ c, d.Fault engine c e ∧ d.PassesUpTo engine c := by
  have hpasses : d.PassesUpTo engine .terminals :=
    passesUpTo_terminals (supported_of_expandRules hflat)
  obtain ⟨name, rfl, hcount | ⟨hnodup, hhead, hterminal⟩⟩ := exists_of_checkNames_eq_error h
  · exact ⟨_, .terminals hcount, hpasses⟩
  · refine ⟨_, .heads hflat (List.mem_eraseDups.mp hhead) hterminal,
      hpasses.next fun e hfault => ?_⟩
    cases hfault with
    | terminals hcount => exact not_one_lt_count_of_nodup hnodup hcount

/-- A plain rule that is made no production is the first fault, by its body or by its binding. -/
theorem exists_fault_of_productions {e : BuildError}
    (hnames : checkNames (d.terminals.map (·.1)) (headsOf flat) = .ok ())
    (hstart : d.start ∈ headsOf flat)
    (h : flat.mapM (·.toProduction (d.terminals.map (·.1)) (headsOf flat)) = .error e) :
    ∃ c, d.Fault engine c e ∧ d.PassesUpTo engine c := by
  obtain ⟨before, flatRule, after, hsplit, hbefore, hfails⟩ := exists_first_of_mapM_eq_error h
  have hrule : flat[before.length]? = some flatRule := hsplit ▸ getElem?_append_length
  have hpasses : d.PassesUpTo engine (.body before.length) := by
    refine passesUpTo_body hflat hnames hstart _ fun j hj earlier hearlier => hbefore earlier ?_
    exact mem_of_getElem?_append hj (hsplit ▸ hearlier)
  rcases FlatRule.blamed_of_toProduction hfails with
    ⟨name, hname, hterminal, hhead, rfl⟩ | ⟨hknown, hcheck⟩
  · exact ⟨_, .body hflat hrule hname hterminal (mt List.mem_eraseDups.mpr hhead), hpasses⟩
  obtain ⟨b, hb, hblamed⟩ := exists_of_checkBinding_eq_error hcheck
  obtain ⟨rule, hdeclared, hbecomes⟩ :=
    exists_rule_of_expandRules hflat hrule (by rw [hb]; exact Option.some_ne_none b)
  have hbinding : rule.binding = some b := hbecomes.binding_eq.symm.trans hb
  rw [hbecomes.head_eq, hbecomes.length_body] at hblamed
  have hpasses' : d.PassesUpTo engine (.binding before.length) := by
    refine hpasses.next fun e hfault => ?_
    cases hfault with
    | body hflat' hrule' hname hterminal hhead =>
      cases hflat.symm.trans hflat'
      cases hrule.symm.trans hrule'
      rcases hknown _ hname with h | h
      · exact hterminal h
      · exact hhead (List.mem_eraseDups.mp h)
  rcases hblamed with hmisfits | ⟨hfits, hrepeats⟩
  · exact ⟨_, .binding hdeclared hbinding hmisfits, hpasses'⟩
  · refine ⟨_, .fields hdeclared hbinding hrepeats, hpasses'.next fun e hfault => ?_⟩
    cases hfault with
    | binding hdeclared' hbinding' hmisfits =>
      cases hdeclared.symm.trans hdeclared'
      cases hbinding.symm.trans hbinding'
      exact hfits _ hmisfits

end Flat

/-- **An error is a fault of the first check that has one.** -/
theorem exists_first_fault (hspace : (engine LexRule.whitespacePattern).isSome) {e : BuildError}
    (h : d.build engine = .error e) : ∃ c, d.Fault engine c e ∧ d.PassesUpTo engine c := by
  rcases cases_of_build_eq_error h with hrules | ⟨flat, hflat, h⟩
  · exact exists_fault_of_expandRules hrules
  rcases h with hnames | ⟨hnames, h⟩
  · exact exists_fault_of_checkNames hflat hnames
  rcases h with ⟨hstart, rfl⟩ | ⟨hstart, h⟩
  · refine ⟨_, .start hflat (mt List.mem_eraseDups.mpr hstart), passesUpTo_start hflat hnames⟩
  rcases h with hproductions | ⟨hproductions, e', hlexicon, rfl⟩
  · exact exists_fault_of_productions hflat hnames hstart hproductions
  · obtain ⟨before, entry, after, hsplit, hbefore, hnone, rfl⟩ :=
      Lexicon.exists_of_build_eq_error hspace hlexicon
    have hentry : d.terminals[before.length]? = some entry := hsplit ▸ getElem?_append_length
    refine ⟨_, .pattern hentry hnone, passesUpTo_pattern hflat hnames hstart hproductions _ ?_⟩
    intro j hj earlier hearlier
    exact hbefore earlier (mem_of_getElem?_append hj (hsplit ▸ hearlier))

/-! ## Valid declarations -/

/-- **What is built is valid.** -/
theorem valid_of_build {g : Grammar} (h : d.build engine = .ok g) : d.Valid engine := by
  obtain ⟨flat, start, productions, lexicon, hflat, hnames, hstart, hproductions, hlexicon, -⟩ :=
    build_eq_ok.mp h
  obtain ⟨hnodup, hdisjoint⟩ := checkNames_eq_ok.mp hnames
  have hsupported := supported_of_expandRules hflat
  have hto (rule : FlatRule) (hrule : rule ∈ flat) :
      ∃ p, rule.toProduction (d.terminals.map (·.1)) (headsOf flat) = .ok p := by
    obtain ⟨p, -, hp⟩ := exists_of_mem_left hproductions hrule
    exact ⟨p, hp⟩
  have hfits {rule : Rule} {b : Binding} (hrule : rule ∈ d.rules) (hb : rule.binding = some b)
      (e : BuildError) : ¬ b.Misfits rule.head rule.items.length e ∧ ¬ b.Repeats rule.head e := by
    obtain ⟨i, hi⟩ := List.mem_iff_getElem?.mp hrule
    apply fits_of_toProduction hflat _ hi hb e
    exact fun flatRule h => hto flatRule (List.mem_of_getElem? h)
  constructor
  case heads_unreserved => exact fun rule hrule => (hsupported rule hrule).1
  case items_supported => exact fun rule hrule => (hsupported rule hrule).2
  case terminals_nodup => exact hnodup
  case heads_disjoint =>
    intro flat' hflat' head hhead
    cases hflat.symm.trans hflat'
    exact hdisjoint head (List.mem_eraseDups.mpr hhead)
  case start_mem =>
    intro flat' hflat'
    cases hflat.symm.trans hflat'
    exact List.mem_eraseDups.mp (List.mem_of_getElem? (getElem?_of_idxOf? hstart))
  case names_known =>
    intro flat' hflat' rule hrule name hname
    cases hflat.symm.trans hflat'
    obtain ⟨p, hp⟩ := hto rule hrule
    have hknown := (FlatRule.known_of_toProduction hp).1 name hname
    exact hknown.imp_right List.mem_eraseDups.mp
  case node_binds =>
    intro rule hrule nodeType fields hb
    constructor
    · by_contra hne
      exact (hfits hrule hb _).1 (.arity hne)
    · refine List.nodup_iff_count_le_one.mpr fun field => Nat.le_of_not_lt fun hcount => ?_
      exact (hfits hrule hb _).2 (.field hcount)
  case suppressed_binds =>
    intro rule hrule hb
    by_contra hne
    exact (hfits hrule hb _).1 (.suppressed (mt List.length_eq_zero_iff.mp hne))
  case patterns =>
    intro entry hentry
    obtain ⟨rule, -, hrule⟩ := exists_of_mem_left (Lexicon.build_eq_ok.mp hlexicon)
      (List.mem_cons_of_mem _ hentry)
    obtain ⟨find, hfind, -⟩ := LexRule.build_eq_ok.mp hrule
    simp [hfind]

/-- **A grammar is built just if the declarations are valid**, that is, if no check finds fault with
them. The rules are expanded just if no head is reserved and all items can be expanded. An error is
what some check finds fault with, and no check before that one finds fault with anything. -/
theorem build_faults (engine : PatternEngine) (d : Declarations)
    (hspace : (engine LexRule.whitespacePattern).isSome) :
    ((∃ g, d.build engine = .ok g) ↔ d.Valid engine) ∧
    (d.Valid engine ↔ ∀ c e, ¬ d.Fault engine c e) ∧
    ((∃ flat, expandRules d.rules = .ok flat) ↔ ∀ rule ∈ d.rules, ¬ IsReserved rule.head ∧
      ∀ item : Item, item.Within rule.items → item.IsSupported) ∧
    ∀ e, d.build engine = .error e → ∃ c, d.Fault engine c e ∧
      ∀ c' e', d.Fault engine c' e' → c.rank ≤ c'.rank := by
  have hbuilds (hnone : ∀ c e, ¬ d.Fault engine c e) : ∃ g, d.build engine = .ok g := by
    cases h : d.build engine with
    | ok g => exact ⟨g, rfl⟩
    | error e =>
      obtain ⟨c, hfault, -⟩ := exists_first_fault hspace h
      exact absurd hfault (hnone c e)
  have hvalid (h : ∃ g, d.build engine = .ok g) : d.Valid engine := by
    obtain ⟨g, hg⟩ := h
    exact valid_of_build hg
  refine ⟨⟨hvalid, ?_⟩, ⟨?_, ?_⟩, expandRules_isOk_iff, ?_⟩
  · intro h
    exact hbuilds fun _ _ => h.not_fault
  · intro h _ _
    exact h.not_fault
  · intro hnone
    exact hvalid (hbuilds hnone)
  · intro e h
    exact exists_first_fault hspace h

/-- Groups of letters are valid. Of a tangle of faults the terminal that is declared twice is the
first one. -/
theorem build_faults_samples : (Pattern.engine LexRule.whitespacePattern).isSome ∧
    Samples.groups.Valid Pattern.engine ∧ ¬ Samples.tangled.Valid Pattern.engine ∧
    Samples.tangled.build Pattern.engine = .error (.duplicateSymbol "a") ∧
    ∃ c, Samples.tangled.Fault Pattern.engine c (.duplicateSymbol "a") ∧
      ∀ c' e', Samples.tangled.Fault Pattern.engine c' e' → c.rank ≤ c'.rank := by
  have hspace : (Pattern.engine LexRule.whitespacePattern).isSome := by decide +kernel
  have hgroups : ((Samples.groups.build Pattern.engine).toOption.map fun _ => ()) = some () := by
    decide +kernel
  simp only [Option.map_eq_some_iff, toOption_eq_some, and_true] at hgroups
  have htangled : Samples.tangled.build Pattern.engine = .error (.duplicateSymbol "a") := rfl
  obtain ⟨hvalid, -, -, -⟩ := build_faults Pattern.engine Samples.groups hspace
  obtain ⟨hvalid', -, -, hfirst⟩ := build_faults Pattern.engine Samples.tangled hspace
  refine ⟨hspace, hvalid.mp hgroups, fun h => ?_, htangled, hfirst _ htangled⟩
  obtain ⟨g, hg⟩ := hvalid'.mpr h
  rw [htangled] at hg
  cases hg

end Declarations

end PredictiveParsing
