import PredictiveParsing.Proofs.Grammar.Explained
import PredictiveParsing.Proofs.Parse.Soundness
import PredictiveParsing.Proofs.Tree.Meaning

/-!
# The values of repetitions

A grammar has no repetitions any more, but the values of its trees still show them. What a text is
read as can be told by the declared rules alone: items are read one after the other, a repetition in
rounds. Its value is a chain with a tuple for each round, or a tuple of at most one round. A chain
is made with the tuples of the rules for a fresh name, in which the rest of the chain is the value
of the name itself; at least one round is a tuple of the same form, whose last component is made by
the rules for another name.

That the values of trees are such values is seen rule by rule: it is a meaning that each plain rule
keeps.

## Main definitions

* `Round`, `Value.chain`: a round of a repetition, and the value of any number of rounds
* `Declarations.Reads`: items are read from tokens, with their values
* `Declarations.reading`: this as a meaning of the values of plain rules

## Main results

* `Declarations.Reads.length_values`: each item has one value
* `Declarations.keeps_reading`: a plain rule makes the values with which items are read
* `Compiled.parse_reads`: the value of a parse is one with which its tokens are read
-/

namespace PredictiveParsing

/-- **A round of a repetition**: the tokens from which it is read, each by the name of its terminal
and its text, and the values of the items. -/
structure Round where
  /-- The tokens of the round. -/
  lexemes : List (String × String)
  /-- The values of the items. -/
  values : List Value

/-- **A chain of rounds**: the tuple of the values of a round and, behind them, of the chain of the
rounds that come after it. -/
def Value.chain : List Round → Value
  | [] => .empty
  | round :: rounds => .tuple (round.values ++ [chain rounds])

/-- The value that a rule makes from the values of its items: only the binding matters. -/
def Rule.value (rule : Rule) : List Value → Value := Production.value ⟨0, [], rule.binding⟩

theorem Production.value_eq {p : Production} {rule : Rule} (h : p.binding = rule.binding) :
    p.value = rule.value := by
  funext values
  rw [Rule.value, Production.value, Production.value, h]

/-- **Items are read from tokens, with a value for each of them.** The value of a symbol is the text
of its token, or what one of its rules makes of the values of its items. The value of any number of
rounds is their chain; at most one round is nothing or the tuple of its values; and at least one
round is the tuple of the values of the first round and of the chain of the others. -/
inductive Declarations.Reads (d : Declarations) :
    List Item → List (String × String) → List Value → Prop
  | nil : Reads d [] [] []
  | token {name text : String} {items : List Item} {ls : List (String × String)} {vs : List Value}
      (hname : name ∈ d.terminals.map (·.1)) (hrest : Reads d items ls vs) :
      Reads d (.symbol name :: items) ((name, text) :: ls) (.token text :: vs)
  | rule {rule : Rule} {items : List Item} {ls ms : List (String × String)} {vs ws : List Value}
      (hrule : rule ∈ d.rules) (hinner : Reads d rule.items ls vs) (hrest : Reads d items ms ws) :
      Reads d (.symbol rule.head :: items) (ls ++ ms) (rule.value vs :: ws)
  | anyNumber {inner items : List Item} {rounds : List Round} {ms : List (String × String)}
      {ws : List Value} (hrounds : ∀ round ∈ rounds, Reads d inner round.lexemes round.values)
      (hrest : Reads d items ms ws) :
      Reads d (.repeated inner (.finite 0) .infinite :: items)
        (rounds.flatMap (·.lexemes) ++ ms) (.chain rounds :: ws)
  | atMostNone {inner items : List Item} {ms : List (String × String)} {ws : List Value}
      (hrest : Reads d items ms ws) :
      Reads d (.repeated inner (.finite 0) (.finite 1) :: items) ms (.empty :: ws)
  | atMostOne {inner items : List Item} {round : Round} {ms : List (String × String)}
      {ws : List Value} (hround : Reads d inner round.lexemes round.values)
      (hrest : Reads d items ms ws) :
      Reads d (.repeated inner (.finite 0) (.finite 1) :: items)
        (round.lexemes ++ ms) (.tuple round.values :: ws)
  | atLeastOne {inner items : List Item} {first : Round} {rounds : List Round}
      {ms : List (String × String)} {ws : List Value}
      (hfirst : Reads d inner first.lexemes first.values)
      (hrounds : ∀ round ∈ rounds, Reads d inner round.lexemes round.values)
      (hrest : Reads d items ms ws) :
      Reads d (.repeated inner (.finite 1) .infinite :: items)
        (first.lexemes ++ rounds.flatMap (·.lexemes) ++ ms)
        (.tuple (first.values ++ [.chain rounds]) :: ws)

namespace Declarations

namespace Reads

variable {d : Declarations} {items items' inner : List Item} {ls ms : List (String × String)}
  {vs ws : List Value} {v : Value}

/-- **Each item has one value.** -/
theorem length_values (h : d.Reads items ls vs) : vs.length = items.length := by
  induction h with
  | nil => rfl
  | token _ _ ih => simp [ih]
  | rule _ _ _ _ ih => simp [ih]
  | anyNumber _ _ _ ih => simp [ih]
  | atMostNone _ ih => simp [ih]
  | atMostOne _ _ _ ih => simp [ih]
  | atLeastOne _ _ _ _ _ ih => simp [ih]

/-- A round of a repetition that can be expanded has a value. -/
theorem ne_nil {low high : Bound} (h : d.Reads inner ls vs)
    (hsupported : (Item.repeated inner low high).IsSupported) : vs ≠ [] := by
  rintro rfl
  cases hsupported with
  | repeated hne _ => exact hne (List.length_eq_zero_iff.mp h.length_values.symm)

theorem append (h : d.Reads items ls vs) (h' : d.Reads items' ms ws) :
    d.Reads (items ++ items') (ls ++ ms) (vs ++ ws) := by
  induction h with
  | nil => exact h'
  | token hname _ ih => exact .token hname ih
  | rule hrule hinner _ _ ih => rw [List.append_assoc]; exact .rule hrule hinner ih
  | anyNumber hrounds _ _ ih => rw [List.append_assoc]; exact .anyNumber hrounds ih
  | atMostNone _ ih => exact .atMostNone ih
  | atMostOne hround _ _ ih => rw [List.append_assoc]; exact .atMostOne hround ih
  | atLeastOne hfirst hrounds _ _ _ ih =>
    rw [List.append_assoc]
    exact .atLeastOne hfirst hrounds ih

/-- Any number of rounds are read one after the other. -/
theorem exists_rounds (h : d.Reads [.repeated inner (.finite 0) .infinite] ls [v]) :
    ∃ rounds : List Round, (∀ round ∈ rounds, d.Reads inner round.lexemes round.values) ∧
      ls = rounds.flatMap (·.lexemes) ∧ v = .chain rounds := by
  cases h with
  | @anyNumber _ _ rounds ms _ hrounds hrest =>
    cases hrest
    exact ⟨rounds, hrounds, List.append_nil _, rfl⟩

end Reads

/-! ## What plain rules keep -/

/-- **The value of a symbol is one with which the items for which its name stands are read.** -/
def reading (d : Declarations) (flat : List FlatRule) : Meaning := fun name v ls =>
  ∀ item : Item, Stands flat [item] [name] → Item.AllSupported [item] → d.Reads [item] ls [v]

variable {d : Declarations} {flat : List FlatRule}

/-- Where names stand for items, values of the names are values of the items. -/
theorem reads_of_each {items : List Item} {names : List String} {vs : List Value}
    {ls : List (String × String)} (hstands : Stands flat items names)
    (hitems : Item.AllSupported items) (h : (d.reading flat).Each names vs ls) :
    d.Reads items ls vs := by
  induction items generalizing names vs ls with
  | nil =>
    cases hstands
    obtain ⟨rfl, rfl⟩ := Meaning.Each.nil_iff.mp h
    exact .nil
  | cons item items ih =>
    obtain ⟨name, rest, rfl, hitem, hrest⟩ := hstands.exists_of_cons
    obtain ⟨v, vs, ls, ms, rfl, rfl, hv, hvs⟩ := Meaning.Each.cons_iff.mp h
    obtain ⟨hfirst, hinner, hsupported⟩ := Item.allSupported_cons.mp hitems
    have hone : Item.AllSupported [item] := Item.allSupported_cons.mpr
      ⟨hfirst, hinner, fun _ hx => (Item.not_within_nil hx).elim⟩
    exact (hv item hitem hone).append (ih hrest hsupported hvs)

/-- The values of a body for one more round are those of a round, and the chain of the others. -/
theorem exists_round {inner : List Item} {body : List String} {name : String} {vs : List Value}
    {ls : List (String × String)} (hinner : Stands flat inner body)
    (hsupported : Item.AllSupported inner)
    (hname : Stands flat [.repeated inner (.finite 0) .infinite] [name])
    (hname' : Item.AllSupported [.repeated inner (.finite 0) .infinite])
    (h : (d.reading flat).Each (body ++ [name]) vs ls) :
    ∃ (round : Round) (rounds : List Round), d.Reads inner round.lexemes round.values ∧
      (∀ other ∈ rounds, d.Reads inner other.lexemes other.values) ∧
      ls = round.lexemes ++ rounds.flatMap (·.lexemes) ∧ vs = round.values ++ [.chain rounds] := by
  obtain ⟨vs, ws, ls, ms, rfl, rfl, hvs, hws⟩ := h.exists_of_append
  obtain ⟨w, ws, ms, ms', rfl, rfl, hw, hrest⟩ := Meaning.Each.cons_iff.mp hws
  obtain ⟨rfl, rfl⟩ := Meaning.Each.nil_iff.mp hrest
  obtain ⟨rounds, hrounds, rfl, rfl⟩ := (hw _ hname hname').exists_rounds
  exact ⟨⟨ls, vs⟩, rounds, reads_of_each hinner hsupported hvs, hrounds, by simp, rfl⟩

/-- **A plain rule makes the values with which items are read.** -/
theorem keeps_reading (hexplains : Rule.Explains d.rules flat)
    (hsupported : ∀ rule ∈ d.rules, Item.AllSupported rule.items) {flatRule : FlatRule}
    (hrule : flatRule ∈ flat) : (d.reading flat).Keeps flatRule := by
  intro p vs ls hbinding heach item hstands hitem
  obtain ⟨hself, hwithin, -⟩ := Item.allSupported_cons.mp hitem
  have hmem : flatRule.body ∈ FlatRule.bodiesOf flat flatRule.head :=
    FlatRule.expands_iff.mp (.alternative hrule)
  have htuple (hname : IsReserved flatRule.head) (hne : vs ≠ []) : p.value vs = .tuple vs := by
    rw [Production.value, hbinding, hexplains.unbound flatRule hrule hname]
    simp [hne]
  have hempty (hname : IsReserved flatRule.head) (hnil : vs = []) : p.value vs = .empty := by
    rw [Production.value, hbinding, hexplains.unbound flatRule hrule hname, hnil]
    rfl
  cases hstands with
  | symbol hname _ =>
    obtain ⟨rule, hdeclared, hbecomes, hbody⟩ := hexplains.declared flatRule hrule hname
    rw [hbecomes.head_eq, Production.value_eq (hbinding.trans hbecomes.binding_eq)]
    have hinner := reads_of_each hbody (hsupported rule hdeclared) heach
    simpa using Reads.rule hdeclared hinner .nil
  | anyNumber hname hinner hbodies _ =>
    rw [hbodies, List.mem_pair] at hmem
    rcases hmem with hbody | hbody
    · rw [hbody] at heach
      obtain ⟨round, rounds, hround, hrounds, rfl, rfl⟩ :=
        exists_round hinner hwithin (.anyNumber hname hinner hbodies .nil) hitem heach
      rw [htuple hname (by simp)]
      have hall : ∀ r ∈ round :: rounds, d.Reads _ r.lexemes r.values :=
        List.forall_mem_cons.mpr ⟨hround, hrounds⟩
      simpa [Value.chain] using Reads.anyNumber hall .nil
    · rw [hbody] at heach
      obtain ⟨rfl, rfl⟩ := Meaning.Each.nil_iff.mp heach
      rw [hempty hname rfl]
      exact .anyNumber (List.forall_mem_nil _) .nil
  | optional hname hinner hbodies _ =>
    rw [hbodies, List.mem_pair] at hmem
    rcases hmem with hbody | hbody
    · rw [hbody] at heach
      let round : Round := ⟨ls, vs⟩
      have hround : d.Reads _ round.lexemes round.values := reads_of_each hinner hwithin heach
      rw [htuple hname (hround.ne_nil hself)]
      simpa using Reads.atMostOne hround .nil
    · rw [hbody] at heach
      obtain ⟨rfl, rfl⟩ := Meaning.Each.nil_iff.mp heach
      rw [hempty hname rfl]
      exact .atMostNone .nil
  | atLeastOne hname hinner hmore hbodies _ =>
    rw [hbodies, List.mem_singleton] at hmem
    rw [hmem] at heach
    -- the rounds behind the first one are read by another name for any number of them
    have hany : Item.AllSupported [.repeated _ (.finite 0) .infinite] :=
      hitem.rebound (by decide)
    obtain ⟨round, rounds, hround, hrounds, rfl, rfl⟩ :=
      exists_round hinner hwithin hmore hany heach
    rw [htuple hname (by simp)]
    simpa using Reads.atLeastOne hround hrounds .nil

/-! ## Parses -/

/-- **The item for which the start symbol stands**: itself, unless its name is reserved. Then it is
the fresh name for a repetition that some rule writes. -/
def IsRoot (d : Declarations) (item : Item) : Prop :=
  if IsReserved d.start then item.Repeats (d.rules.flatMap (·.items)) else item = .symbol d.start

variable {engine : PatternEngine} {g : Grammar}

/-- The start symbol stands for an item that can be expanded. -/
theorem exists_isRoot (hbuild : d.build engine = .ok g)
    (hexplains : Rule.Explains d.rules (g.productions.toList.map g.ruleOf))
    (hsupported : ∀ rule ∈ d.rules, Item.AllSupported rule.items) :
    ∃ item, d.IsRoot item ∧ Stands (g.productions.toList.map g.ruleOf) [item] [d.start] ∧
      Item.AllSupported [item] := by
  have wf := wellFormed_of_build hbuild
  unfold IsRoot
  split
  · rename_i hreserved
    obtain ⟨p, hp⟩ := List.exists_mem_of_ne_nil _ (wf.alternatives_ne_nil g.start wf.start_lt)
    obtain ⟨production, hproduction, -, hhead, -⟩ := wf.exists_production hp
    have hname : (g.ruleOf production).head = d.start := by
      rw [Grammar.ruleOf, hhead, nonterminalName_start_of_build hbuild]
    obtain ⟨item, hitem, hstands⟩ := hexplains.reserved (g.ruleOf production)
      (List.mem_map_of_mem (Array.mem_toList_iff.mpr hproduction)) (hname ▸ hreserved)
    refine ⟨item, hitem, hname ▸ hstands, hitem.allSupported ?_⟩
    exact Item.allSupported_flatMap hsupported
  · rename_i hreserved
    refine ⟨_, rfl, .symbol hreserved .nil, Item.allSupported_cons.mpr ⟨.symbol _, ?_, ?_⟩⟩
    · exact fun _ hx => (Item.not_within_nil hx).elim
    · exact fun _ hx => (Item.not_within_nil hx).elim

/-- **The value of a tree is one with which its tokens are read.** -/
theorem reads_of_tree (hbuild : d.build engine = .ok g)
    (hnames : ∀ rule ∈ d.rules, ∀ name ∈ Item.namesAll rule.items, ¬ IsReserved name)
    {tree : SyntaxTree} (htree : g.IsTree (.nonterminal g.start) tree) :
    ∃ item, d.IsRoot item ∧
      d.Reads [item] (tree.yield.map g.lexeme) [tree.value (.ofGrammar g)] := by
  have hflat := map_ruleOf_of_build hbuild
  have hexplains := explains_of_expandRules hflat hnames
  have hsupported : ∀ rule ∈ d.rules, Item.AllSupported rule.items :=
    fun rule hrule => (supported_of_expandRules hflat rule hrule).2
  obtain ⟨item, hroot, hstands, hitem⟩ := exists_isRoot hbuild hexplains hsupported
  refine ⟨item, hroot, htree.meaning hbuild hflat
    (fun rule hrule => keeps_reading hexplains hsupported hrule) (fun t ht => ?_) item hstands
    hitem⟩
  intro other hother _
  have wf := wellFormed_of_build hbuild
  have hsymbol : g.HasSymbol (.terminal t.terminal) :=
    (htree.derives.hasSymbol wf (List.mem_map_of_mem ht)).elim id fun h => by simp at h
  -- no rule is for a terminal, so it stands for no repetition
  have hnil : FlatRule.bodiesOf (g.productions.toList.map g.ruleOf)
      (g.terminalName t.terminal) = [] := by
    rw [FlatRule.bodiesOf_eq_nil]
    intro hmem
    simp only [List.map_map, List.mem_map, Array.mem_toList_iff] at hmem
    obtain ⟨p, hp, hname⟩ := hmem
    exact wf.terminalName_ne_nonterminalName hsymbol (wf.head_lt p hp) hname.symm
  cases hother with
  | symbol _ _ => exact .token (terminalName_mem_of_build hbuild hsymbol) .nil
  | anyNumber _ _ hbodies _ => simp [hnil] at hbodies
  | optional _ _ hbodies _ => simp [hnil] at hbodies
  | atLeastOne _ _ _ hbodies _ => simp [hnil] at hbodies

end Declarations

/-- **The value of a parse shows the rounds.** If the rules write no reserved names, a text that is
parsed has tokens and no error behind them, and its value is one with which the tokens are read by
the declared rules from the item for which the start symbol stands: the value of any number of
rounds is a chain with a tuple for each of them, and so on for the other repetitions, at any depth.
Items have one value each, so the tuple of a round has as many components as there are items, and
the link of a chain has one more. -/
theorem Compiled.parse_reads {engine : PatternEngine} {d : Declarations} {g : Grammar}
    {c : Compiled} (hbuild : d.build engine = .ok g) (hcompile : g.compile = .ok c)
    (hnames : ∀ rule ∈ d.rules, ∀ name ∈ Item.namesAll rule.items, ¬ IsReserved name)
    {text : String} {v : Value} {rest : Scan} {events : List Event}
    (hparse : c.parse text = .ok v rest events) :
    (∃ tokens line item, g.lexicon.scan text.toList = Scan.prepend tokens (.done line) ∧
      rest = .done line ∧ d.IsRoot item ∧ d.Reads [item] (tokens.map g.lexeme) [v]) ∧
    ∀ items ls vs, d.Reads items ls vs → vs.length = items.length := by
  obtain ⟨rfl, hc⟩ := coherent hbuild hcompile
  obtain ⟨tree, line, htree, hscan, rfl, rfl, -⟩ := hc.exists_tree_of_parse hparse
  refine ⟨?_, fun items ls vs => Declarations.Reads.length_values⟩
  obtain ⟨item, hroot, hreads⟩ := Declarations.reads_of_tree hbuild hnames htree
  rw [← hc.shapes] at hreads
  exact ⟨tree.yield, line, item, hscan, rfl, hroot, hreads⟩

/-- Of two groups the first one has a chain of one `b`, and the second one stands in the chain of
the groups behind the first. -/
theorem Compiled.parse_reads_groups : ∃ g c v rest events tokens,
    Samples.groups.build Pattern.engine = .ok g ∧ g.compile = .ok c ∧
    (∀ rule ∈ Samples.groups.rules, ∀ name ∈ Item.namesAll rule.items, ¬ IsReserved name) ∧
    c.parse "a b a" = .ok v rest events ∧
    v.describe = "Groups[groups: (\"a\", (\"b\", None), (\"a\", None, None)), rest: None]" ∧
    (g.lexicon.scan "a b a".toList).tokens = tokens ∧
    Samples.groups.Reads [.symbol "Groups"] (tokens.map g.lexeme) [v] := by
  have hrun : ((Samples.groups.build Pattern.engine).toOption.bind fun g =>
      g.compile.toOption.bind fun c => match c.parse "a b a" with
        | .ok v _ _ => some v.describe
        | _ => none) =
      some "Groups[groups: (\"a\", (\"b\", None), (\"a\", None, None)), rest: None]" := by
    decide +kernel
  simp only [Option.bind_eq_some_iff, toOption_eq_some] at hrun
  obtain ⟨g, hbuild, c, hcompile, hrun⟩ := hrun
  split at hrun
  · rename_i v rest events hparse
    have hnames : ∀ rule ∈ Samples.groups.rules, ∀ name ∈ Item.namesAll rule.items,
        ¬ IsReserved name := by
      decide
    obtain ⟨⟨tokens, line, item, hscan, -, hroot, hreads⟩, -⟩ :=
      parse_reads hbuild hcompile hnames hparse
    rw [Declarations.IsRoot, if_neg (by decide)] at hroot
    subst hroot
    refine ⟨g, c, v, rest, events, tokens, hbuild, hcompile, hnames, hparse,
      Option.some.inj hrun, ?_, hreads⟩
    rw [hscan, Scan.tokens_prepend, Scan.tokens, List.append_nil]
  · cases hrun

end PredictiveParsing
