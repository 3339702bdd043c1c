import PredictiveParsing.Proofs.Grammar.Build
import PredictiveParsing.Proofs.Grammar.SyntaxTree
import PredictiveParsing.Proofs.Tree.Shape

/-!
# What values mean

Whoever reads the value of a tree knows symbols by their names. A meaning says of the value of a
symbol what it stands for and which tokens it was made from. If every rule makes a value with a
meaning from values with meanings, then the value of every tree has one: it is enough to look at
the rules one by one, as they were declared.

## Main definitions

* `Meaning`: what the values of symbols stand for
* `Meaning.Each`: all values of a sequence have their meanings
* `Meaning.Keeps`: a rule makes a value with a meaning

## Main results

* `Grammar.IsForest.each_meaning`: the values of forests have meanings
* `Grammar.IsTree.meaning`: the value of a tree of the start symbol has its meaning
-/

namespace PredictiveParsing

open SyntaxTree (yieldAll values)

/-- A token as it is read, by the name of its terminal and its text. -/
def Grammar.lexeme (g : Grammar) (t : Token) : String × String :=
  (g.terminalName t.terminal, t.text)

/-- **A meaning**: what the value of a symbol stands for, given the name of the symbol and the
tokens that the value was made from. -/
abbrev Meaning := String → Value → List (String × String) → Prop

namespace Meaning

/-- **All values of a sequence have their meanings**, each with tokens of its own. -/
inductive Each (M : Meaning) : List String → List Value → List (String × String) → Prop
  | nil : Each M [] [] []
  | cons {name : String} {names : List String} {v : Value} {vs : List Value}
      {ls ms : List (String × String)} (h : M name v ls) (hrest : Each M names vs ms) :
      Each M (name :: names) (v :: vs) (ls ++ ms)

variable {M : Meaning} {vs : List Value} {ls : List (String × String)}

theorem Each.nil_iff : M.Each [] vs ls ↔ vs = [] ∧ ls = [] := by
  constructor
  · rintro ⟨⟩
    exact ⟨rfl, rfl⟩
  · rintro ⟨rfl, rfl⟩
    exact .nil

theorem Each.cons_iff {name : String} {names : List String} : M.Each (name :: names) vs ls ↔
    ∃ v vs' ls' ms, vs = v :: vs' ∧ ls = ls' ++ ms ∧ M name v ls' ∧ M.Each names vs' ms := by
  constructor
  · rintro (_ | ⟨h, hrest⟩)
    exact ⟨_, _, _, _, rfl, rfl, h, hrest⟩
  · rintro ⟨v, vs', ls', ms, rfl, rfl, h, hrest⟩
    exact .cons h hrest

theorem Each.exists_of_append {names names' : List String} (h : M.Each (names ++ names') vs ls) :
    ∃ vs₁ vs₂ ls₁ ls₂, vs = vs₁ ++ vs₂ ∧ ls = ls₁ ++ ls₂ ∧ M.Each names vs₁ ls₁ ∧
      M.Each names' vs₂ ls₂ := by
  induction names generalizing vs ls with
  | nil => exact ⟨[], vs, [], ls, rfl, rfl, .nil, h⟩
  | cons name names ih =>
    obtain ⟨v, vs', ls', ms, rfl, rfl, hv, hrest⟩ := cons_iff.mp h
    obtain ⟨vs₁, vs₂, ls₁, ls₂, rfl, rfl, h₁, h₂⟩ := ih hrest
    exact ⟨v :: vs₁, vs₂, ls' ++ ls₁, ls₂, rfl, by simp, .cons hv h₁, h₂⟩

/-- **A rule keeps a meaning** if it makes a value with a meaning from values with meanings. -/
def Keeps (M : Meaning) (rule : FlatRule) : Prop :=
  ∀ p vs ls, Production.binding p = rule.binding → M.Each rule.body vs ls →
    M rule.head (p.value vs) ls

end Meaning

variable {M : Meaning} {g : Grammar}

/-- **The values of a forest have meanings** if those of its leaves do and every rule keeps
them. -/
theorem Grammar.IsForest.each_meaning (hkeeps : ∀ p ∈ g.productions, M.Keeps (g.ruleOf p))
    {xs : List Symbol} {ts : List SyntaxTree} (h : g.IsForest xs ts)
    (hleaves : ∀ t ∈ yieldAll ts, M (g.terminalName t.terminal) (.token t.text) [g.lexeme t]) :
    M.Each (xs.map g.symbolName) (values (.ofGrammar g) ts) ((yieldAll ts).map g.lexeme) := by
  induction h with
  | nil => exact .nil
  | leaf t _ ih =>
    simp only [yieldAll, SyntaxTree.yield, List.singleton_append, List.forall_mem_cons] at hleaves
    exact .cons hleaves.1 (ih hleaves.2)
  | @node xs ts children p production hp hinner _ ihinner ihrest =>
    simp only [yieldAll, SyntaxTree.yield, List.forall_mem_append] at hleaves
    rw [values, SyntaxTree.value, Shapes.build_ofGrammar hp, yieldAll, List.map_append]
    have hvalue := hkeeps production (Array.mem_of_getElem? hp) production _ _ rfl
      (ihinner hleaves.1)
    exact .cons hvalue (ihrest hleaves.2)

/-- **The value of a tree of the start symbol has its meaning**, if the declared rules keep
meanings. -/
theorem Grammar.IsTree.meaning {engine : PatternEngine} {d : Declarations}
    (hbuild : d.build engine = .ok g) {flat : List FlatRule}
    (hflat : expandRules d.rules = .ok flat)
    (hkeeps : ∀ rule ∈ flat, M.Keeps rule) {tree : SyntaxTree}
    (htree : g.IsTree (.nonterminal g.start) tree)
    (hleaves : ∀ t ∈ tree.yield, M (g.terminalName t.terminal) (.token t.text) [g.lexeme t]) :
    M d.start (tree.value (.ofGrammar g)) (tree.yield.map g.lexeme) := by
  rw [Declarations.map_ruleOf_of_build hbuild] at hflat
  obtain rfl := Except.ok.inj hflat
  have hproductions : ∀ p ∈ g.productions, M.Keeps (g.ruleOf p) :=
    fun p hp => hkeeps _ (List.mem_map_of_mem (Array.mem_toList_iff.mpr hp))
  have heach := htree.each_meaning hproductions (by simpa [yieldAll] using hleaves)
  obtain ⟨v, vs, ls, ms, hvalues, hlexemes, hmeaning, hrest⟩ := Meaning.Each.cons_iff.mp heach
  obtain ⟨rfl, rfl⟩ := Meaning.Each.nil_iff.mp hrest
  obtain ⟨rfl, -⟩ := List.cons.inj hvalues
  obtain rfl : tree.yield.map g.lexeme = ls := by simpa [yieldAll] using hlexemes
  rwa [symbolName, Declarations.nonterminalName_start_of_build hbuild] at hmeaning

end PredictiveParsing
