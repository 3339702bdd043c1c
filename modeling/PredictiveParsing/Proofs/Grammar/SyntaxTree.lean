import PredictiveParsing.Parse.Outcome
import PredictiveParsing.Proofs.Grammar.Derivation
import PredictiveParsing.Proofs.Grammar.WellFormed
import PredictiveParsing.Tree.Shape

/-!
# Syntax trees

A syntax tree records how a text is derived: its leaves are tokens, and each inner node is a
production whose symbols are the roots of its children. What a parser yields can be read off the
tree, the value from the leaves up and the events by walking the tree in depth.

## Main definitions

* `SyntaxTree`: tokens and productions in a tree
* `SyntaxTree.yield`, `value`, `trace`: the tokens, the value and the events of a tree
* `Grammar.IsForest`, `Grammar.IsTree`: the trees of a sequence of symbols, of one symbol

## Main results

* `Grammar.IsForest.derives`: a forest is a derivation of its tokens
* `Grammar.exists_forest_of_derives`: each derivation of tokens is recorded by a forest
* `Grammar.exists_tree_of_derives`: each derivation from one symbol is recorded by a tree
-/

namespace PredictiveParsing

/-- The scan with tokens before it. -/
def Scan.prepend : List Token → Scan → Scan
  | [], s => s
  | t :: tokens, s => .token t (prepend tokens s)

namespace Scan

@[simp] theorem prepend_nil (s : Scan) : prepend [] s = s := rfl

@[simp] theorem prepend_cons (t : Token) (tokens : List Token) (s : Scan) :
    prepend (t :: tokens) s = .token t (prepend tokens s) := rfl

@[simp] theorem prepend_append (tokens tokens' : List Token) (s : Scan) :
    prepend (tokens ++ tokens') s = prepend tokens (prepend tokens' s) := by
  induction tokens with
  | nil => rfl
  | cons t tokens ih => simp [ih]

@[simp] theorem length_prepend (tokens : List Token) (s : Scan) :
    (prepend tokens s).length = tokens.length + s.length := by
  induction tokens with
  | nil => simp
  | cons t tokens ih => simp [length, ih]; omega

theorem tokens_prepend (tokens : List Token) (s : Scan) :
    (prepend tokens s).tokens = tokens ++ s.tokens := by
  induction tokens with
  | nil => rfl
  | cons t tokens ih => simp [Scan.tokens, ih]

end Scan

/-- **A syntax tree**: its leaves are tokens, its inner nodes are productions. -/
inductive SyntaxTree where
  /-- A token. -/
  | leaf (t : Token)
  /-- The production with a number, and the trees of its symbols. -/
  | node (p : Nat) (children : List SyntaxTree)

namespace SyntaxTree

mutual

/-- **The tokens of a tree**, from left to right. -/
def yield : SyntaxTree → List Token
  | leaf t => [t]
  | node _ children => yieldAll children

/-- The tokens of a forest. -/
def yieldAll : List SyntaxTree → List Token
  | [] => []
  | t :: ts => t.yield ++ yieldAll ts

end

mutual

/-- **The value of a tree**: a leaf stands for its text, and a production makes its value from
those of its children. -/
def value (shapes : Shapes) : SyntaxTree → Value
  | leaf t => .token t.text
  | node p children => shapes.build p (values shapes children)

/-- The values of a forest. -/
def values (shapes : Shapes) : List SyntaxTree → List Value
  | [] => []
  | t :: ts => t.value shapes :: values shapes ts

end

mutual

/-- **The events of a walk in depth**: a nonterminal is entered before its children are visited,
and a token is consumed at each leaf. The line of an entry is that of the next item of the scan,
so what comes after the tree matters if the tree has no tokens. -/
def trace (g : Grammar) : SyntaxTree → (after : Scan) → List Event
  | leaf t, _ => [.consume t.name t.text]
  | node p children, after =>
    let head := (g.productions[p]?.map (·.head)).getD 0
    .enter (g.nonterminalName head) (Scan.prepend (yieldAll children) after).line ::
      traceAll g children after

/-- The events of a walk through a forest. -/
def traceAll (g : Grammar) : List SyntaxTree → (after : Scan) → List Event
  | [], _ => []
  | t :: ts, after => t.trace g (Scan.prepend (yieldAll ts) after) ++ traceAll g ts after

end

@[simp] theorem yieldAll_append (ts ts' : List SyntaxTree) :
    yieldAll (ts ++ ts') = yieldAll ts ++ yieldAll ts' := by
  induction ts with
  | nil => rfl
  | cons t ts ih => simp [yieldAll, ih]

@[simp] theorem yieldAll_map_leaf (tokens : List Token) : yieldAll (tokens.map leaf) = tokens := by
  induction tokens with
  | nil => rfl
  | cons t tokens ih => simp [yieldAll, yield, ih]

end SyntaxTree

open SyntaxTree (yieldAll)

namespace Grammar

variable {g : Grammar}

/-- **The forests of a sequence of symbols**: a token for each terminal, and a production for each
nonterminal with a forest of its body. -/
inductive IsForest (g : Grammar) : List Symbol → List SyntaxTree → Prop
  | nil : IsForest g [] []
  | leaf {xs ts} (t : Token) (rest : IsForest g xs ts) :
      IsForest g (.terminal t.terminal :: xs) (.leaf t :: ts)
  | node {xs ts children p production} (hp : g.productions[p]? = some production)
      (inner : IsForest g production.body children) (rest : IsForest g xs ts) :
      IsForest g (.nonterminal production.head :: xs) (.node p children :: ts)

/-- **The trees of a symbol.** -/
def IsTree (g : Grammar) (x : Symbol) (t : SyntaxTree) : Prop := g.IsForest [x] [t]

namespace IsForest

variable {xs ys : List Symbol} {ts us : List SyntaxTree}

theorem cons {x : Symbol} {t : SyntaxTree} (ht : g.IsTree x t) (hts : g.IsForest xs ts) :
    g.IsForest (x :: xs) (t :: ts) := by
  cases ht with
  | leaf t _ => exact .leaf t hts
  | node hp inner _ => exact .node hp inner hts

theorem cons_iff {x : Symbol} : g.IsForest (x :: xs) ts ↔
    ∃ t us, ts = t :: us ∧ g.IsTree x t ∧ g.IsForest xs us := by
  constructor
  · rintro (_ | ⟨t, rest⟩ | ⟨hp, inner, rest⟩)
    · exact ⟨_, _, rfl, .leaf t .nil, rest⟩
    · exact ⟨_, _, rfl, .node hp inner .nil, rest⟩
  · rintro ⟨t, us, rfl, ht, hus⟩
    exact cons ht hus

/-- The tree of a terminal is a token of it. -/
theorem terminal_cons_iff {t : Nat} : g.IsForest (.terminal t :: xs) ts ↔
    ∃ token us, ts = .leaf token :: us ∧ token.terminal = t ∧ g.IsForest xs us := by
  constructor
  · generalize hx : Symbol.terminal t = x
    rintro (_ | ⟨token, rest⟩ | _)
    · cases hx
      exact ⟨token, _, rfl, rfl, rest⟩
    · cases hx
  · rintro ⟨token, us, rfl, rfl, hus⟩
    exact .leaf token hus

/-- The tree of a nonterminal is one of its productions with a forest of the body. -/
theorem nonterminal_cons_iff {nt : Nat} : g.IsForest (.nonterminal nt :: xs) ts ↔
    ∃ p production children us, ts = .node p children :: us ∧
      g.productions[p]? = some production ∧ production.head = nt ∧
      g.IsForest production.body children ∧ g.IsForest xs us := by
  constructor
  · generalize hx : Symbol.nonterminal nt = x
    rintro (_ | _ | ⟨hp, inner, rest⟩)
    · cases hx
    · cases hx
      exact ⟨_, _, _, _, rfl, hp, rfl, inner, rest⟩
  · rintro ⟨p, production, children, us, rfl, hp, rfl, inner, hus⟩
    exact .node hp inner hus

theorem append (h : g.IsForest xs ts) (h' : g.IsForest ys us) :
    g.IsForest (xs ++ ys) (ts ++ us) := by
  induction h with
  | nil => exact h'
  | leaf t _ ih => exact .leaf t ih
  | node hp inner _ _ ih => exact .node hp inner ih

/-- A forest of two sequences is one of the first before one of the second. -/
theorem exists_of_append (h : g.IsForest (xs ++ ys) ts) :
    ∃ us us', ts = us ++ us' ∧ g.IsForest xs us ∧ g.IsForest ys us' := by
  induction xs generalizing ts with
  | nil => exact ⟨[], ts, rfl, .nil, h⟩
  | cons x xs ih =>
    obtain ⟨t, rest, rfl, ht, hrest⟩ := cons_iff.mp h
    obtain ⟨us, us', rfl, hus, hus'⟩ := ih hrest
    exact ⟨t :: us, us', rfl, cons ht hus, hus'⟩

/-! ## Forests and derivations -/

/-- **A forest is a derivation of its tokens.** -/
theorem derives (h : g.IsForest xs ts) :
    g.Derives xs ((yieldAll ts).map fun t => .terminal t.terminal) := by
  induction h with
  | nil => exact .refl []
  | leaf t _ ih => exact ih.append_left [.terminal t.terminal]
  | node hp _ _ inner rest =>
    have hroot := (Derives.of_production (Array.mem_of_getElem? hp)).trans inner
    simpa [yieldAll, SyntaxTree.yield] using hroot.append rest

/-- The symbols of a forest without tokens can vanish. -/
theorem derives_nil (h : g.IsForest xs ts) (hyield : yieldAll ts = []) : g.Derives xs [] := by
  simpa [hyield] using h.derives

/-- The leaves alone are a forest. -/
theorem of_tokens (tokens : List Token) :
    g.IsForest (tokens.map fun t => .terminal t.terminal) (tokens.map .leaf) := by
  induction tokens with
  | nil => exact .nil
  | cons t tokens ih => exact .leaf t ih

/-- A step of a derivation is undone by one more node. -/
theorem exists_of_rewrites (hstep : g.Rewrites xs ys) (h : g.IsForest ys ts) :
    ∃ us, g.IsForest xs us ∧ yieldAll us = yieldAll ts := by
  obtain @⟨production, hp, before, after⟩ := hstep
  obtain ⟨us, after, rfl, hus, hafter⟩ := exists_of_append h
  obtain ⟨before, children, rfl, hbefore, hchildren⟩ := exists_of_append hus
  obtain ⟨p, hlt, rfl⟩ := Array.mem_iff_getElem.mp hp
  refine ⟨before ++ .node p children :: after,
    hbefore.append (.node (Array.getElem?_eq_getElem hlt) hchildren hafter), ?_⟩
  simp [yieldAll, SyntaxTree.yield]

end IsForest

/-- A tree is a derivation of its tokens. -/
theorem IsTree.derives {x : Symbol} {t : SyntaxTree} (h : g.IsTree x t) :
    g.Derives [x] (t.yield.map fun t => .terminal t.terminal) := by
  simpa [yieldAll] using IsForest.derives h

/-- **Each derivation of tokens is recorded by a forest.** -/
theorem exists_forest_of_derives {xs : List Symbol} {tokens : List Token}
    (h : g.Derives xs (tokens.map fun t => .terminal t.terminal)) :
    ∃ ts, g.IsForest xs ts ∧ yieldAll ts = tokens := by
  -- Induction from the end of the derivation: the tokens alone are a forest, and each step back
  -- adds a node.
  induction h using Relation.ReflTransGen.head_induction_on with
  | refl => exact ⟨tokens.map .leaf, .of_tokens tokens, by simp⟩
  | head hstep _ ih =>
    obtain ⟨ts, hts, hyield⟩ := ih
    obtain ⟨us, hus, hyield'⟩ := hts.exists_of_rewrites hstep
    exact ⟨us, hus, hyield'.trans hyield⟩

/-- What one symbol derives is recorded by a tree. -/
theorem exists_tree_of_derives {x : Symbol} {tokens : List Token}
    (h : g.Derives [x] (tokens.map fun t => .terminal t.terminal)) :
    ∃ tree, g.IsTree x tree ∧ tree.yield = tokens := by
  obtain ⟨ts, hts, rfl⟩ := exists_forest_of_derives h
  obtain ⟨tree, us, rfl, htree, hus⟩ := IsForest.cons_iff.mp hts
  cases hus
  exact ⟨tree, htree, by simp [yieldAll]⟩

end Grammar

end PredictiveParsing
