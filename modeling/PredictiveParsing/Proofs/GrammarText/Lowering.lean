import PredictiveParsing.GrammarText.Document

/-!
# The declarations of a grammar file

The contents of a grammar file are turned into declarations in one walk, which adds rules and, on
the way, terminals for the texts that stand for themselves. What comes out can be read off the
contents: the tokens as they were listed, the texts behind them, each once, and a rule for each
alternative, with items in the places of its expressions.

## Main definitions

* `Expr.item`: the item in the place of an expression
* `Expr.literals`, `Document.literals`: the texts that stand for themselves, in order
* `withLiterals`: terminals, and behind them those for texts

## Main results

* `Document.toDeclarations_eq`: the declarations of a grammar file
-/

namespace PredictiveParsing.GrammarText

mutual

/-- **The item in the place of an expression**: a text stands where its terminal would. -/
def Expr.item : Expr → Item
  | .symbol name => .symbol name
  | .literal text => .symbol text
  | .anyNumber parts => .anyNumber (Expr.items parts)
  | .optional parts => .optional (Expr.items parts)
  | .set parts => .oneOfEach (Expr.items parts)

/-- The items in the places of expressions. -/
def Expr.items : List Expr → List Item
  | [] => []
  | e :: rest => e.item :: Expr.items rest

end

mutual

/-- **The texts that stand for themselves** in an expression, in order. -/
def Expr.literals : Expr → List String
  | .symbol _ => []
  | .literal text => [text]
  | .anyNumber parts => Expr.literalsAll parts
  | .optional parts => Expr.literalsAll parts
  | .set parts => Expr.literalsAll parts

/-- The texts that stand for themselves in expressions. -/
def Expr.literalsAll : List Expr → List String
  | [] => []
  | e :: rest => e.literals ++ Expr.literalsAll rest

end

/-- The rule of an alternative. -/
def Alternative.rule (head : String) (a : Alternative) : Rule :=
  ⟨head, Expr.items a.parts, a.binding⟩

/-- The rules of a declaration. -/
def Declaration.rules (d : Declaration) : List Rule :=
  d.alternatives.map (Alternative.rule d.head)

/-- The texts that stand for themselves in a declaration. -/
def Declaration.literals (d : Declaration) : List String :=
  d.alternatives.flatMap fun a => Expr.literalsAll a.parts

/-- The texts that stand for themselves in a grammar file. -/
def Document.literals (doc : Document) : List String :=
  doc.declarations.flatMap Declaration.literals

/-- The terminal for a text that stands for itself: it has its own name, and a pattern for just
that text. -/
def literalTerminal (text : String) : String × String :=
  (text, String.ofList (Pattern.escape text.toList))

/-- **Terminals, and behind them those for texts**, each once and in order of first appearance,
unless there is one of that name already. -/
def withLiterals (terminals : List (String × String)) (texts : List String) :
    List (String × String) :=
  terminals ++ (texts.filter (· ∉ terminals.map (·.1))).eraseDups.map literalTerminal

/-! ## Texts that stand for themselves -/

section Literals

variable {terminals : List (String × String)} {text : String} {texts : List String}

@[simp] theorem withLiterals_nil : withLiterals terminals [] = terminals := by
  simp [withLiterals]

/-- A text that is the name of a terminal adds nothing. -/
theorem withLiterals_cons_of_mem (h : text ∈ terminals.map (·.1)) :
    withLiterals terminals (text :: texts) = withLiterals terminals texts := by
  rw [withLiterals, List.filter_cons_of_neg (by simpa using h)]
  rfl

/-- Any other text adds a terminal, which keeps its name from being added again. -/
theorem withLiterals_cons_of_not_mem (h : text ∉ terminals.map (·.1)) :
    withLiterals terminals (text :: texts) =
      withLiterals (terminals ++ [literalTerminal text]) texts := by
  have hfilter : (texts.filter (· ∉ terminals.map (·.1))).filter (fun t => !t == text) =
      texts.filter (· ∉ (terminals ++ [literalTerminal text]).map (·.1)) := by
    rw [List.filter_filter]
    refine List.filter_congr fun t _ => ?_
    have hmem : t ∈ (terminals ++ [literalTerminal text]).map (·.1) ↔
        t = text ∨ t ∈ terminals.map (·.1) := by
      rw [List.map_append, List.mem_append, or_comm, List.map_singleton, List.mem_singleton]
      rfl
    simp only [hmem, not_or, Bool.decide_and, decide_not]
    rfl
  rw [withLiterals, List.filter_cons_of_pos (by simpa using h), List.eraseDups_cons, hfilter]
  simp [withLiterals]

theorem declareLiteral_eq (d : Declarations) (text : String) :
    declareLiteral d text = { d with terminals := withLiterals d.terminals [text] } := by
  unfold declareLiteral
  by_cases h : text ∈ d.terminals.map (·.1)
  · rw [withLiterals_cons_of_mem h, withLiterals_nil, if_pos]
    simpa [Declarations.hasTerminal] using h
  · rw [withLiterals_cons_of_not_mem h, withLiterals_nil, if_neg]
    · rfl
    · simpa [Declarations.hasTerminal] using h

/-- Texts are declared one after the other. -/
theorem withLiterals_append (texts' : List String) :
    withLiterals terminals (texts ++ texts') =
      withLiterals (withLiterals terminals texts) texts' := by
  -- the terminals grow along the first texts, so the claim is for all of them
  induction texts generalizing terminals with
  | nil => rw [List.nil_append, withLiterals_nil]
  | cons text texts ih =>
    rw [List.cons_append]
    by_cases h : text ∈ terminals.map (·.1)
    · rw [withLiterals_cons_of_mem h, withLiterals_cons_of_mem h, ih]
    · rw [withLiterals_cons_of_not_mem h, withLiterals_cons_of_not_mem h, ih]

end Literals

/-! ## The walk -/

mutual

/-- **An expression becomes its item**, and its texts are declared. -/
theorem Expr.toItem_eq : (e : Expr) → (d : Declarations) →
    e.toItem d = (e.item, { d with terminals := withLiterals d.terminals e.literals })
  | .symbol name, d => by rw [toItem, item, literals, withLiterals_nil]
  | .literal text, d => by rw [toItem, item, literals, declareLiteral_eq]
  | .anyNumber parts, d => by rw [toItem, item, literals, Expr.toItems_eq parts d]
  | .optional parts, d => by rw [toItem, item, literals, Expr.toItems_eq parts d]
  | .set parts, d => by rw [toItem, item, literals, Expr.toItems_eq parts d]

theorem Expr.toItems_eq : (parts : List Expr) → (d : Declarations) → Expr.toItems parts d =
    (Expr.items parts, { d with terminals := withLiterals d.terminals (Expr.literalsAll parts) })
  | [], d => by rw [toItems, items, literalsAll, withLiterals_nil]
  | e :: rest, d => by
    rw [toItems, Expr.toItem_eq e d]
    simp only [Expr.toItems_eq rest, items, literalsAll, withLiterals_append]

end

/-- Declarations with more texts and more rules. -/
def extend (d : Declarations) (texts : List String) (rules : List Rule) : Declarations :=
  { d with terminals := withLiterals d.terminals texts, rules := d.rules ++ rules }

theorem extend_extend (d : Declarations) (texts texts' : List String) (rules rules' : List Rule) :
    extend (extend d texts rules) texts' rules' = extend d (texts ++ texts') (rules ++ rules') := by
  simp [extend, withLiterals_append]

theorem Alternative.declare_eq (head : String) (d : Declarations) (a : Alternative) :
    Alternative.declare head d a = extend d (Expr.literalsAll a.parts) [a.rule head] := by
  rw [declare, Expr.toItems_eq]
  rfl

theorem Declaration.declare_eq (d : Declarations) (declaration : Declaration) :
    Declaration.declare d declaration = extend d declaration.literals declaration.rules := by
  unfold declare literals rules
  generalize declaration.alternatives = alternatives
  induction alternatives generalizing d with
  | nil => simp [extend]
  | cons a rest ih =>
    rw [List.foldl_cons, ih, Alternative.declare_eq, extend_extend]
    rfl

/-- **The declarations of a grammar file**: the tokens as they are listed, the texts that stand
for themselves behind them, and a rule for each alternative, in order. -/
theorem Document.toDeclarations_eq (doc : Document) : doc.toDeclarations =
    { start := doc.root
      terminals := withLiterals doc.tokens doc.literals
      rules := doc.declarations.flatMap Declaration.rules } := by
  have hfold (d : Declarations) (declarations : List Declaration) :
      declarations.foldl Declaration.declare d = extend d
        (declarations.flatMap Declaration.literals) (declarations.flatMap Declaration.rules) := by
    induction declarations generalizing d with
    | nil => simp [extend]
    | cons declaration rest ih =>
      rw [List.foldl_cons, ih, Declaration.declare_eq, extend_extend]
      rfl
  exact hfold _ _

end PredictiveParsing.GrammarText
