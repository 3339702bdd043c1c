import PredictiveParsing.GrammarText.Rules
import PredictiveParsing.Proofs.GrammarText.Written
import PredictiveParsing.Proofs.Result
import PredictiveParsing.Proofs.Tree.Meaning

/-!
# Grammar files are read as they are written

The value of a grammar file is taken apart by the kinds of nodes and the names of fields. Each
rule of the grammar of grammar files makes a value that is taken apart into just what was written:
where a rule leaves a chain empty, the field counts as missing and the chain ends.

## Main definitions

* `reading`: what the values of the symbols of grammar files stand for

## Main results

* `keeps_reading`: every rule keeps that
-/

namespace PredictiveParsing

/-! ## Fields -/

namespace Value

/-- A value, unless it is nothing. -/
def present? (v : Value) : Option Value := (some v).filter (!·.isEmpty)

end Value

namespace GrammarText

/-- The value of a node, from the values of the symbols of a body. -/
def nodeValue (kind : String) (fields : List String) (values : List Value) : Value :=
  .node kind ((Shapes.keysOf 0 (fields.map Field.ofName)).zip values)

theorem value_of_ofNames {p : Production} {kind : String} {fields : List String}
    (h : p.binding = some (.ofNames kind fields)) (values : List Value) :
    p.value values = nodeValue kind fields values := by
  rw [Production.value, h]
  rfl

/-! ## Chains -/

section Chains

variable {α : Type} {kind : String} {item : Value → Except Malformed α} {v : Value}

theorem expectKind_of_kind? (h : v.kind? = some kind) : expectKind kind v = .ok () := by
  simp [expectKind, h]

@[simp] theorem chainOf_none : chainOf kind item none = .ok [] := by rw [chainOf]

/-- A link of a chain is its part and the links behind it. -/
theorem chainOf_some {first : α} {rest : List α} (hkind : v.kind? = some kind)
    (hfirst : item v = .ok first) (hrest : chainOf kind item (v.field? "rest") = .ok rest) :
    chainOf kind item (some v) = .ok (first :: rest) := by
  rw [chainOf, expectKind_of_kind? hkind, hfirst, hrest]
  rfl

end Chains

/-! ## Expressions -/

/-- The expressions of a chain that may be absent. -/
def linksOf? (v : Option Value) : Except Malformed (List Expr) :=
  match v with
  | none => .ok []
  | some v => linksOf v

section Expressions

variable {v w : Value} {e : Expr} {rest : List Expr}

theorem partsOf_eq (hexp : v.field? "exp" = some w) (he : exprOf w = .ok e)
    (hrest : linksOf? (v.field? "exps") = .ok rest) : partsOf v = .ok (e :: rest) := by
  rw [partsOf]
  split
  · rename_i h
    simp [hexp] at h
  · rename_i first h
    obtain rfl := Option.some.inj (h.symm.trans hexp)
    simp only [he, bind, Except.bind]
    split
    · rename_i hexps
      rw [hexps] at hrest
      cases hrest
      rfl
    · rename_i links hexps
      rw [hexps, linksOf?] at hrest
      rw [hrest]
      rfl

theorem linksOf_eq (hkind : v.kind? = some "Exps") (hexp : v.field? "exp" = some w)
    (he : exprOf w = .ok e) (hrest : linksOf? (v.field? "rest") = .ok rest) :
    linksOf v = .ok (e :: rest) := by
  rw [linksOf, expectKind_of_kind? hkind]
  simp only [bind, Except.bind]
  split
  · rename_i h
    simp [hexp] at h
  · rename_i first h
    obtain rfl := Option.some.inj (h.symm.trans hexp)
    simp only [he]
    split
    · rename_i hlinks
      rw [hlinks] at hrest
      cases hrest
      rfl
    · rename_i links hlinks
      rw [hlinks, linksOf?] at hrest
      rw [hrest]
      rfl

/-- What stands in quotes is what remains without them. -/
theorem stripQuotes_eq {text : String} {inner : List Char} (h : IsQuoted text inner) :
    stripQuotes text = .ok (String.ofList inner) := by
  obtain ⟨quote, htext⟩ : ∃ quote, text.toList = quote :: inner ++ [quote] :=
    h.elim (⟨_, ·⟩) (⟨_, ·⟩)
  have hlength : ¬ text.length < 2 := by
    rw [← String.length_toList, htext]
    simp
  rw [stripQuotes, if_neg hlength, htext]
  simp

theorem exprOf_name {name : String} (hkind : v.kind? = some "Name")
    (hval : tokenOf v "val" = .ok name) : exprOf v = .ok (.symbol name) := by
  rw [exprOf, hkind]
  simp only [hval]
  rfl

theorem exprOf_literal {text : String} {inner : List Char} (hkind : v.kind? = some "Literal")
    (hval : tokenOf v "val" = .ok text) (hquoted : IsQuoted text inner) :
    exprOf v = .ok (.literal (String.ofList (unescape inner))) := by
  rw [exprOf, hkind]
  simp only [hval, bind, Except.bind, stripQuotes_eq hquoted, String.toList_ofList]
  rfl

theorem exprOf_anyNumber {parts : List Expr} (hkind : v.kind? = some "Repeat")
    (hparts : partsOf v = .ok parts) : exprOf v = .ok (.anyNumber parts) := by
  rw [exprOf, hkind]
  simp only [hparts]
  rfl

theorem exprOf_optional {parts : List Expr} (hkind : v.kind? = some "Optional")
    (hparts : partsOf v = .ok parts) : exprOf v = .ok (.optional parts) := by
  rw [exprOf, hkind]
  simp only [hparts]
  rfl

theorem exprOf_set {parts : List Expr} (hkind : v.kind? = some "Set")
    (hparts : partsOf v = .ok parts) : exprOf v = .ok (.set parts) := by
  rw [exprOf, hkind]
  simp only [hparts]
  rfl

end Expressions

/-! ## Declarations -/

section Declarations

variable {v : Value}

/-- The binding with a name and fields; the mark of a discarded field alone suppresses. -/
def bindingWith (name : String) (fields : List String) : Binding :=
  if name == Field.discardMark && fields.isEmpty then .suppressed else .ofNames name fields

theorem bindingOf_eq {name : String} {fields : List String} (hkind : v.kind? = some "Binding")
    (hname : tokenOf v "name" = .ok name)
    (hfields : chainOf "Names" (tokenOf · "name") (v.field? "names") = .ok fields) :
    bindingOf (some v) = .ok (some (bindingWith name fields)) := by
  rw [bindingOf, expectKind_of_kind? hkind, hname, hfields]
  rfl

theorem bindingWritten_with (pound name : String) (fields : List String) :
    BindingWritten (some (bindingWith name fields))
      (("pound", pound) :: ("name", name) :: fields.map (("name", ·))) := by
  by_cases h : name = Field.discardMark ∧ fields = []
  · obtain ⟨rfl, rfl⟩ := h
    exact .suppressed pound
  · have hwith : bindingWith name fields = .ofNames name fields := by simp [bindingWith, h]
    rw [hwith]
    exact .node pound h

theorem alternativeOf_parts {parts : List Expr} {binding : Option Binding}
    (hkind : v.kind? = some "Alt") (hparts : partsOf v = .ok parts)
    (hbinding : bindingOf (v.field? "binding") = .ok binding) :
    alternativeOf (some v) = .ok ⟨parts, binding⟩ := by
  simp only [alternativeOf, hkind, hparts, hbinding]
  rfl

theorem alternativeOf_empty {binding : Option Binding} (hkind : v.kind? = some "Epsilon")
    (hbinding : bindingOf (v.field? "binding") = .ok binding) :
    alternativeOf (some v) = .ok ⟨[], binding⟩ := by
  simp only [alternativeOf, hkind, hbinding]
  rfl

theorem declarationOf_eq {link : Value} {head : String} {first : Alternative}
    {rest : List Alternative} (hdecl : link.field? "decl" = some v) (hkind : v.kind? = some "Decl")
    (hname : tokenOf v "name" = .ok head) (hfirst : alternativeOf (v.field? "alt") = .ok first)
    (hrest : chainOf "Alts" (fun link => alternativeOf (link.field? "alt")) (v.field? "alts") =
      .ok rest) : declarationOf link = .ok ⟨head, first :: rest⟩ := by
  simp only [declarationOf, hdecl, expectKind_of_kind? hkind, hname, hfirst, hrest]
  rfl

theorem tokenPairOf_eq {name text : String} {inner : List Char}
    (hname : tokenOf v "name" = .ok name) (hpattern : tokenOf v "pattern" = .ok text)
    (hquoted : IsQuoted text inner) : tokenPairOf v = .ok (name, String.ofList inner) := by
  simp only [tokenPairOf, hname, hpattern, bind, Except.bind, stripQuotes_eq hquoted]
  rfl

theorem documentOf_eq {root : String} {pairs : List (String × String)}
    {declarations : List Declaration} (hkind : v.kind? = some "Spec")
    (hroot : tokenOf v "root" = .ok root)
    (hpairs : chainOf "TokenPair" tokenPairOf (v.field? "tokens") = .ok pairs)
    (hdeclarations : chainOf "Decls" declarationOf (v.field? "decls") = .ok declarations) :
    documentOf v = .ok ⟨root, pairs, declarations⟩ := by
  simp only [documentOf, expectKind_of_kind? hkind, hroot, hpairs, hdeclarations]
  rfl

end Declarations

/-! ## What values stand for -/

/-- **What the values of the symbols of grammar files stand for**: parts of the contents, which
are written with the tokens of the value. -/
def reading : Meaning := fun name v ls =>
  match name with
  | "Spec" => ∃ doc, documentOf v = .ok doc ∧ doc.Written ls
  | "TokenPairs" => ∃ pairs, chainOf "TokenPair" tokenPairOf v.present? = .ok pairs ∧
      Sequence PairWritten pairs ls
  | "Decls" => ∃ declarations, chainOf "Decls" declarationOf v.present? = .ok declarations ∧
      Sequence Declaration.Written declarations ls
  | "Decl" => ∃ declaration : Declaration,
      (∀ link : Value, link.field? "decl" = v.present? → declarationOf link = .ok declaration) ∧
        declaration.Written ls
  | "Alts" => ∃ alternatives,
      chainOf "Alts" (fun link => alternativeOf (link.field? "alt")) v.present? =
        .ok alternatives ∧ Sequence BarWritten alternatives ls
  | "Alt" => ∃ a, alternativeOf v.present? = .ok a ∧ a.Written ls
  | "Exps" => ∃ parts, linksOf? v.present? = .ok parts ∧ Sequence Expr.Written parts ls
  -- an expression is never nothing, so its field is never missing
  | "Exp" => ∃ e : Expr, v.present? = some v ∧ exprOf v = .ok e ∧ e.Written ls
  | "Binding" => ∃ binding, bindingOf v.present? = .ok binding ∧ BindingWritten binding ls
  | "Names" => ∃ names, chainOf "Names" (tokenOf · "name") v.present? = .ok names ∧
      ls = names.map (("name", ·))
  | "string" => ∃ text inner, v = .token text ∧ ls = [("string", text)] ∧ IsQuoted text inner
  | name => ∃ text, v = .token text ∧ ls = [(name, text)]

/-! ## The rules of grammar files -/

section Rules

variable {vs : List Value} {ls : List Lexeme}

theorem reading_spec
    (h : reading.Each ["root", "name", "tokens", "TokenPairs", "grammar", "Decls"] vs ls) :
    reading "Spec" (nodeValue "Spec" ["_", "root", "_", "tokens", "_", "decls"] vs) ls := by
  obtain _ | ⟨hroot, _ | ⟨hname, _ | ⟨htokens, _ | ⟨hpairs, _ | ⟨hgrammar, _ | ⟨hdecls, ⟨⟩⟩⟩⟩⟩⟩⟩
    := h
  obtain ⟨root, rfl, rfl⟩ := hroot
  obtain ⟨name, rfl, rfl⟩ := hname
  obtain ⟨tokens, rfl, rfl⟩ := htokens
  obtain ⟨pairs, hpairs, hpairsWritten⟩ := hpairs
  obtain ⟨grammar, rfl, rfl⟩ := hgrammar
  obtain ⟨declarations, hdeclarations, hdeclarationsWritten⟩ := hdecls
  refine ⟨⟨name, pairs, declarations⟩, documentOf_eq rfl rfl hpairs hdeclarations, ?_⟩
  simpa using Document.Written.mk root name tokens grammar hpairsWritten hdeclarationsWritten

theorem reading_tokenPairs (h : reading.Each ["name", "string", "TokenPairs"] vs ls) :
    reading "TokenPairs" (nodeValue "TokenPair" ["name", "pattern", "rest"] vs) ls := by
  obtain _ | ⟨hname, _ | ⟨hstring, _ | ⟨hrest, ⟨⟩⟩⟩⟩ := h
  obtain ⟨name, rfl, rfl⟩ := hname
  obtain ⟨text, inner, rfl, rfl, hquoted⟩ := hstring
  obtain ⟨pairs, hpairs, hwritten⟩ := hrest
  refine ⟨_, chainOf_some rfl (tokenPairOf_eq rfl rfl hquoted) hpairs, ?_⟩
  simpa using Sequence.cons (PairWritten.mk name hquoted) hwritten

theorem reading_decls (h : reading.Each ["Decl", "Decls"] vs ls) :
    reading "Decls" (nodeValue "Decls" ["decl", "rest"] vs) ls := by
  obtain _ | ⟨hdecl, _ | ⟨hrest, ⟨⟩⟩⟩ := h
  obtain ⟨declaration, hdeclaration, hwritten⟩ := hdecl
  obtain ⟨declarations, hdeclarations, hrestWritten⟩ := hrest
  refine ⟨_, chainOf_some rfl (hdeclaration _ rfl) hdeclarations, ?_⟩
  simpa using Sequence.cons hwritten hrestWritten

theorem reading_decl (h : reading.Each ["name", "define", "Alt", "Alts", "semi"] vs ls) :
    reading "Decl" (nodeValue "Decl" ["name", "_", "alt", "alts", "_"] vs) ls := by
  obtain _ | ⟨hname, _ | ⟨hdefine, _ | ⟨halt, _ | ⟨halts, _ | ⟨hsemi, ⟨⟩⟩⟩⟩⟩⟩ := h
  obtain ⟨head, rfl, rfl⟩ := hname
  obtain ⟨define, rfl, rfl⟩ := hdefine
  obtain ⟨first, hfirst, hfirstWritten⟩ := halt
  obtain ⟨rest, hrest, hrestWritten⟩ := halts
  obtain ⟨semi, rfl, rfl⟩ := hsemi
  refine ⟨⟨head, first :: rest⟩, fun link hlink => declarationOf_eq hlink rfl rfl hfirst hrest, ?_⟩
  simpa using Declaration.Written.mk head define semi hfirstWritten hrestWritten

theorem reading_alts (h : reading.Each ["bar", "Alt", "Alts"] vs ls) :
    reading "Alts" (nodeValue "Alts" ["_", "alt", "rest"] vs) ls := by
  obtain _ | ⟨hbar, _ | ⟨halt, _ | ⟨hrest, ⟨⟩⟩⟩⟩ := h
  obtain ⟨bar, rfl, rfl⟩ := hbar
  obtain ⟨a, ha, hwritten⟩ := halt
  obtain ⟨alternatives, halternatives, hrestWritten⟩ := hrest
  refine ⟨_, chainOf_some rfl ha halternatives, ?_⟩
  simpa using Sequence.cons (BarWritten.mk bar hwritten) hrestWritten

theorem reading_alt (h : reading.Each ["Exp", "Exps", "Binding"] vs ls) :
    reading "Alt" (nodeValue "Alt" ["exp", "exps", "binding"] vs) ls := by
  obtain _ | ⟨hexp, _ | ⟨hexps, _ | ⟨hbinding, ⟨⟩⟩⟩⟩ := h
  obtain ⟨binding, hbinding, hbindingWritten⟩ := hbinding
  obtain ⟨e, hpresent, he, hwritten⟩ := hexp
  obtain ⟨rest, hrest, hrestWritten⟩ := hexps
  refine ⟨_, alternativeOf_parts rfl (partsOf_eq hpresent he hrest) hbinding, ?_⟩
  simpa using Alternative.Written.parts (.cons hwritten hrestWritten) hbindingWritten

theorem reading_epsilon (h : reading.Each ["epsilon", "Binding"] vs ls) :
    reading "Alt" (nodeValue "Epsilon" ["_", "binding"] vs) ls := by
  obtain _ | ⟨hepsilon, _ | ⟨hbinding, ⟨⟩⟩⟩ := h
  obtain ⟨epsilon, rfl, rfl⟩ := hepsilon
  obtain ⟨binding, hbinding, hwritten⟩ := hbinding
  refine ⟨_, alternativeOf_empty rfl hbinding, ?_⟩
  simpa using Alternative.Written.empty epsilon hwritten

theorem reading_exps (h : reading.Each ["Exp", "Exps"] vs ls) :
    reading "Exps" (nodeValue "Exps" ["exp", "rest"] vs) ls := by
  obtain _ | ⟨hexp, _ | ⟨hrest, ⟨⟩⟩⟩ := h
  obtain ⟨e, hpresent, he, hwritten⟩ := hexp
  obtain ⟨rest, hrest, hrestWritten⟩ := hrest
  refine ⟨_, linksOf_eq rfl hpresent he hrest, ?_⟩
  simpa using Sequence.cons hwritten hrestWritten

/-- Brackets of every kind are read alike: only their names and the expression they make
differ. -/
theorem reading_bracket {kind left right : String} {make : List Expr → Expr}
    (hleft : ∀ {v ls}, reading left v ls → ∃ text, v = .token text ∧ ls = [(left, text)])
    (hright : ∀ {v ls}, reading right v ls → ∃ text, v = .token text ∧ ls = [(right, text)])
    (hread : ∀ {v : Value} {parts}, v.kind? = some kind → partsOf v = .ok parts →
      exprOf v = .ok (make parts))
    (hmake : ∀ {e rest ls} (opening closing : String), Sequence Expr.Written (e :: rest) ls →
      (make (e :: rest)).Written ((left, opening) :: ls ++ [(right, closing)]))
    (h : reading.Each [left, "Exp", "Exps", right] vs ls) :
    reading "Exp" (nodeValue kind ["_", "exp", "exps", "_"] vs) ls := by
  obtain _ | ⟨hopening, _ | ⟨hexp, _ | ⟨hexps, _ | ⟨hclosing, ⟨⟩⟩⟩⟩⟩ := h
  obtain ⟨opening, rfl, rfl⟩ := hleft hopening
  obtain ⟨closing, rfl, rfl⟩ := hright hclosing
  obtain ⟨e, hpresent, he, hwritten⟩ := hexp
  obtain ⟨rest, hrest, hrestWritten⟩ := hexps
  refine ⟨_, rfl, hread rfl (partsOf_eq hpresent he hrest), ?_⟩
  simpa using hmake opening closing (.cons hwritten hrestWritten)

theorem reading_name (h : reading.Each ["name"] vs ls) :
    reading "Exp" (nodeValue "Name" ["val"] vs) ls := by
  obtain _ | ⟨hname, ⟨⟩⟩ := h
  obtain ⟨name, rfl, rfl⟩ := hname
  exact ⟨_, rfl, exprOf_name rfl rfl, .symbol name⟩

theorem reading_literal (h : reading.Each ["string"] vs ls) :
    reading "Exp" (nodeValue "Literal" ["val"] vs) ls := by
  obtain _ | ⟨hstring, ⟨⟩⟩ := h
  obtain ⟨text, inner, rfl, rfl, hquoted⟩ := hstring
  exact ⟨_, rfl, exprOf_literal rfl rfl hquoted, .literal hquoted⟩

theorem reading_binding (h : reading.Each ["pound", "name", "Names"] vs ls) :
    reading "Binding" (nodeValue "Binding" ["_", "name", "names"] vs) ls := by
  obtain _ | ⟨hpound, _ | ⟨hname, _ | ⟨hnames, ⟨⟩⟩⟩⟩ := h
  obtain ⟨pound, rfl, rfl⟩ := hpound
  obtain ⟨name, rfl, rfl⟩ := hname
  obtain ⟨fields, hfields, rfl⟩ := hnames
  refine ⟨_, bindingOf_eq rfl rfl hfields, ?_⟩
  simpa using bindingWritten_with pound name fields

theorem reading_names (h : reading.Each ["name", "Names"] vs ls) :
    reading "Names" (nodeValue "Names" ["name", "rest"] vs) ls := by
  obtain _ | ⟨hname, _ | ⟨hrest, ⟨⟩⟩⟩ := h
  obtain ⟨name, rfl, rfl⟩ := hname
  obtain ⟨names, hnames, rfl⟩ := hrest
  exact ⟨_, chainOf_some rfl rfl hnames, by simp⟩

end Rules

/-! ## All rules -/

/-- The rules of grammar files, which have no repetitions. -/
def flatRules : List FlatRule :=
  rules.map fun rule => ⟨rule.head, rule.items.filterMap fun
    | .symbol name => some name
    | _ => none, rule.binding⟩

theorem expandRules_rules : expandRules rules = .ok flatRules := rfl

theorem keeps_node {head kind : String} {body fields : List String}
    (h : ∀ {vs ls}, reading.Each body vs ls → reading head (nodeValue kind fields vs) ls) :
    reading.Keeps ⟨head, body, some (.ofNames kind fields)⟩ := by
  intro p vs ls hbinding hvs
  rw [value_of_ofNames hbinding]
  exact h hvs

theorem keeps_empty {head : String} (h : reading head .empty []) :
    reading.Keeps ⟨head, [], none⟩ := by
  intro p vs ls hbinding hvs
  obtain ⟨rfl, rfl⟩ := Meaning.Each.nil_iff.mp hvs
  rw [Production.value, hbinding]
  exact h

/-- **Every rule of grammar files keeps what values stand for.** -/
theorem keeps_reading : ∀ rule ∈ flatRules, reading.Keeps rule := by
  have hall : flatRules.Forall reading.Keeps :=
    ⟨keeps_node reading_spec, keeps_node reading_tokenPairs, keeps_empty ⟨[], chainOf_none, .nil⟩,
      keeps_node reading_decls, keeps_empty ⟨[], chainOf_none, .nil⟩, keeps_node reading_decl,
      keeps_node reading_alts, keeps_empty ⟨[], chainOf_none, .nil⟩, keeps_node reading_alt,
      keeps_node reading_epsilon, keeps_node reading_exps, keeps_empty ⟨[], rfl, .nil⟩,
      keeps_node (reading_bracket id id exprOf_anyNumber .anyNumber),
      keeps_node (reading_bracket id id exprOf_set .set),
      keeps_node (reading_bracket id id exprOf_optional .optional),
      keeps_node reading_name, keeps_node reading_literal, keeps_node reading_binding,
      keeps_empty ⟨none, rfl, .absent⟩, keeps_node reading_names,
      keeps_empty ⟨[], chainOf_none, rfl⟩⟩
  exact List.forall_iff_forall_mem.mp hall

end GrammarText

end PredictiveParsing
