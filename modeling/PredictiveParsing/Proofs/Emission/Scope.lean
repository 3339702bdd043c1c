import Mathlib.Data.List.Nodup
import PredictiveParsing.Pattern.Engine
import PredictiveParsing.Proofs.Emission.Identifier
import PredictiveParsing.Proofs.Emission.NodeStruct
import PredictiveParsing.Samples

/-!
# Identifiers of emitted source in their scopes

The identifiers for names of a grammar stand next to those that emitted source has in any case.
Functions for nonterminals stand next to the functions of the shared code, and members for fields
next to the one for all attributes; what is reserved keeps them apart. Types of nodes have a name
space of their own, but there are also paths to types from outside in it. A path is looked up by its
first name, and leads to a type of the name space if one has that name. Besides keywords the first
names are `Vec` and `str`. Neither is reserved, so a type of node can have such a name.

## Main definitions

* `Code.functionNames`, `Code.memberNames`: what blocks of code declare
* `Fragment`, `Marked`: code in which paths and chosen identifiers are marked
* `Marked.heads`: the names by which its paths are looked up
* `Marked.nodes`: the name space of the types of nodes

## Main results

* `Namer.mem_answers_iff`: an identifier is handed out if a name asks for it
* `SourceNames.nodup_functionNames`: the functions of a parser have different names
* `ParserModule.memberNames_nodeStruct`: the members of a node
* `Marked.nodeItem_eq`, `Marked.mem_heads_nodes`: the name space of nodes, and its paths
* `ParserModule.identifiers_apart`: functions and members do not clash, and which types do
-/

namespace PredictiveParsing

/-! ## What code declares -/

namespace Code

/-- The first line of a piece of code. -/
def opening : Code → String
  | line text => text
  | nest text _ _ => text

/-- The identifier that stands behind a lead at the beginning of a piece of code. -/
def identifierBehind? (lead : String) (code : Code) : Option String :=
  (code.opening.toList.dropPrefix? lead.toList).map fun rest =>
    String.ofList (rest.takeWhile Identifier.isAllowed)

/-- The pieces of code in the blocks with some opening. -/
def inside (opening : String) (items : List Code) : List Code :=
  items.flatMap fun
    | line _ => []
    | nest text body _ => if text = opening ++ " \x7b" then body else []

/-- The function that a piece of code declares, be it public or not. -/
def functionName? (code : Code) : Option String :=
  (code.identifierBehind? "fn ").or (code.identifierBehind? "pub fn ")

/-- **The functions** that the blocks with some opening declare. -/
def functionNames (opening : String) (items : List Code) : List String :=
  (inside opening items).filterMap functionName?

/-- **The public members** that the blocks with some opening declare. -/
def memberNames (opening : String) (items : List Code) : List String :=
  (inside opening items).filterMap (identifierBehind? "pub ")

theorem functionNames_append (opening : String) (items items' : List Code) :
    functionNames opening (items ++ items') =
      functionNames opening items ++ functionNames opening items' := by
  rw [functionNames, inside, List.flatMap_append, List.filterMap_append]
  rfl

theorem inside_block (opening : String) (body : List Code) :
    inside opening [block opening body] = body := by
  simp [inside, block, braces]

/-- An identifier is read up to the first sign behind it. -/
theorem identifierBehind?_eq_some {lead ident : String} {code : Code} (sign : Char) (rest : String)
    (hident : ∀ c ∈ ident.toList, Identifier.isAllowed c = true)
    (hsign : Identifier.isAllowed sign = false)
    (h : code.opening = lead ++ ident ++ (sign.toString ++ rest)) :
    code.identifierBehind? lead = some ident := by
  have hlist : code.opening.toList = lead.toList ++ (ident.toList ++ sign :: rest.toList) := by
    simp [h]
  rw [identifierBehind?, hlist, List.dropPrefix?_append_of_beq _ (by simp), Option.map_some,
    List.takeWhile_append_of_pos hident, List.takeWhile_cons_of_neg (by simp [hsign]),
    List.append_nil, String.ofList_toList]

/-- The empty lines between items can be left out if nothing is made of them. -/
theorem filterMap_separated {α : Type} {f : Code → Option α} (hgap : f gap = none) :
    ∀ items : List (List Code), (separated items).filterMap f = items.flatten.filterMap f
  | [] => rfl
  | [item] => by simp [separated]
  | item :: item' :: rest => by
    have hrest := filterMap_separated hgap (item' :: rest)
    rw [show separated (item :: item' :: rest) = item ++ gap :: separated (item' :: rest) from rfl,
      List.filterMap_append, List.filterMap_cons_none hgap, hrest, ← List.filterMap_append,
      ← List.flatten_cons]

end Code

/-! ## What is handed out -/

namespace Identifier

variable {ident other : String} {used : List String}

/-- An identifier without underscores that is not in use is taken for the names that ask for it, and
for no other ones. -/
theorem fresh_eq_iff (hunderscore : '_' ∉ ident.toList) (hnew : ident ∉ used) :
    fresh used other = ident ↔ other = ident := by
  obtain ⟨n, -, hfresh, -, hbefore⟩ := exists_fresh used other
  cases n with
  | zero => rw [hfresh, candidate]
  | succ n =>
    constructor
    · rintro rfl
      rw [hfresh] at hunderscore
      exact absurd (by simp [candidate]) hunderscore
    · rintro rfl
      exact absurd (hbefore 0 n.succ_pos) hnew

theorem IsValid.isAllowed (h : IsValid ident) : ∀ c ∈ ident.toList, isAllowed c = true :=
  fun c hc => isAllowed_iff.mpr (h.word.allowed c hc)

end Identifier

namespace Namer

/-- **An identifier without underscores is handed out if a name asks for it**, and not otherwise,
unless it is in use at the start. -/
theorem mem_answers_iff {n : Namer} {requests : List Request} {ident : String}
    (hunderscore : '_' ∉ ident.toList) (hnew : ident ∉ n.used) :
    ident ∈ n.answers requests ↔ ∃ r ∈ requests, r.base = ident := by
  induction requests generalizing n with
  | nil => simp [answers]
  | cons r requests ih =>
    have hfirst : (n.name r.convert r.raw r.fallback).1 = ident ↔ r.base = ident :=
      Identifier.fresh_eq_iff hunderscore hnew
    rw [answers]
    simp only [List.mem_cons, exists_eq_or_imp, ← hfirst]
    by_cases h : (n.name r.convert r.raw r.fallback).1 = ident
    · simp [h]
    · have hnew' : ident ∉ (n.name r.convert r.raw r.fallback).2.used :=
        List.not_mem_cons_of_ne_of_not_mem (Ne.symm h) hnew
      rw [ih hnew', eq_comm]

end Namer

namespace SourceNames

/-- Names that are different are replaced by what they are paired with. -/
theorem map_latest? {α : Type} {pairs : List (String × α)} (hnodup : (pairs.map (·.1)).Nodup)
    (other : String → α) :
    (pairs.map (·.1)).map (fun name => (latest? pairs name).getD (other name)) =
      pairs.map (·.2) := by
  rw [List.map_map]
  refine List.map_congr_left fun p hp => ?_
  rw [Function.comp_apply, latest?_eq_some hnodup hp, Option.getD_some]

variable {m : ParserModule} (snake pascal : List Char → List Char)

/-- The functions for nonterminals are named after the identifiers that are handed out for them. -/
theorem map_routine (hnodup : (m.routines.map (·.nonterminal)).Nodup) :
    (m.routines.map fun r => (ofModule m snake pascal).routine r.nonterminal) =
      ((routineIdentifiers m snake).map (·.2)).map functionName := by
  have hkeys : (ofModule m snake pascal).routines.map (·.1) = m.routines.map (·.nonterminal) := by
    rw [ofModule, List.map_map]
    exact Namer.map_fst_nameAll ..
  have hmap := map_latest? (hkeys ▸ hnodup) fun _ => functionName rootName
  rw [hkeys, List.map_map] at hmap
  rw [List.map_map]
  refine hmap.trans ?_
  rw [ofModule, List.map_map]
  rfl

/-- The types of nodes are the identifiers that are handed out for them. -/
theorem map_nodeType (hnodup : (m.nodeTypes.map (·.name)).Nodup) :
    (m.nodeTypes.map fun t => (ofModule m snake pascal).nodeType t.name) =
      (Namer.mk []).answers (m.nodeTypes.map fun t => ⟨pascal, t.name, "Node"⟩) := by
  have hkeys : (ofModule m snake pascal).nodeTypes.map (·.1) = m.nodeTypes.map (·.name) :=
    Namer.map_fst_nameAll ..
  have hmap := map_latest? (hkeys ▸ hnodup) id
  rw [hkeys, List.map_map] at hmap
  refine hmap.trans ((Namer.map_snd_nameAll ..).trans ?_)
  rw [List.map_map]
  rfl

theorem isAllowed_functionName {ident : String}
    (h : ∀ c ∈ ident.toList, Identifier.isAllowed c = true) :
    ∀ c ∈ (functionName ident).toList, Identifier.isAllowed c = true := by
  intro c hc
  rw [functionName, String.toList_append] at hc
  rcases List.mem_append.mp hc with hc | hc
  · exact List.all_eq_true.mp (by decide : "parse_".toList.all Identifier.isAllowed = true) c hc
  · exact h c hc

end SourceNames

/-! ## The functions of a parser -/

/-- The functions of a parser that the shared code has. -/
def SupportCode.functionNames : List String :=
  ["with_observer", "run", "failure", "peek", "enter", "consume", "no_alternative"]

namespace ParserModule

/-- How blocks with functions of a parser begin. -/
def parserOpening : String := "impl<'l, 'i> Parser<'l, 'i>"

theorem functionNames_supportCode : Code.functionNames parserOpening SupportCode.items.flatten =
    SupportCode.functionNames := by
  decide +kernel

variable {names : SourceNames} {m : ParserModule}

/-- A function is declared under its name. -/
theorem functionName?_parseFunction {name : String} (body : List Code)
    (hname : ∀ c ∈ name.toList, Identifier.isAllowed c = true) :
    (parseFunction name body).functionName? = some name := by
  have hbehind : (parseFunction name body).identifierBehind? "fn " = some name := by
    apply Code.identifierBehind?_eq_some '(' "&mut self) -> Result<Value, ParseFailure> \x7b" hname
      (by decide)
    simp [Code.opening, parseFunction, Code.block, Code.braces, String.append_assoc]
  rw [Code.functionName?, hbehind, Option.some_or]

/-- **The functions of a parser** besides the shared ones: the one that starts a parse, and one for
each routine. -/
theorem functionNames_parserItem
    (hnames : ∀ r ∈ m.routines, ∀ c ∈ (names.routine r.nonterminal).toList,
      Identifier.isAllowed c = true) :
    Code.functionNames parserOpening [parserItem names m] =
      SourceNames.functionName SourceNames.rootName ::
        m.routines.map fun r => names.routine r.nonterminal := by
  have hflat : (m.routines.map fun r => [routineFunction names r]).flatten =
      m.routines.map (routineFunction names) := List.flatMap_pure_eq_map ..
  have hroot : ∀ c ∈ (SourceNames.functionName SourceNames.rootName).toList,
      Identifier.isAllowed c = true :=
    SourceNames.isAllowed_functionName (List.all_eq_true.mp (by decide))
  have hroutines : m.routines.filterMap (Code.functionName? ∘ routineFunction names) =
      m.routines.map fun r => names.routine r.nonterminal :=
    List.filterMap_eq_map_iff_forall_eq_some.mpr fun r hr =>
      functionName?_parseFunction _ (hnames r hr)
  rw [Code.functionNames, parserItem, ← parserOpening, Code.inside_block,
    Code.filterMap_separated (by decide), List.flatten_cons, List.singleton_append, hflat,
    List.filterMap_cons_some (functionName?_parseFunction _ hroot), List.filterMap_map,
    hroutines]

end ParserModule

namespace SourceNames

variable {m : ParserModule} (snake pascal : List Char → List Char)

/-- The functions for nonterminals are named by identifiers. -/
theorem isAllowed_routine (hnodup : (m.routines.map (·.nonterminal)).Nodup) {r : Routine}
    (hr : r ∈ m.routines) :
    ∀ c ∈ ((ofModule m snake pascal).routine r.nonterminal).toList,
      Identifier.isAllowed c = true := by
  obtain ⟨ident, hpair, hroutine⟩ := exists_routine_eq snake pascal hnodup hr
  have hident : ident ∈ (routineIdentifiers m snake).map (·.2) := List.mem_map.mpr ⟨_, hpair, rfl⟩
  rw [routineIdentifiers, Namer.map_snd_nameAll] at hident
  have hvalid : Identifier.IsValid ident :=
    Namer.isValid_answers (by simp [Identifier.fallbacks]) ident hident
  rw [hroutine]
  exact isAllowed_functionName hvalid.isAllowed

/-- No shared function is named as functions for nonterminals are. -/
theorem functionName_not_mem_functionNames (ident : String) :
    functionName ident ∉ SupportCode.functionNames := by
  have hnone : ∀ name ∈ SupportCode.functionNames, ¬ "parse_".toList <+: name.toList := by
    decide
  intro hmem
  apply hnone _ hmem
  rw [functionName, String.toList_append]
  exact List.prefix_append ..

/-- **All functions of a parser have different names.** -/
theorem nodup_functionNames (hnodup : (m.routines.map (·.nonterminal)).Nodup) :
    (SupportCode.functionNames ++ functionName rootName ::
      m.routines.map fun r => (ofModule m snake pascal).routine r.nonterminal).Nodup := by
  obtain ⟨hdifferent, hroot⟩ := nodup_routineIdentifiers snake m
  rw [map_routine snake pascal hnodup, ← List.map_cons, List.nodup_append']
  refine ⟨by decide, ?_, ?_⟩
  · refine List.Nodup.map (fun _ _ => functionName_inj) (List.nodup_cons.mpr ⟨?_, hdifferent⟩)
    exact fun hmem => hroot _ hmem rfl
  · intro name hshared hname
    obtain ⟨ident, -, rfl⟩ := List.mem_map.mp hname
    exact functionName_not_mem_functionNames ident hshared

end SourceNames

/-! ## The members of a node -/

namespace ParserModule

variable {names : SourceNames} {t : NodeType}

/-- **The members of a node**: one for each field, and the one for all attributes. -/
theorem memberNames_nodeStruct
    (hnames : ∀ member ∈ names.members t.name, ∀ c ∈ member.2.toList,
      Identifier.isAllowed c = true) :
    Code.memberNames ("pub struct " ++ names.nodeType t.name) (nodeStruct names t) =
      (names.members t.name).map (·.2) ++ [SourceNames.attributesName] := by
  have hmembers : (names.members t.name).filterMap
      (Code.identifierBehind? "pub " ∘ fun p => .line ("pub " ++ p.2 ++ ": super::Value,")) =
        (names.members t.name).map (·.2) :=
    List.filterMap_eq_map_iff_forall_eq_some.mpr fun p hp =>
      Code.identifierBehind?_eq_some ':' " super::Value," (hnames p hp) (by decide)
        (by simp [Code.opening, String.append_assoc])
  have hinside (body : List Code) : Code.inside ("pub struct " ++ names.nodeType t.name)
      [derivation, .block ("pub struct " ++ names.nodeType t.name) body] = body :=
    Code.inside_block _ body
  rw [Code.memberNames, nodeStruct, hinside, List.filterMap_append, List.filterMap_map, hmembers]
  rfl

end ParserModule

namespace SourceNames

variable {m : ParserModule} {t : NodeType} (snake pascal : List Char → List Char)

theorem isAllowed_members (hnodup : (m.nodeTypes.map (·.name)).Nodup) (ht : t ∈ m.nodeTypes) :
    ∀ member ∈ (ofModule m snake pascal).members t.name, ∀ c ∈ member.2.toList,
      Identifier.isAllowed c = true := by
  intro member hmember
  have hident : member.2 ∈ (membersOf t snake).map (·.2) := by
    rw [← members_ofModule hnodup ht]
    exact List.mem_map_of_mem hmember
  rw [membersOf, Namer.map_snd_nameAll] at hident
  exact (Namer.isValid_answers (by simp [Identifier.fallbacks]) member.2 hident).isAllowed

end SourceNames

/-! ## The paths of the name space of nodes -/

/-- **A fragment of a line** of code in the name space of the types of nodes. -/
inductive Fragment where
  /-- What leads to no type: signs, keywords, quoted texts, and names of variables and members. -/
  | plain (text : String)
  /-- A path to something that the name space does not declare. -/
  | path (head : String) (rest : List String)
  /-- The type that the name space declares for a type of node. -/
  | declared (ident : String)
deriving DecidableEq

namespace Fragment

/-- The written form of a fragment. -/
def text : Fragment → String
  | plain text => text
  | path head rest => "::".intercalate (head :: rest)
  | declared ident => ident

/-- The name by which a path is looked up. -/
def head? : Fragment → Option String
  | path head _ => some head
  | plain _ => none
  | declared _ => none

end Fragment

/-- **Code in which the paths are marked.** -/
inductive Marked where
  /-- A line. -/
  | line (fragments : List Fragment)
  /-- A block in braces, with some text behind the closing one. -/
  | braces (opening : List Fragment) (body : List Marked) (behind : String)

namespace Marked

/-- The written form of fragments, one after the other. -/
def text (fragments : List Fragment) : String := String.join (fragments.map Fragment.text)

mutual

/-- The code without the marks. -/
def code : Marked → Code
  | line fragments => .line (text fragments)
  | braces opening body behind => .braces (text opening) (codeAll body) behind

/-- Pieces of code without the marks. -/
def codeAll : List Marked → List Code
  | [] => []
  | marked :: rest => marked.code :: codeAll rest

end

mutual

/-- **The names by which the paths are looked up.** -/
def heads : Marked → List String
  | line fragments => fragments.filterMap Fragment.head?
  | braces opening body _ => opening.filterMap Fragment.head? ++ headsAll body

/-- The names by which the paths in pieces of code are looked up. -/
def headsAll : List Marked → List String
  | [] => []
  | marked :: rest => marked.heads ++ headsAll rest

end

@[simp] theorem codeAll_eq_map (l : List Marked) : codeAll l = l.map code := by
  induction l with
  | nil => rfl
  | cons marked l ih => rw [codeAll, ih, List.map_cons]

@[simp] theorem headsAll_eq_flatMap (l : List Marked) : headsAll l = l.flatMap heads := by
  induction l with
  | nil => rfl
  | cons marked l ih => rw [headsAll, ih, List.flatMap_cons]

section Nodes

open Fragment

variable (names : SourceNames)

/-- A line without paths. -/
def plainLine (text : String) : Marked := line [plain text]

/-- The type of the attributes of a node. -/
def attributesType : List Fragment :=
  [path "Vec" [], plain "<(&'static ", path "str" [], plain ", ", path "super" ["Value"],
    plain ")>"]

/-- The type for a type of node. The names of the derived traits are no names of types, and no path
leads by them. -/
def nodeStruct (t : NodeType) : List Marked :=
  [plainLine "#[derive(Clone, Debug, PartialEq, Eq)]",
    braces [plain "pub struct ", declared (names.nodeType t.name)]
      ((names.members t.name).map (fun (_, member) =>
          line [plain ("pub " ++ member ++ ": "), path "super" ["Value"], plain ","]) ++
        [line ([plain "pub attrs: "] ++ attributesType ++ [plain ","])]) ""]

/-- The function that makes a node from its attributes. -/
def nodeConstructor (t : NodeType) : Marked :=
  let members := names.members t.name
  braces ([plain "pub fn new(attrs: "] ++ attributesType ++ [plain ") -> ", path "Self" []])
    (if members.isEmpty then [line [path "Self" [], plain " \x7b attrs \x7d"]]
    else
      [braces [plain "let mut node = ", declared (names.nodeType t.name)]
          (members.map (fun (_, member) =>
              line [plain (member ++ ": "), path "super" ["Value", "Empty"], plain ","]) ++
            [line [plain "attrs: ", path "Vec" ["new"], plain "(),"]]) ";",
        braces [plain "for (key, value) in &attrs"] [
          braces [plain "match *key"]
            (members.map (fun (field, member) => plainLine
                (Quoted.quote field ++ " => node." ++ member ++ " = value.clone(),")) ++
              [plainLine "_ => \x7b\x7d"]) ""] "",
        plainLine "node.attrs = attrs;",
        plainLine "node"]) ""

/-- What can be done with the type for a type of node. -/
def nodeFunctions (t : NodeType) : List Marked :=
  [braces [plain "impl ", declared (names.nodeType t.name)] [nodeConstructor names t] ""]

/-- **The types of nodes** with their functions, as items of their name space. -/
def nodes (types : List NodeType) : List (List Marked) :=
  types.flatMap fun t => [nodeStruct names t, nodeFunctions names t]

variable {names} {t : NodeType} {types : List NodeType} {ident : String}

@[simp] theorem text_nil : text [] = "" := rfl

@[simp] theorem text_cons (fragment : Fragment) (l : List Fragment) :
    text (fragment :: l) = fragment.text ++ text l := by
  simp [text]

@[simp] theorem text_append (l l' : List Fragment) : text (l ++ l') = text l ++ text l' := by
  simp [text]

theorem text_attributesType : text attributesType = ParserModule.attributesType := by decide

theorem codeAll_nodeStruct : codeAll (nodeStruct names t) = ParserModule.nodeStruct names t := by
  simp [nodeStruct, ParserModule.nodeStruct, ParserModule.derivation, plainLine, code, Code.block,
    text_attributesType, Fragment.text, Function.comp_def, String.append_assoc]

theorem code_nodeConstructor :
    (nodeConstructor names t).code = ParserModule.nodeConstructor names t := by
  by_cases h : names.members t.name = []
  · simp [nodeConstructor, ParserModule.nodeConstructor, code, Code.block, text_attributesType,
      Fragment.text, h, String.append_assoc]
  · simp [nodeConstructor, ParserModule.nodeConstructor, plainLine, code, Code.block,
      text_attributesType, Fragment.text, h, Function.comp_def, String.append_assoc]

theorem codeAll_nodeFunctions : codeAll (nodeFunctions names t) =
    [.block ("impl " ++ names.nodeType t.name) [ParserModule.nodeConstructor names t]] := by
  simp [nodeFunctions, code, Fragment.text, code_nodeConstructor, Code.block]

/-- **The name space of nodes is written out from its marked code.** -/
theorem nodeItem_eq : ParserModule.nodeItem names types =
    .block "pub mod nodes" (Code.separated ((nodes names types).map codeAll)) := by
  rw [ParserModule.nodeItem, nodes, List.map_flatMap]
  simp only [List.map_cons, List.map_nil, codeAll_nodeStruct, codeAll_nodeFunctions]

theorem mem_headsAll_nodeStruct :
    ident ∈ headsAll (nodeStruct names t) ↔ ident ∈ ["Vec", "str", "super"] := by
  simp [nodeStruct, attributesType, plainLine, heads, Fragment.head?]
  grind

theorem mem_heads_nodeConstructor :
    ident ∈ (nodeConstructor names t).heads ↔ ident ∈ ["Vec", "str", "super", "Self"] := by
  by_cases h : names.members t.name = []
  · simp [nodeConstructor, attributesType, heads, Fragment.head?, h]
    grind
  · simp [nodeConstructor, attributesType, plainLine, heads, Fragment.head?, h]
    grind

theorem mem_headsAll_nodeFunctions :
    ident ∈ headsAll (nodeFunctions names t) ↔ ident ∈ ["Vec", "str", "super", "Self"] := by
  simp [nodeFunctions, heads, Fragment.head?, mem_heads_nodeConstructor]

/-- **The paths are looked up by four names**, of which two are keywords. -/
theorem mem_heads_nodes : ident ∈ headsAll (nodes names types).flatten ↔
    types ≠ [] ∧ ident ∈ ["Vec", "str", "super", "Self"] := by
  have hitems : ident ∈ headsAll (nodes names types).flatten ↔
      ∃ item ∈ nodes names types, ident ∈ headsAll item := by
    simp only [headsAll_eq_flatMap, List.mem_flatMap, List.mem_flatten]
    grind
  rw [hitems]
  constructor
  · rintro ⟨item, hitem, hident⟩
    obtain ⟨t, ht, hitem⟩ := List.mem_flatMap.mp hitem
    refine ⟨List.ne_nil_of_mem ht, ?_⟩
    rcases List.mem_pair.mp hitem with rfl | rfl
    · exact List.mem_append_left ["Self"] (mem_headsAll_nodeStruct.mp hident)
    · exact mem_headsAll_nodeFunctions.mp hident
  · rintro ⟨htypes, hident⟩
    obtain ⟨t, ht⟩ := List.exists_mem_of_ne_nil types htypes
    exact ⟨_, List.mem_flatMap.mpr ⟨t, ht, List.mem_cons_of_mem _ List.mem_cons_self⟩,
      mem_headsAll_nodeFunctions.mpr hident⟩

end Nodes

end Marked

/-! ## The types of nodes among the paths -/

namespace SourceNames

variable {m : ParserModule} (snake pascal : List Char → List Char)

/-- A type of node is no keyword. -/
theorem isValid_nodeType (hnodup : (m.nodeTypes.map (·.name)).Nodup) {t : NodeType}
    (ht : t ∈ m.nodeTypes) : Identifier.IsValid ((ofModule m snake pascal).nodeType t.name) := by
  have hident : (ofModule m snake pascal).nodeType t.name ∈
      m.nodeTypes.map fun t => (ofModule m snake pascal).nodeType t.name := List.mem_map_of_mem ht
  rw [map_nodeType snake pascal hnodup] at hident
  exact Namer.isValid_answers (by simp [Identifier.fallbacks]) _ hident

/-- **Which types of nodes the paths lead to** instead of the types from outside: those with one of
two names. -/
theorem nodeType_mem_heads_iff (hnodup : (m.nodeTypes.map (·.name)).Nodup) {t : NodeType}
    (ht : t ∈ m.nodeTypes) :
    (ofModule m snake pascal).nodeType t.name ∈
      Marked.headsAll (Marked.nodes (ofModule m snake pascal) m.nodeTypes).flatten ↔
        (ofModule m snake pascal).nodeType t.name ∈ ["Vec", "str"] := by
  have hkeyword := (isValid_nodeType snake pascal hnodup ht).not_keyword
  have hsuper : (ofModule m snake pascal).nodeType t.name ≠ "super" :=
    fun h => hkeyword (h ▸ by decide)
  have hself : (ofModule m snake pascal).nodeType t.name ≠ "Self" :=
    fun h => hkeyword (h ▸ by decide)
  rw [Marked.mem_heads_nodes]
  simp [List.ne_nil_of_mem ht, hsuper, hself]

/-- **Some type of node has one of some identifiers** without underscores if the name of one asks
for it. -/
theorem exists_nodeType_mem_iff (hnodup : (m.nodeTypes.map (·.name)).Nodup) {idents : List String}
    (hunderscore : ∀ ident ∈ idents, '_' ∉ ident.toList) :
    (∃ t ∈ m.nodeTypes, (ofModule m snake pascal).nodeType t.name ∈ idents) ↔
      ∃ t ∈ m.nodeTypes, Identifier.base pascal t.name "Node" ∈ idents := by
  have hone (ident : String) (hident : ident ∈ idents) :
      (∃ t ∈ m.nodeTypes, (ofModule m snake pascal).nodeType t.name = ident) ↔
        ∃ t ∈ m.nodeTypes, Identifier.base pascal t.name "Node" = ident := by
    have hanswers : ident ∈ (Namer.mk []).answers
        (m.nodeTypes.map fun t => ⟨pascal, t.name, "Node"⟩) ↔ _ :=
      Namer.mem_answers_iff (hunderscore ident hident) List.not_mem_nil
    rw [← map_nodeType snake pascal hnodup] at hanswers
    simpa [Namer.Request.base] using hanswers
  constructor
  · rintro ⟨t, ht, hmem⟩
    obtain ⟨t', ht', hbase⟩ := (hone _ hmem).mp ⟨t, ht, rfl⟩
    exact ⟨t', ht', hbase ▸ hmem⟩
  · rintro ⟨t, ht, hmem⟩
    obtain ⟨t', ht', hident⟩ := (hone _ hmem).mpr ⟨t, ht, rfl⟩
    exact ⟨t', ht', hident ▸ hmem⟩

end SourceNames

/-! ## Everything together -/

/-- **Identifiers in their scopes.** Let letters be converted in any way for functions and members,
and in any way for types. In a parser module whose routines are those of different nonterminals and
whose types of nodes have different names, the functions of the emitted parser are the shared ones,
the one that starts a parse and one for each routine, and no two of them have one name. The members
of a node are one for each field and the one for all attributes, and no two of them have one name.

The name space of the types of nodes is written out from code in which all paths are marked. One of
the types that it declares has the name that a path is looked up by, so that the path leads to it
instead of a type from outside, if and only if the identifier that the name of some type of node
asks for is `Vec` or `str`. -/
theorem ParserModule.identifiers_apart (m : ParserModule) (snake pascal : List Char → List Char)
    (htypes : (m.nodeTypes.map (·.name)).Nodup)
    (hroutines : (m.routines.map (·.nonterminal)).Nodup) :
    let names := SourceNames.ofModule m snake pascal
    let functions := Code.functionNames "impl<'l, 'i> Parser<'l, 'i>"
      (SupportCode.items.flatten ++ [parserItem names m])
    functions = ["with_observer", "run", "failure", "peek", "enter", "consume", "no_alternative",
        "parse_root"] ++ m.routines.map (fun r => names.routine r.nonterminal) ∧
    functions.Nodup ∧
    (∀ t ∈ m.nodeTypes,
      let members := Code.memberNames ("pub struct " ++ names.nodeType t.name) (nodeStruct names t)
      members = (names.members t.name).map (·.2) ++ ["attrs"] ∧ members.Nodup) ∧
    nodeItem names m.nodeTypes = .block "pub mod nodes"
      (Code.separated ((Marked.nodes names m.nodeTypes).map Marked.codeAll)) ∧
    ((∃ t ∈ m.nodeTypes, names.nodeType t.name ∈
        Marked.headsAll (Marked.nodes names m.nodeTypes).flatten) ↔
      ∃ t ∈ m.nodeTypes, Identifier.base pascal t.name "Node" ∈ ["Vec", "str"]) := by
  intro names functions
  have hfunctions : functions = SupportCode.functionNames ++
      SourceNames.functionName SourceNames.rootName ::
        m.routines.map fun r => names.routine r.nonterminal := by
    rw [← functionNames_supportCode, ← functionNames_parserItem fun r hr =>
      SourceNames.isAllowed_routine snake pascal hroutines hr]
    exact Code.functionNames_append ..
  refine ⟨hfunctions, ?_, fun t ht => ?_, Marked.nodeItem_eq, ?_⟩
  · rw [hfunctions]
    exact SourceNames.nodup_functionNames snake pascal hroutines
  · have hmembers := memberNames_nodeStruct (SourceNames.isAllowed_members snake pascal htypes ht)
    refine ⟨hmembers, ?_⟩
    rw [hmembers]
    exact SourceNames.nodup_memberNames htypes ht
  · rw [← SourceNames.exists_nodeType_mem_iff snake pascal htypes (by decide)]
    exact exists_congr fun t =>
      and_congr_right (SourceNames.nodeType_mem_heads_iff snake pascal htypes)

/-- Pairs with a member whose field has a keyword as its name. -/
theorem ParserModule.identifiers_apart_sharedType : ∃ c : Compiled,
    Samples.sharedType.build Pattern.engine = .ok c.grammar ∧ c.grammar.compile = .ok c ∧
    let m := c.parserModule none true
    let names := SourceNames.ofModule m
    (m.nodeTypes.map (·.name)).Nodup ∧ (m.routines.map (·.nonterminal)).Nodup ∧
    Code.functionNames "impl<'l, 'i> Parser<'l, 'i>"
      (SupportCode.items.flatten ++ [parserItem names m]) =
        ["with_observer", "run", "failure", "peek", "enter", "consume", "no_alternative",
          "parse_root", "parse_pair"] ∧
    (∀ t ∈ m.nodeTypes, Code.memberNames ("pub struct " ++ names.nodeType t.name)
      (nodeStruct names t) = ["first", "type_", "attrs"]) ∧
    ¬ ∃ t ∈ m.nodeTypes, names.nodeType t.name ∈
      Marked.headsAll (Marked.nodes names m.nodeTypes).flatten := by
  have hrun : ((Samples.sharedType.build Pattern.engine).toOption.bind fun g =>
      g.compile.toOption.map fun c =>
        let m := c.parserModule none true
        let names := SourceNames.ofModule m
        decide (m.nodeTypes = [⟨"Pair", ["first", "type"]⟩] ∧
          m.routines.map (·.nonterminal) = ["Pair"] ∧
          m.routines.map (fun r => names.routine r.nonterminal) = ["parse_pair"] ∧
          (names.members "Pair").map (·.2) = ["first", "type_"])) = some true := by
    decide +kernel
  simp only [Option.bind_eq_some_iff, Option.map_eq_some_iff, toOption_eq_some,
    decide_eq_true_eq] at hrun
  obtain ⟨g, hbuild, c, hcompile, htypes, hroutines, hfunctions, hmembers⟩ := hrun
  obtain ⟨rfl, -⟩ := Compiled.coherent hbuild hcompile
  have htypes' : ((c.parserModule none true).nodeTypes.map (·.name)).Nodup := by simp [htypes]
  have hroutines' : ((c.parserModule none true).routines.map (·.nonterminal)).Nodup := by
    simp [hroutines]
  obtain ⟨hdeclared, -, hstructs, -, hcaptured⟩ :=
    ParserModule.identifiers_apart (c.parserModule none true) WordCase.snake WordCase.pascal htypes'
      hroutines'
  refine ⟨c, hbuild, hcompile, htypes', hroutines', ?_, fun t ht => ?_, ?_⟩
  · rw [hdeclared, hfunctions]
    rfl
  · rw [(hstructs t ht).1]
    obtain rfl : t = ⟨"Pair", ["first", "type"]⟩ := by simpa [htypes] using ht
    rw [hmembers]
    rfl
  · rw [hcaptured, htypes]
    decide +kernel

/-- **A type of node that captures a path**: `vec` asks for `Vec`, and then all attributes have the
type for the nodes instead of lists. -/
theorem ParserModule.captured_vector : ∃ c : Compiled,
    Samples.vector.build Pattern.engine = .ok c.grammar ∧ c.grammar.compile = .ok c ∧
    let m := c.parserModule none false
    let names := SourceNames.ofModule m
    (m.nodeTypes.map (·.name)).Nodup ∧ (∀ t ∈ m.nodeTypes, t.fields.Nodup) ∧
    (m.routines.map (·.nonterminal)).Nodup ∧
    ∃ t ∈ m.nodeTypes, names.nodeType t.name = "Vec" ∧
      "Vec" ∈ Marked.headsAll (Marked.nodes names m.nodeTypes).flatten := by
  have hrun : ((Samples.vector.build Pattern.engine).toOption.bind fun g =>
      g.compile.toOption.map fun c =>
        let m := c.parserModule none false
        decide ((m.nodeTypes.map (·.name)).Nodup ∧ (∀ t ∈ m.nodeTypes, t.fields.Nodup) ∧
          (m.routines.map (·.nonterminal)).Nodup ∧
          ∃ t ∈ m.nodeTypes, (SourceNames.ofModule m).nodeType t.name = "Vec")) = some true := by
    decide +kernel
  simp only [Option.bind_eq_some_iff, Option.map_eq_some_iff, toOption_eq_some,
    decide_eq_true_eq] at hrun
  obtain ⟨g, hbuild, c, hcompile, htypes, hfields, hroutines, t, ht, hvec⟩ := hrun
  obtain ⟨rfl, -⟩ := Compiled.coherent hbuild hcompile
  exact ⟨c, hbuild, hcompile, htypes, hfields, hroutines, t, ht, hvec,
    Marked.mem_heads_nodes.mpr ⟨List.ne_nil_of_mem ht, List.mem_cons_self⟩⟩

end PredictiveParsing
