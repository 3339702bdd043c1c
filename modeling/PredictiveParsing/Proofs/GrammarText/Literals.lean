import PredictiveParsing.Proofs.Grammar.Representation
import PredictiveParsing.Proofs.Grammar.Resolution
import PredictiveParsing.Proofs.GrammarText.Loading
import PredictiveParsing.Proofs.Pattern.Literal

/-!
# What texts in quotes stand for

A text in quotes stands for the terminal of its name. If there was no such terminal when the text
was met, one is declared that reads just this text. But a token that is listed keeps its pattern,
and if it has the name of a text in quotes, the text is read with that pattern.

## Main definitions

* `Grammar.ReadsItself`: a terminal reads just the text that is its name

## Main results

* `Declarations.exists_terminal_of_build`: a declared terminal that is written stands in a body
* `GrammarText.literals_of_load`: what texts in quotes stand for in the grammar that is loaded
-/

namespace PredictiveParsing

/-! ## Declared terminals in a grammar -/

namespace Declarations

variable {engine : PatternEngine} {d : Declarations} {g : Grammar} {name pattern : String}

/-- **A declared terminal that is written** stands in a body, with the pattern that was declared
for it. -/
theorem exists_terminal_of_build (h : d.build engine = .ok g) (hwrites : d.Writes name)
    (hdeclared : (name, pattern) ∈ d.terminals) :
    ∃ t, g.terminal? name = some t ∧ g.terminals[t]? = some ⟨name, pattern⟩ ∧
      ∃ p ∈ g.productions, .terminal t ∈ p.body := by
  have wf := wellFormed_of_build h
  obtain ⟨t, ht⟩ := List.mem_iff_getElem?.mp hdeclared
  have hentry : g.terminals[t]? = some ⟨name, pattern⟩ := by
    rw [(terminals_of_build h).1, List.getElem?_toArray, List.getElem?_map, ht]
    rfl
  have hterminal : g.terminal? name = some t := by
    rw [wf.terminal?_eq_some, hentry]
    rfl
  obtain ⟨x, hx, p, hp, hbody⟩ := (denotes_of_build h).2 name hwrites
  refine ⟨t, hterminal, hentry, p, hp, ?_⟩
  have hnonterminal (nt : Nat) : g.nonterminal? name ≠ some nt := by
    intro hnt
    obtain ⟨nonterminal, hget, hname⟩ :=
      Option.map_eq_some_iff.mp (wf.nonterminal?_eq_some.mp hnt)
    refine (List.nodup_append.mp wf.names_nodup).2.2 name ?_ name ?_ rfl
    · exact List.mem_map.mpr ⟨_, Array.mem_toList_iff.mpr (Array.mem_of_getElem? hentry), rfl⟩
    · exact List.mem_map.mpr ⟨_, Array.mem_toList_iff.mpr (Array.mem_of_getElem? hget), hname⟩
  cases hx with
  | terminal _ h =>
    obtain rfl := Option.some.inj (hterminal.symm.trans h)
    exact hbody
  | nonterminal _ h => exact absurd h (hnonterminal _)
  | borrowed _ _ h => exact absurd h (hnonterminal _)

end Declarations

/-! ## Texts in quotes -/

/-- **A terminal reads just the text that is its name.** -/
structure Grammar.ReadsItself (g : Grammar) (t : Nat) (text : String) : Prop where
  /-- The pattern of the terminal is the written form of the pattern of the text. -/
  pattern : g.terminals[t]? = some ⟨text, String.ofList (Pattern.escape text.toList)⟩
  /-- The rule for its tokens reads the text where it stands, and nothing anywhere else. -/
  reads : ∃ rule, g.lexicon.rules[t + 1]? = some rule ∧
    ∀ l, rule.find l = if text.toList <+: l then some text.toList.length else none

namespace GrammarText

mutual

/-- A text that stands for itself is the name of a symbol. -/
theorem Expr.literals_subset : (e : Expr) → e.literals ⊆ e.item.names
  | .symbol _ => List.nil_subset _
  | .literal _ => List.Subset.refl _
  | .anyNumber parts => Expr.literalsAll_subset parts
  | .optional parts => Expr.literalsAll_subset parts
  | .set parts => Expr.literalsAll_subset parts

theorem Expr.literalsAll_subset : (parts : List Expr) →
    Expr.literalsAll parts ⊆ Item.namesAll (Expr.items parts)
  | [] => List.nil_subset _
  | e :: rest => by
    rw [literalsAll, items, Item.namesAll, List.append_subset]
    exact ⟨List.subset_append_of_subset_left _ (Expr.literals_subset e),
      List.subset_append_of_subset_right _ (Expr.literalsAll_subset rest)⟩

end

/-- The rules of a grammar file write the texts that stand for themselves. -/
theorem Document.writes_of_mem_literals {doc : Document} {text : String}
    (h : text ∈ doc.literals) : doc.toDeclarations.Writes text := by
  rw [toDeclarations_eq]
  obtain ⟨declaration, hdeclaration, h⟩ := List.mem_flatMap.mp h
  obtain ⟨a, ha, h⟩ := List.mem_flatMap.mp h
  refine ⟨a.rule declaration.head, ?_, Expr.literalsAll_subset a.parts h⟩
  exact List.mem_flatMap.mpr ⟨declaration, hdeclaration, List.mem_map_of_mem ha⟩

/-- Listed tokens are declared as they are listed. -/
theorem Document.mem_terminals_of_mem_tokens {doc : Document} {entry : String × String}
    (h : entry ∈ doc.tokens) : entry ∈ doc.toDeclarations.terminals := by
  rw [toDeclarations_eq]
  exact List.mem_append_left _ h

/-- A text in quotes is declared with the pattern of the text, unless a token of this name is listed
with another one. -/
theorem Document.literalTerminal_mem_terminals {doc : Document} {text : String}
    (h : text ∈ doc.literals)
    (hlisted : ∀ pattern, (text, pattern) ∈ doc.tokens → (text, pattern) = literalTerminal text) :
    literalTerminal text ∈ doc.toDeclarations.terminals := by
  by_cases hmem : text ∈ doc.tokens.map (·.1)
  · obtain ⟨⟨_, pattern⟩, hpair, rfl⟩ := List.mem_map.mp hmem
    rw [← hlisted pattern hpair]
    exact mem_terminals_of_mem_tokens hpair
  · rw [toDeclarations_eq]
    refine List.mem_append_right _ (List.mem_map_of_mem (List.mem_eraseDups.mpr ?_))
    exact List.mem_filter.mpr ⟨h, decide_eq_true hmem⟩

/-- A text in quotes is the name of a declared terminal. -/
theorem Document.exists_mem_terminals {doc : Document} {text : String} (h : text ∈ doc.literals) :
    ∃ pattern, (text, pattern) ∈ doc.toDeclarations.terminals := by
  by_cases hlisted : ∃ pattern, (text, pattern) ∈ doc.tokens
  · exact hlisted.imp fun _ => mem_terminals_of_mem_tokens
  · exact ⟨_, literalTerminal_mem_terminals h fun pattern hp => absurd ⟨pattern, hp⟩ hlisted⟩

/-- A terminal with the pattern of a text reads just this text. -/
theorem readsItself_of_build {engine : PatternEngine} (htexts : engine.ReadsTexts)
    {d : Declarations} {g : Grammar} (hbuild : d.build engine = .ok g) {t : Nat} {text : String}
    (ht : g.terminals[t]? = some ⟨text, String.ofList (Pattern.escape text.toList)⟩) :
    g.ReadsItself t text := by
  obtain ⟨find, hfind, hrule⟩ := Declarations.exists_rule_of_build hbuild ht
  exact ⟨ht, _, hrule, htexts _ find hfind⟩

/-- **What texts in quotes stand for.** Let patterns be understood in any way in which strings and
given texts are read as they should. Each text in quotes is the name of a terminal that stands in a
body. If a token of this name is listed, the terminal has the pattern that is listed. So the
terminal reads just the text if and only if no token of this name is listed with another pattern. -/
theorem literals_of_load {engine : PatternEngine} (hstrings : engine.ReadsStrings)
    (htexts : engine.ReadsTexts) {source : String} {g : Grammar}
    (h : (Session.load source engine).finish.1 = .ok g) :
    ∃ doc, contents source engine = .ok doc ∧ doc.WrittenIn source engine ∧
      doc.toDeclarations.build engine = .ok g ∧
      ∀ text ∈ doc.literals, ∃ t, g.terminal? text = some t ∧
        (∃ p ∈ g.productions, .terminal t ∈ p.body) ∧
        (∀ pattern, (text, pattern) ∈ doc.tokens → g.terminals[t]? = some ⟨text, pattern⟩) ∧
        (g.ReadsItself t text ↔
          ∀ pattern, (text, pattern) ∈ doc.tokens → (text, pattern) = literalTerminal text) := by
  obtain ⟨doc, hdoc, hbuild⟩ := Session.load_eq_ok.mp h
  refine ⟨doc, hdoc, writtenIn_of_contents hstrings hdoc, hbuild, ?_⟩
  intro text htext
  have hwrites := Document.writes_of_mem_literals htext
  obtain ⟨pattern, hdeclared⟩ := Document.exists_mem_terminals htext
  obtain ⟨t, hterminal, -, hbody⟩ :=
    Declarations.exists_terminal_of_build hbuild hwrites hdeclared
  have hentry {pattern : String} (hp : (text, pattern) ∈ doc.toDeclarations.terminals) :
      g.terminals[t]? = some ⟨text, pattern⟩ := by
    obtain ⟨t', hterminal', hentry, -⟩ :=
      Declarations.exists_terminal_of_build hbuild hwrites hp
    obtain rfl := Option.some.inj (hterminal.symm.trans hterminal')
    exact hentry
  refine ⟨t, hterminal, hbody, ?_, ?_, ?_⟩
  · intro pattern hp
    exact hentry (Document.mem_terminals_of_mem_tokens hp)
  · intro hreads pattern hp
    have hboth := hentry (Document.mem_terminals_of_mem_tokens hp)
    obtain ⟨-, rfl⟩ := Terminal.mk.inj (Option.some.inj (hboth.symm.trans hreads.pattern))
    rfl
  · intro hlisted
    exact readsItself_of_build htexts hbuild
      (hentry (Document.literalTerminal_mem_terminals htext hlisted))

/-- In the grammar file of pairs no token has the name of the sign in quotes, so its terminal reads
just this sign. -/
theorem literals_of_load_pairs : ∃ g t, (Session.load Samples.pairs).finish.1 = .ok g ∧
    g.terminal? "+" = some t ∧ g.ReadsItself t "+" := by
  have hrun : ((contents Samples.pairs).toOption.bind fun doc =>
      (doc.toDeclarations.build Pattern.engine).toOption.map fun _ =>
        (doc.tokens, doc.literals)) = some ([("a", "x")], ["+"]) := by
    decide +kernel
  simp only [Option.bind_eq_some_iff, Option.map_eq_some_iff, toOption_eq_some,
    Prod.mk.injEq] at hrun
  obtain ⟨doc, hdoc, g, hbuild, htokens, hliterals⟩ := hrun
  have hload := Session.load_eq_ok.mpr ⟨doc, hdoc, hbuild⟩
  obtain ⟨doc', hdoc', -, -, hstands⟩ :=
    literals_of_load Pattern.readsStrings_engine Pattern.readsTexts_engine hload
  obtain rfl := Except.ok.inj (hdoc.symm.trans hdoc')
  obtain ⟨t, hterminal, -, -, hreads⟩ := hstands "+" (by simp [hliterals])
  refine ⟨g, t, hload, hterminal, hreads.mpr ?_⟩
  intro pattern hpattern
  simp [htokens] at hpattern

/-- **A text in quotes is not always read as itself**: if a token of this name is listed with
another pattern, that is what is read, and where the text itself stands there is no token at all. -/
theorem literal_homonym : ∃ g doc, (Session.load Samples.homonym).finish.1 = .ok g ∧
    contents Samples.homonym = .ok doc ∧ "x" ∈ doc.literals ∧ g.terminal? "x" = some 0 ∧
    g.terminals[0]? = some ⟨"x", "y"⟩ ∧ ¬ g.ReadsItself 0 "x" ∧
    g.lexicon.scan "x".toList = .stuck ⟨1, "x"⟩ ∧
    g.lexicon.scan "y".toList = .token ⟨0, "x", "y", 1⟩ (.done 1) := by
  have hrun : ((contents Samples.homonym).toOption.bind fun doc =>
      (doc.toDeclarations.build Pattern.engine).toOption.map fun g =>
        (g.lexicon.scan "x".toList, g.lexicon.scan "y".toList,
          decide ("x" ∈ doc.literals ∧ g.terminal? "x" = some 0 ∧
            g.terminals[0]? = some ⟨"x", "y"⟩))) =
      some (.stuck ⟨1, "x"⟩, .token ⟨0, "x", "y", 1⟩ (.done 1), true) := by
    decide +kernel
  simp only [Option.bind_eq_some_iff, Option.map_eq_some_iff, toOption_eq_some, Prod.mk.injEq,
    decide_eq_true_eq] at hrun
  obtain ⟨doc, hdoc, g, hbuild, hx, hy, hliteral, hterminal, hentry⟩ := hrun
  refine ⟨g, doc, Session.load_eq_ok.mpr ⟨doc, hdoc, hbuild⟩, hdoc, hliteral, hterminal, hentry,
    ?_, hx, hy⟩
  intro hreads
  have hpattern := Option.some.inj (hentry.symm.trans hreads.pattern)
  revert hpattern
  decide

end GrammarText

end PredictiveParsing
