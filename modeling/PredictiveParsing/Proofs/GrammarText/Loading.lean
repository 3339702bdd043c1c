import PredictiveParsing.Proofs.GrammarText.Faithful
import PredictiveParsing.Proofs.GrammarText.Strings
import PredictiveParsing.Session

/-!
# What loading a grammar file returns

A session notes what happens on the way, but no step of it looks at the journal: what it returns is
the same after any notes. So the result of loading a grammar file is that of its steps alone. The
grammar of grammar files is built and compiled, the text is parsed with it, and the contents that
are taken out of its value are declared and built.

## Main definitions

* `Session.Returns`: a session returns a result, whatever was noted before
* `GrammarText.contents`: what a text says as a grammar file, or why it cannot be read
* `GrammarText.Document.WrittenIn`: contents are written with the tokens of a text

## Main results

* `Session.Returns.bind`: steps of a session return what they do without the journal
* `GrammarText.writtenIn_of_contents`: what a text says is written in it
* `Session.load_eq_ok`: what is loaded is built from the contents of the text
-/

namespace PredictiveParsing

namespace Session

/-- **A session returns a result**, whatever was noted before. -/
def Returns {ε α : Type} (s : Session ε α) (r : Except ε α) : Prop :=
  ∀ notes : List Note, ((s.run).run notes).1 = r

theorem Returns.finish {ε α : Type} {s : Session ε α} {r : Except ε α} (hs : s.Returns r) :
    s.finish.1 = r :=
  hs []

section Steps

variable {ε ε' α β : Type}

theorem returns_pure (a : α) : Returns (pure a : Session ε α) (.ok a) := fun _ => rfl

theorem returns_throw (e : ε) : Returns (throw e : Session ε α) (.error e) := fun _ => rfl

theorem returns_noteAll (notes : List Note) : Returns (noteAll notes : Session ε Unit) (.ok ()) :=
  fun _ => rfl

/-- **Steps of a session return what they do without the journal.** -/
theorem Returns.bind {s : Session ε α} {r : Except ε α} {f : α → Session ε β}
    {next : α → Except ε β} (hs : s.Returns r) (hf : ∀ a, (f a).Returns (next a)) :
    Returns (s >>= f) (r >>= next) := by
  intro notes
  obtain ⟨result, notes', hrun⟩ : ∃ result notes', (s.run).run notes = (result, notes') :=
    ⟨_, _, rfl⟩
  obtain rfl : result = r := by
    rw [← hs notes, hrun]
  rw [ExceptT.run_bind, StateT.run_bind, hrun]
  cases result with
  | error e => rfl
  | ok a => exact hf a notes'

/-- A fault is renamed, and nothing else changes. -/
theorem Returns.mapError {s : Session ε α} {r : Except ε α} (hs : s.Returns r) (f : ε → ε') :
    (mapError f s).Returns (r.mapError f) := by
  intro notes
  rw [← hs notes]
  rfl

end Steps

/-! ## The steps of loading -/

theorem returns_build (d : Declarations) (engine : PatternEngine) :
    (build d engine).Returns ((d.build engine).mapError .build) := by
  unfold build
  cases d.build engine with
  | error e => exact returns_throw _
  | ok g => exact (returns_noteAll _).bind fun _ => returns_pure g

theorem returns_compile (g : Grammar) :
    (compile g).Returns (g.compile.mapError fun e => e.toError g) := by
  unfold compile
  cases g.compile with
  | error e => exact (returns_noteAll _).bind fun _ => returns_throw _
  | ok c => exact (returns_noteAll _).bind fun _ => returns_pure c

theorem returns_parse {ε : Type} (c : Compiled) (text : String) :
    (parse c text : Session ε _).Returns (.ok (c.parse text)) :=
  (returns_noteAll _).bind fun _ => returns_pure _

end Session

namespace GrammarText

/-- The compiled grammar of grammar files. -/
def loader (engine : PatternEngine) : Except GrammarError Compiled := do
  let g ← (declarations.build engine).mapError .build
  g.compile.mapError fun e => e.toError g

/-- What the value that a parse yields says, or why it yields none. -/
def contentsOf : Outcome Scan ParseError Value → Except LoadError Document
  | .exhausted => .error .exhausted
  | .failed e _ => .error (.syntaxError e)
  | .ok value _ _ => (documentOf value).mapError .malformed

/-- **What a text says as a grammar file**, or why it cannot be read. -/
def contents (source : String) (engine : PatternEngine := Pattern.engine) :
    Except LoadError Document := do
  let c ← (loader engine).mapError .grammar
  contentsOf (c.parse source)

/-- The grammar that the contents of a grammar file stand for. -/
def Document.grammar (doc : Document) (engine : PatternEngine) : Except LoadError Grammar :=
  ((doc.toDeclarations.build engine).mapError GrammarError.build).mapError .grammar

theorem Document.grammar_eq_ok {doc : Document} {engine : PatternEngine} {g : Grammar} :
    doc.grammar engine = .ok g ↔ doc.toDeclarations.build engine = .ok g := by
  rw [grammar, mapError_eq_ok, mapError_eq_ok]

theorem contentsOf_eq_ok {o : Outcome Scan ParseError Value} {doc : Document} :
    contentsOf o = .ok doc ↔
      ∃ value rest events, o = .ok value rest events ∧ documentOf value = .ok doc := by
  cases o with
  | ok value rest events => simp [contentsOf, mapError_eq_ok]
  | failed e events => simp [contentsOf]
  | exhausted => simp [contentsOf]

/-- **Contents are written in a text** if they are written with its tokens, all the way to its
end. -/
def Document.WrittenIn (doc : Document) (source : String)
    (engine : PatternEngine := Pattern.engine) : Prop :=
  ∃ g tokens line, GrammarText.declarations.build engine = .ok g ∧
    g.lexicon.scan source.toList = Scan.prepend tokens (.done line) ∧
    doc.Written (tokens.map g.lexeme)

/-- **What a text says is written in it.** -/
theorem writtenIn_of_contents {engine : PatternEngine} (hstrings : engine.ReadsStrings)
    {source : String} {doc : Document} (h : contents source engine = .ok doc) :
    doc.WrittenIn source engine := by
  obtain ⟨c, hloader, h⟩ := bind_eq_ok.mp h
  obtain ⟨g, hbuild, hcompile⟩ := bind_eq_ok.mp (mapError_eq_ok.mp hloader)
  rw [mapError_eq_ok] at hbuild hcompile
  obtain ⟨value, rest, events, hparse, hdoc⟩ := contentsOf_eq_ok.mp h
  obtain ⟨rfl, hc⟩ := Compiled.coherent hbuild hcompile
  obtain ⟨tree, line, htree, hscan, -, rfl, -⟩ := hc.exists_tree_of_parse hparse
  have hquoted : ∀ t ∈ tree.yield, c.grammar.terminalName t.terminal = "string" →
      ∃ inner, IsQuoted t.text inner := by
    intro t ht
    refine isQuoted_of_mem_tokens hstrings hbuild
      (?_ : t ∈ (c.grammar.lexicon.scan source.toList).tokens)
    rw [hscan, Scan.tokens_prepend]
    exact List.mem_append_left _ ht
  obtain ⟨doc', hdoc', hwritten⟩ := exists_document_of_tree hbuild htree hquoted
  rw [hc.shapes, hdoc'] at hdoc
  obtain rfl := Except.ok.inj hdoc
  exact ⟨_, tree.yield, line, hbuild, hscan, hwritten⟩

end GrammarText

namespace Session

open GrammarText (contents contentsOf Document)

variable (engine : PatternEngine)

theorem returns_loader : (loader engine).Returns (GrammarText.loader engine) :=
  (returns_build _ engine).bind returns_compile

theorem returns_loadWith (c : Compiled) (source : String) :
    (loadWith c source engine).Returns
      (contentsOf (c.parse source) >>= (Document.grammar · engine)) := by
  show Returns _ (.ok (c.parse source) >>= fun outcome =>
    contentsOf outcome >>= (Document.grammar · engine))
  refine (returns_parse c source).bind fun outcome => ?_
  cases outcome with
  | exhausted => exact returns_throw _
  | failed e events => exact returns_throw _
  | ok value rest events =>
    dsimp only [contentsOf]
    cases GrammarText.documentOf value with
    | error e => exact returns_throw _
    | ok doc => exact (returns_build _ engine).mapError _

/-- **Loading reads the contents of a text**, and then it builds what they declare. -/
theorem returns_load (source : String) :
    (load source engine).Returns (contents source engine >>= (Document.grammar · engine)) := by
  rw [contents, bind_assoc]
  exact ((returns_loader engine).mapError _).bind fun c => returns_loadWith engine c source

variable {engine}

/-- **What is loaded is built from the contents of the text.** -/
theorem load_eq_ok {source : String} {g : Grammar} : (load source engine).finish.1 = .ok g ↔
    ∃ doc, contents source engine = .ok doc ∧ doc.toDeclarations.build engine = .ok g := by
  rw [(returns_load engine source).finish]
  simp only [bind_eq_ok, Document.grammar_eq_ok]

end Session

end PredictiveParsing
