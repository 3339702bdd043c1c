import PredictiveParsing.Proofs.Analysis.FollowCoverage
import PredictiveParsing.Proofs.Parse.Completeness
import PredictiveParsing.Proofs.Prediction.Conflicts

/-!
# Choices that the next token leaves open

Where a nonterminal stands in a sentential form, an alternative leads on before a token if its body
and what stands behind the nonterminal derive a sequence that begins with the token. The choice is
open if two alternatives do so, in one form or in two.

The list of conflicts compares alternatives with each other, by what they can begin with. If it is
empty the choice can still be open between an alternative that begins with a token and one that
vanishes before it, and there is no other way. This is an overlap of what the nonterminal can begin
with and what can follow it. The alternative that begins with the token is taken then.

An overlap need not leave the choice open for its own nonterminal, as one alternative may both begin
with the token and vanish. But then a nonterminal in the body has the overlap, too, so there is an
open choice further down.

## Main definitions

* `Grammar.LeadsOn`, `Grammar.Undecided`: alternatives that lead on, and open choices
* `Grammar.Overlaps`: a nonterminal can vanish before a terminal that it can begin with

## Main results

* `Compiled.Coherent.overlaps_of_leadsOn`: what an open choice is like if there are no conflicts
* `Grammar.WellFormed.exists_undecided_of_overlaps`: below an overlap there is an open choice
* `Compiled.overlaps_of_conflicts_nil`: both together
-/

namespace PredictiveParsing

namespace Grammar

/-- A nonterminal vanishes by one of its alternatives. -/
theorem WellFormed.exists_alternative_of_derives_nil {g : Grammar} (wf : g.WellFormed) {nt : Nat}
    (h : g.Derives [.nonterminal nt] []) :
    ∃ p ∈ g.alternatives nt, g.Derives (g.body p) [] := by
  rcases Relation.ReflTransGen.cases_head h with heq | ⟨β, hstep, hrest⟩
  · cases heq
  · have hbody := mem_steps.mpr hstep
    simp only [steps, List.map_nil, List.append_nil, List.mem_map, List.mem_filter, beq_iff_eq,
      Array.mem_toList_iff] at hbody
    obtain ⟨production, ⟨hp, rfl⟩, rfl⟩ := hbody
    obtain ⟨p, hmem, -, hbody⟩ := wf.exists_alternative hp
    exact ⟨p, hmem, hbody ▸ hrest⟩

/-! ## Open choices and overlaps -/

/-- **An alternative leads on** before a terminal, or at the end of the text: in some sentential
form its body and what stands behind the nonterminal derive a sequence that begins with the
terminal, or the empty one. -/
def LeadsOn (g : Grammar) (nt p : Nat) (next : Option Nat) : Prop :=
  ∃ before after, g.Sentential (before ++ .nonterminal nt :: after) ∧
    match next with
    | some t => ∃ γ, g.Derives (g.body p ++ after) (.terminal t :: γ)
    | none => g.Derives (g.body p ++ after) []

/-- **A choice is open**: two alternatives lead on. -/
def Undecided (g : Grammar) (nt : Nat) (next : Option Nat) : Prop :=
  ∃ p ∈ g.alternatives nt, ∃ q ∈ g.alternatives nt,
    p ≠ q ∧ g.LeadsOn nt p next ∧ g.LeadsOn nt q next

/-- **A nonterminal overlaps with what follows it**: it can vanish before a terminal that one of
its alternatives can begin with. -/
structure Overlaps (g : Grammar) (nt t : Nat) : Prop where
  vanishes : g.Derives [.nonterminal nt] []
  begins : ∃ p ∈ g.alternatives nt, (Clash.terminal t).AcceptedBy g p
  follows : g.Precedes (.nonterminal nt) (.terminal t)

namespace LeadsOn

variable {g : Grammar} {nt p t : Nat} {next : Option Nat}

theorem occurs (h : g.LeadsOn nt p next) : g.Occurs (.nonterminal nt) := by
  obtain ⟨before, after, hform, -⟩ := h
  exact ⟨before, after, hform⟩

/-- At the end of the text an alternative leads on only if it can vanish. -/
theorem acceptedBy_epsilon (h : g.LeadsOn nt p none) : Clash.epsilon.AcceptedBy g p := by
  obtain ⟨_, _, -, hderives⟩ := h
  exact (derives_append_nil_iff.mp hderives).1

/-- **An alternative that leads on before a terminal** begins with it, or vanishes before it. -/
theorem acceptedBy_or (h : g.LeadsOn nt p (some t)) : (Clash.terminal t).AcceptedBy g p ∨
    Clash.epsilon.AcceptedBy g p ∧ g.Precedes (.nonterminal nt) (.terminal t) := by
  obtain ⟨before, after, hform, γ, hderives⟩ := h
  rcases hderives.cons_of_append with hbegins | ⟨hvanishes, δ, hafter⟩
  · exact .inl hbegins
  · right
    refine ⟨hvanishes, before, δ, ?_⟩
    have hform' : g.Sentential (before ++ [.nonterminal nt] ++ after) := by simpa using hform
    have hnext := hform'.trans (hafter.append_left (before ++ [.nonterminal nt]))
    simpa [Sentential] using hnext

/-- An alternative that begins with a terminal leads on before it. -/
theorem of_acceptedBy (hoccurs : g.Occurs (.nonterminal nt))
    (h : (Clash.terminal t).AcceptedBy g p) : g.LeadsOn nt p (some t) := by
  obtain ⟨before, after, hform⟩ := hoccurs
  obtain ⟨γ, hγ⟩ := h
  exact ⟨before, after, hform, γ ++ after, hγ.append_right after⟩

/-- So does one that vanishes before it. -/
theorem of_vanishing (hfollows : g.Precedes (.nonterminal nt) (.terminal t))
    (h : Clash.epsilon.AcceptedBy g p) : g.LeadsOn nt p (some t) := by
  obtain ⟨before, after, hform⟩ := hfollows
  exact ⟨before, .terminal t :: after, hform, after, h.append_right (.terminal t :: after)⟩

end LeadsOn

/-- **If a body begins with a terminal and does not vanish**, but its head can vanish before the
terminal, then another alternative vanishes and the choice is open. -/
theorem WellFormed.undecided_of_body {g : Grammar} (wf : g.WellFormed) {p : Production}
    (hp : p ∈ g.productions) {γ : List Symbol} {t : Nat}
    (hbegins : g.Derives p.body (.terminal t :: γ)) (hempty : ¬ g.Derives p.body [])
    (hvanishes : g.Derives [.nonterminal p.head] [])
    (hfollows : g.Precedes (.nonterminal p.head) (.terminal t)) :
    g.Undecided p.head (some t) := by
  obtain ⟨i, hi, -, hbody⟩ := wf.exists_alternative hp
  obtain ⟨q, hq, hqnil⟩ := wf.exists_alternative_of_derives_nil hvanishes
  rw [← hbody] at hbegins hempty
  refine ⟨i, hi, q, hq, ?_, ?_, ?_⟩
  · rintro rfl
    exact hempty hqnil
  · exact .of_acceptedBy hfollows.occurs_left ⟨γ, hbegins⟩
  · exact .of_vanishing hfollows hqnil

/-- What derives a sequence that begins with a terminal has a first symbol that does so, behind
symbols that vanish; and if that is a nonterminal which overlaps with the terminal, then there is an
open choice. -/
theorem WellFormed.exists_first {g : Grammar} (wf : g.WellFormed) {α γ : List Symbol} {t : Nat}
    (h : g.Derives α (.terminal t :: γ)) : ∃ before x after, α = before ++ x :: after ∧
      g.Derives before [] ∧ (∃ δ, g.Derives [x] (.terminal t :: δ)) ∧
      ∀ nt, x = .nonterminal nt → g.Derives [.nonterminal nt] [] →
        g.Precedes (.nonterminal nt) (.terminal t) → ∃ m, g.Undecided m (some t) := by
  -- Induction from the end of the derivation. If the first symbol stands in the body that the step
  -- puts in, then the head is the first symbol before the step.
  induction h using Relation.ReflTransGen.head_induction_on with
  | refl => exact ⟨[], .terminal t, γ, rfl, .refl [], ⟨[], .refl _⟩, by rintro nt ⟨⟩⟩
  | @head α β hstep _ ih =>
    obtain ⟨before, x, after, heq, hbefore, hbegins, hopen⟩ := ih
    obtain @⟨p, hp, left, right⟩ := hstep
    rcases append_eq_append_cons.mp heq with ⟨rest, hinner, rfl⟩ | ⟨rest, rfl, rfl⟩
    · rcases append_eq_append_cons.mp hinner with ⟨rest', rfl, rfl⟩ | ⟨rest', rfl, hbody⟩
      · exact ⟨before, x, rest' ++ .nonterminal p.head :: right, by simp, hbefore, hbegins, hopen⟩
      · obtain ⟨hleft, hrest'⟩ := derives_append_nil_iff.mp hbefore
        obtain ⟨δ, hδ⟩ := hbegins
        have hbodyBegins : g.Derives p.body (.terminal t :: (δ ++ rest)) := by
          rw [hbody]
          simpa using hrest'.append (hδ.append_right rest)
        refine ⟨left, .nonterminal p.head, right, rfl, hleft,
          ⟨_, (Derives.of_production hp).trans hbodyBegins⟩, ?_⟩
        rintro nt ⟨⟩ hvanishes hfollows
        by_cases hempty : g.Derives p.body []
        · have hinner : g.Derives (rest' ++ ([x] ++ rest)) [] := by
            rw [hbody] at hempty
            simpa using hempty
          obtain ⟨hx, hrest⟩ := derives_append_nil_iff.mp (derives_append_nil_iff.mp hinner).2
          cases x with
          | terminal u => cases Derives.eq_terminal hx
          | nonterminal m => exact hopen m rfl hx (hfollows.of_body hp hbody hrest)
        · exact ⟨p.head, wf.undecided_of_body hp hbodyBegins hempty hvanishes hfollows⟩
    · obtain ⟨hinner, hrest⟩ := derives_append_nil_iff.mp hbefore
      obtain ⟨hleft, hbody⟩ := derives_append_nil_iff.mp hinner
      have hhead := (Derives.of_production hp).trans hbody
      refine ⟨left ++ .nonterminal p.head :: rest, x, after, by simp, ?_, hbegins, hopen⟩
      simpa using hleft.append (hhead.append hrest)

/-- **Below an overlap there is an open choice.** -/
theorem WellFormed.exists_undecided_of_overlaps {g : Grammar} (wf : g.WellFormed) {nt t : Nat}
    (h : g.Overlaps nt t) : ∃ m, g.Undecided m (some t) := by
  obtain ⟨p, hp, γ, hγ⟩ := h.begins
  obtain ⟨production, hmem, -, hhead, hbody⟩ := wf.exists_production hp
  rw [hbody] at hγ
  have hbegins := (Derives.of_production hmem).trans hγ
  rw [hhead] at hbegins
  obtain ⟨before, x, after, heq, -, -, hopen⟩ := wf.exists_first hbegins
  obtain ⟨rfl, rfl, rfl⟩ : before = [] ∧ x = .nonterminal nt ∧ after = [] := by
    cases before with
    | nil => simpa [eq_comm] using heq
    | cons y before => simp at heq
  exact hopen nt rfl h.vanishes h.follows

end Grammar

namespace Compiled

namespace Coherent

variable {c : Compiled} (hc : c.Coherent) {nt p q : Nat}

include hc

/-- Without conflicts no two alternatives accept the same. -/
theorem eq_of_acceptedBy (hnone : c.prediction.conflicts = [])
    (hnt : c.grammar.Occurs (.nonterminal nt)) (hp : p ∈ c.grammar.alternatives nt)
    (hq : q ∈ c.grammar.alternatives nt) {clash : Clash} (hclash : clash.AcceptedBy c.grammar p)
    (hclash' : clash.AcceptedBy c.grammar q) : p = q := by
  by_contra hne
  have hconflict := hc.exists_conflict hnt hp hq hne hclash hclash'
  simp [hnone] at hconflict

/-- Without conflicts an alternative that begins with a terminal is taken before it. -/
theorem select_of_acceptedBy (hnone : c.prediction.conflicts = [])
    (hnt : c.grammar.Occurs (.nonterminal nt)) (hp : p ∈ c.grammar.alternatives nt) {t : Nat}
    (hbegins : (Clash.terminal t).AcceptedBy c.grammar p) :
    (c.prediction.choice nt).select (some t) = .alternative p := by
  apply (hc.select_eq_alternative_iff_unique hnt (by simp [hnone])).mpr
  exact ⟨hp, hbegins, fun q hq hq' => hc.eq_of_acceptedBy hnone hnt hq hp hq' hbegins⟩

/-- An alternative that begins with a terminal and one that vanishes before it make an overlap. -/
theorem overlaps_of_acceptedBy (hp : p ∈ c.grammar.alternatives nt)
    (hq : q ∈ c.grammar.alternatives nt) {t : Nat}
    (hbegins : (Clash.terminal t).AcceptedBy c.grammar p)
    (hvanishes : Clash.epsilon.AcceptedBy c.grammar q)
    (hfollows : c.grammar.Precedes (.nonterminal nt) (.terminal t)) :
    c.grammar.Overlaps nt t := by
  obtain ⟨production, hmem, -, rfl, hbody⟩ := hc.wellFormed.exists_production hq
  refine ⟨(Grammar.Derives.of_production hmem).trans ?_, ⟨p, hp, hbegins⟩, hfollows⟩
  exact hbody ▸ hvanishes

/-- **Without conflicts a choice is open only at an overlap**: one alternative begins with the
terminal that comes next, and is taken, and the other one vanishes before it. -/
theorem overlaps_of_leadsOn (hnone : c.prediction.conflicts = [])
    (hp : p ∈ c.grammar.alternatives nt) (hq : q ∈ c.grammar.alternatives nt) (hne : p ≠ q)
    {next : Option Nat} (hpnext : c.grammar.LeadsOn nt p next)
    (hqnext : c.grammar.LeadsOn nt q next) :
    ∃ t, next = some t ∧ c.grammar.Overlaps nt t ∧
      ((c.prediction.choice nt).select (some t) = .alternative p ∨
        (c.prediction.choice nt).select (some t) = .alternative q) := by
  have hnt := hpnext.occurs
  have hdistinct {clash : Clash} (h : clash.AcceptedBy c.grammar p)
      (h' : clash.AcceptedBy c.grammar q) : False :=
    hne (hc.eq_of_acceptedBy hnone hnt hp hq h h')
  cases next with
  | none => exact (hdistinct hpnext.acceptedBy_epsilon hqnext.acceptedBy_epsilon).elim
  | some t =>
    refine ⟨t, rfl, ?_⟩
    rcases hpnext.acceptedBy_or with hpt | ⟨hpnil, hfollows⟩
    · rcases hqnext.acceptedBy_or with hqt | ⟨hqnil, hfollows⟩
      · exact (hdistinct hpt hqt).elim
      · exact ⟨hc.overlaps_of_acceptedBy hp hq hpt hqnil hfollows,
          .inl (hc.select_of_acceptedBy hnone hnt hp hpt)⟩
    · rcases hqnext.acceptedBy_or with hqt | ⟨hqnil, -⟩
      · exact ⟨hc.overlaps_of_acceptedBy hq hp hqt hpnil hfollows,
          .inr (hc.select_of_acceptedBy hnone hnt hq hqt)⟩
      · exact (hdistinct hpnil hqnil).elim

/-- If FIRST and FOLLOW are disjoint where they have to be, nothing overlaps. -/
theorem not_overlaps_of_isLL1 (hll : c.IsLL1) (t : Nat) : ¬ c.grammar.Overlaps nt t := by
  rintro ⟨hvanishes, ⟨p, hp, γ, hγ⟩, hfollows⟩
  have hreachable : nt ∈ c.analysis.reachable := by
    rw [hc.reachable]
    exact hc.wellFormed.mem_reachable_iff.mpr hfollows.occurs_left
  have hsymbol := hc.wellFormed.hasSymbol_of_occurs hfollows.occurs_left
  have hfirst : t ∈ (c.analysis.first.nonterminal nt).terminals := by
    have hlt : t < c.grammar.terminals.size :=
      hc.wellFormed.hasSymbol_of_occurs hfollows.occurs_right
    obtain ⟨production, hmem, -, rfl, hbody⟩ := hc.wellFormed.exists_production hp
    have hderives := (Grammar.Derives.of_production hmem).trans (hbody ▸ hγ)
    have hsize := FirstSets.size_symbol hc.wellFormed hc.firstSets (.nonterminal production.head)
    refine LookaheadSet.mem_terminals.mpr ⟨?_, hsize ▸ hlt⟩
    exact (FirstSets.mem_symbol_iff hc.wellFormed hc.firstSets hsymbol).mpr (.terminal hlt hderives)
  have hepsilon := (FirstSets.nullable_iff hc.wellFormed hc.firstSets hsymbol).mpr hvanishes
  exact hll.disjoint nt hreachable hepsilon t hfirst (hc.mem_terminals_follow hfollows)

end Coherent

/-- **What an empty list of conflicts says.** No two alternatives of a nonterminal that occurs accept
the same. If two lead on before what comes next, then that is a terminal which the nonterminal can
begin with, and before which it can vanish; the alternative that begins with it is taken. Choices
are open if and only if there are such overlaps, and there are none if FIRST and FOLLOW of the
nonterminals that can vanish are disjoint. -/
theorem overlaps_of_conflicts_nil {engine : PatternEngine} {d : Declarations} {g : Grammar}
    {c : Compiled} (hbuild : d.build engine = .ok g) (hcompile : g.compile = .ok c)
    (hnone : c.prediction.conflicts = []) :
    (∀ nt, g.Occurs (.nonterminal nt) → ∀ p ∈ g.alternatives nt, ∀ q ∈ g.alternatives nt,
      ∀ clash : Clash, clash.AcceptedBy g p → clash.AcceptedBy g q → p = q) ∧
    (∀ nt next, ∀ p ∈ g.alternatives nt, ∀ q ∈ g.alternatives nt, p ≠ q →
      g.LeadsOn nt p next → g.LeadsOn nt q next → ∃ t, next = some t ∧ g.Overlaps nt t ∧
        ((c.prediction.choice nt).select (some t) = .alternative p ∨
          (c.prediction.choice nt).select (some t) = .alternative q)) ∧
    ((∃ nt t, g.Overlaps nt t) ↔ ∃ nt next, g.Undecided nt next) ∧
    (c.IsLL1 → ∀ nt next, ¬ g.Undecided nt next) := by
  obtain ⟨rfl, hc⟩ := coherent hbuild hcompile
  have hopen {nt : Nat} {next : Option Nat} (h : c.grammar.Undecided nt next) :
      ∃ t, c.grammar.Overlaps nt t := by
    obtain ⟨p, hp, q, hq, hne, hpnext, hqnext⟩ := h
    obtain ⟨t, -, hoverlaps, -⟩ := hc.overlaps_of_leadsOn hnone hp hq hne hpnext hqnext
    exact ⟨t, hoverlaps⟩
  refine ⟨?_, ?_, ⟨?_, ?_⟩, ?_⟩
  · intro nt hnt p hp q hq clash hclash hclash'
    exact hc.eq_of_acceptedBy hnone hnt hp hq hclash hclash'
  · intro nt next p hp q hq hne hpnext hqnext
    exact hc.overlaps_of_leadsOn hnone hp hq hne hpnext hqnext
  · rintro ⟨nt, t, h⟩
    obtain ⟨m, hm⟩ := hc.wellFormed.exists_undecided_of_overlaps h
    exact ⟨m, some t, hm⟩
  · rintro ⟨nt, next, h⟩
    exact ⟨nt, hopen h⟩
  · intro hll nt next h
    obtain ⟨t, ht⟩ := hopen h
    exact hc.not_overlaps_of_isLL1 hll t ht

/-- Nested lists have no conflicts, and no choice is open. -/
theorem overlaps_of_conflicts_nil_nested : ∃ g c, Samples.nested.build Pattern.engine = .ok g ∧
    g.compile = .ok c ∧ c.prediction.conflicts = [] ∧ c.IsLL1 ∧
    ∀ nt next, ¬ g.Undecided nt next := by
  have hrun : ((Samples.nested.build Pattern.engine).toOption.bind fun g =>
      g.compile.toOption.map fun c => decide c.IsLL1) = some true := by
    decide +kernel
  simp only [Option.bind_eq_some_iff, Option.map_eq_some_iff, toOption_eq_some,
    decide_eq_true_eq] at hrun
  obtain ⟨g, hbuild, c, hcompile, hll⟩ := hrun
  obtain ⟨-, -, -, hdecided⟩ := overlaps_of_conflicts_nil hbuild hcompile hll.conflicts
  exact ⟨g, c, hbuild, hcompile, hll.conflicts, hll, hdecided hll⟩

/-- **No conflict is listed for a trailing item**, though it can vanish before the `a` that it can
begin with, so that both of its alternatives lead on before `a`. -/
theorem conflicts_nil_trailing : ∃ g c, Samples.trailing.build Pattern.engine = .ok g ∧
    g.compile = .ok c ∧ c.prediction.conflicts = [] ∧ g.Overlaps 1 0 ∧ g.Undecided 1 (some 0) := by
  have hrun : ((Samples.trailing.build Pattern.engine).toOption.bind fun g =>
      g.compile.toOption.map fun c => decide (c.prediction.conflicts = [] ∧ g.start = 0 ∧
        g.alternatives 1 = [1, 2] ∧ g.body 1 = [.terminal 0] ∧ g.body 2 = [] ∧
        [.nonterminal 1, .terminal 0] ∈ g.steps [.nonterminal 0] ∧
        [] ∈ g.steps [.nonterminal 1])) = some true := by
    decide +kernel
  simp only [Option.bind_eq_some_iff, Option.map_eq_some_iff, toOption_eq_some,
    decide_eq_true_eq] at hrun
  obtain ⟨g, hbuild, c, hcompile, hnone, hstart, halternatives, hbegin, hempty, hrow, hitem⟩ := hrun
  have hfollows : g.Precedes (.nonterminal 1) (.terminal 0) := by
    refine ⟨[], [], ?_⟩
    rw [Grammar.Sentential, hstart]
    exact .of_rewrites (Grammar.mem_steps.mp hrow)
  have hbegins : (Clash.terminal 0).AcceptedBy g 1 := ⟨[], hbegin ▸ .refl _⟩
  have hvanishes : Clash.epsilon.AcceptedBy g 2 := by
    rw [Clash.AcceptedBy, hempty]
    exact .refl []
  refine ⟨g, c, hbuild, hcompile, hnone, ⟨?_, ⟨1, ?_, hbegins⟩, hfollows⟩,
    1, ?_, 2, ?_, by decide, ?_, ?_⟩
  · exact .of_rewrites (Grammar.mem_steps.mp hitem)
  · simp [halternatives]
  · simp [halternatives]
  · simp [halternatives]
  · exact .of_acceptedBy hfollows.occurs_left hbegins
  · exact .of_vanishing hfollows hvanishes

end Compiled

end PredictiveParsing
