import Mathlib.Data.List.Chain
import Mathlib.Data.List.Perm.Subperm
import PredictiveParsing.GrammarError
import PredictiveParsing.Proofs.Analysis.First

/-!
# Left recursion is found

A nonterminal is a left corner of another if it stands in one of its bodies behind symbols that
can vanish. Compiling fails just if a nonterminal is reached from itself over left corners, that
is, if it derives a sequence that begins with itself. What is reported is such a way.

The search decides whether a symbol can vanish by the sets it has recorded so far. A recorded
set is exact, so each step of the search is a left corner, and a way back to a nonterminal under
exploration is one over left corners. If no way back is met, the order in which the sets are
recorded ranks the nonterminals, and left corners lead downwards.

## Main definitions

* `Grammar.LeftCorner`: a nonterminal can begin with another
* `Grammar.LeftRecursive`: a nonterminal derives a sequence that begins with itself
* `Grammar.IsLeftCycle`: a way from a nonterminal back to it over left corners

## Main results

* `Grammar.transGen_leftCorner_iff`: ways over left corners and derivations
* `Grammar.not_leftRecursive_of_firstSets`: nothing is left recursive if FIRST is found
* `Grammar.visit_error`: a failed search reports a way
* `Grammar.compile_error_iff`: compiling fails just if a nonterminal is left recursive
-/

namespace PredictiveParsing

namespace Grammar

variable {g : Grammar}

/-- **A nonterminal can begin with another**: the other stands in one of its bodies behind symbols
that derive the empty text. -/
def LeftCorner (g : Grammar) (nt m : Nat) : Prop :=
  ∃ p ∈ g.productions, p.head = nt ∧ ∃ before after,
    p.body = before ++ .nonterminal m :: after ∧ ∀ x ∈ before, g.Derives [x] []

/-- **A nonterminal derives a sequence that begins with itself**, in one or more steps. -/
def LeftRecursive (g : Grammar) (nt : Nat) : Prop :=
  ∃ γ, Relation.TransGen g.Rewrites [.nonterminal nt] (.nonterminal nt :: γ)

/-- **A way from a nonterminal back to it**, over left corners and without a repeated name in
between. -/
structure IsLeftCycle (g : Grammar) (nt : Nat) (cycle : List Nat) : Prop where
  two_le_length : 2 ≤ cycle.length
  head : cycle.head? = some nt
  last : cycle.getLast? = some nt
  names_nodup : (cycle.tail.map g.nonterminalName).Nodup
  leftCorners : cycle.IsChain g.LeftCorner

/-! ## Ways and derivations -/

theorem LeftCorner.transGen {nt m : Nat} (h : g.LeftCorner nt m) :
    ∃ γ, Relation.TransGen g.Rewrites [.nonterminal nt] (.nonterminal m :: γ) := by
  obtain ⟨p, hp, rfl, before, after, hbody, hbefore⟩ := h
  have hstep : g.Rewrites [.nonterminal p.head] p.body := by simpa using Rewrites.replace hp [] []
  rw [hbody] at hstep
  have hrest := (Derives.nil_of_forall hbefore).append_right (.nonterminal m :: after)
  exact ⟨after, Relation.TransGen.head' hstep hrest⟩

/-- What a derived sequence begins with is reached over left corners from a nonterminal of the
sequence that derives it, and all that stands before that nonterminal can vanish. -/
theorem Derives.exists_leading {α γ : List Symbol} {m : Nat}
    (h : g.Derives α (.nonterminal m :: γ)) :
    ∃ before nt after, α = before ++ .nonterminal nt :: after ∧
      (∀ x ∈ before, g.Derives [x] []) ∧ Relation.ReflTransGen g.LeftCorner nt m := by
  -- Induction from the end of the derivation; the cases are the places of the leading
  -- nonterminal of `β`: before the body that has been put in, in it, or behind it.
  induction h using Relation.ReflTransGen.head_induction_on with
  | refl => exact ⟨[], m, γ, rfl, by simp, .refl⟩
  | @head α β hstep _ ih =>
    obtain ⟨before, nt, after, heq, hbefore, hcorners⟩ := ih
    obtain @⟨p, hp, left, right⟩ := hstep
    rcases append_eq_append_cons.mp heq with ⟨rest, hinner, rfl⟩ | ⟨rest, rfl, rfl⟩
    · rcases append_eq_append_cons.mp hinner with ⟨rest', rfl, rfl⟩ | ⟨rest', rfl, hbody⟩
      · exact ⟨before, nt, rest' ++ .nonterminal p.head :: right, by simp, hbefore, hcorners⟩
      · have hcorner : g.LeftCorner p.head nt :=
          ⟨p, hp, rfl, rest', rest, hbody, fun x hx => hbefore x (by simp [hx])⟩
        exact ⟨left, p.head, right, rfl, fun x hx => hbefore x (by simp [hx]),
          .head hcorner hcorners⟩
    · have hhead : g.Derives [.nonterminal p.head] [] :=
        (Derives.of_production hp).trans
          (Derives.nil_of_forall fun x hx => hbefore x (by simp [hx]))
      refine ⟨left ++ .nonterminal p.head :: rest, nt, after, by simp, ?_, hcorners⟩
      intro x hx
      rcases List.mem_append.mp hx with hx | hx
      · exact hbefore x (by simp [hx])
      · rcases List.mem_cons.mp hx with rfl | hx
        · exact hhead
        · exact hbefore x (by simp [hx])

/-- **Ways over left corners are derivations** of sequences that begin with where they lead. -/
theorem transGen_leftCorner_iff {nt m : Nat} : Relation.TransGen g.LeftCorner nt m ↔
    ∃ γ, Relation.TransGen g.Rewrites [.nonterminal nt] (.nonterminal m :: γ) := by
  constructor
  · intro h
    induction h with
    | single h => exact h.transGen
    | tail _ h ih =>
      obtain ⟨γ, hγ⟩ := ih
      obtain ⟨δ, hδ⟩ := h.transGen
      exact ⟨δ ++ γ, hγ.trans (hδ.lift (· ++ γ) fun _ _ hstep => hstep.append_right γ)⟩
  · rintro ⟨γ, h⟩
    obtain ⟨β, hstep, hrest⟩ := Relation.TransGen.head'_iff.mp h
    generalize hα : [Symbol.nonterminal nt] = α at hstep
    obtain @⟨p, hp, left, right⟩ := hstep
    obtain ⟨rfl, rfl, rfl⟩ : left = [] ∧ right = [] ∧ p.head = nt := by
      cases left with
      | nil => simpa [eq_comm, and_comm] using hα
      | cons x left => simp at hα
    obtain ⟨before, n, after, hbody, hbefore, hcorners⟩ := Derives.exists_leading hrest
    have hcorner : g.LeftCorner p.head n :=
      ⟨p, hp, rfl, before, after, by simpa using hbody, hbefore⟩
    exact Relation.TransGen.head' hcorner hcorners

theorem leftRecursive_iff {nt : Nat} : g.LeftRecursive nt ↔ Relation.TransGen g.LeftCorner nt nt :=
  transGen_leftCorner_iff.symm

/-- The nonterminal of a way back to it is left recursive. -/
theorem IsLeftCycle.leftRecursive {nt : Nat} {cycle : List Nat} (h : g.IsLeftCycle nt cycle) :
    g.LeftRecursive nt := by
  rw [leftRecursive_iff]
  obtain ⟨hlength, hhead, hlast, -, hcorners⟩ := h
  match cycle, hlength with
  | n :: m :: rest, _ =>
    obtain rfl : n = nt := by simpa using hhead
    obtain ⟨hcorner, hrest⟩ := List.isChain_cons_cons.mp hcorners
    have hrest := List.relationReflTransGen_of_exists_isChain_cons rest hrest (b := n)
      (by simpa [List.getLast?_eq_some_getLast] using hlast)
    exact Relation.TransGen.head' hcorner hrest

/-! ## A search that succeeds -/

section Success

variable {f : FirstSets} (wf : g.WellFormed) (h : g.firstSets = .ok f)

include wf h

theorem LeftCorner.beginsWith {nt m : Nat} (hcorner : g.LeftCorner nt m) :
    g.BeginsWith f.nullable nt m := by
  obtain ⟨p, hp, hhead, before, after, hbody, hbefore⟩ := hcorner
  refine ⟨p, hp, hhead, before, after, hbody, fun x hx => ?_⟩
  have hsymbol := wf.body_mem p hp x (by simp [hbody, hx])
  exact (FirstSets.nullable_iff wf h hsymbol).mpr (hbefore x hx)

/-- Ways over left corners lead to nonterminals whose sets have been found earlier. -/
theorem order_lt_of_transGen {nt m : Nat} (hway : Relation.TransGen g.LeftCorner nt m) :
    f.order.idxOf m < f.order.idxOf nt := by
  induction hway with
  | single hcorner => exact FirstSets.order_lt_of_beginsWith wf h (hcorner.beginsWith wf h)
  | tail _ hcorner ih =>
    have hlt := FirstSets.order_lt_of_beginsWith wf h (hcorner.beginsWith wf h)
    exact Nat.lt_trans hlt ih

/-- **If FIRST is found nothing is left recursive.** -/
theorem not_leftRecursive_of_firstSets (nt : Nat) : ¬ g.LeftRecursive nt := by
  intro hrec
  exact Nat.lt_irrefl _ (order_lt_of_transGen wf h (leftRecursive_iff.mp hrec))

end Success

/-! ## A search that fails -/

/-- **The nonterminals under exploration**, the latest first, when a nonterminal is met: each of
them is a left corner of the one that led to it. -/
structure Exploring (g : Grammar) (path : List Nat) (nt : Nat) : Prop where
  nodup : path.Nodup
  lt : ∀ m ∈ nt :: path, m < g.nonterminals.size
  trail : (nt :: path).IsChain fun m n => g.LeftCorner n m

namespace Exploring

variable {path : List Nat} {nt m : Nat}

theorem start (hnt : nt < g.nonterminals.size) : g.Exploring [] nt :=
  ⟨.nil, by simpa using hnt, .singleton nt⟩

theorem step (h : g.Exploring path nt) (hnew : nt ∉ path) (hm : m < g.nonterminals.size)
    (hcorner : g.LeftCorner nt m) : g.Exploring (nt :: path) m where
  nodup := List.nodup_cons.mpr ⟨hnew, h.nodup⟩
  lt n hn := by
    rcases List.mem_cons.mp hn with rfl | hn
    · exact hm
    · exact h.lt n hn
  trail := List.isChain_cons_cons.mpr ⟨hcorner, h.trail⟩

theorem length_le (h : g.Exploring path nt) : path.length ≤ g.nonterminals.size := by
  have hsub : path ⊆ List.range g.nonterminals.size :=
    fun m hm => List.mem_range.mpr (h.lt m (List.mem_cons_of_mem nt hm))
  simpa using (h.nodup.subperm hsub).length_le

/-- To meet a nonterminal under exploration is to find a way back to it. -/
theorem isLeftCycle (wf : g.WellFormed) (h : g.Exploring path nt) (hmem : nt ∈ path) :
    g.IsLeftCycle nt (cycleOf path nt) := by
  obtain ⟨inner, outer, rfl, hinner⟩ := List.eq_append_cons_of_mem hmem
  have htake : (inner ++ nt :: outer).takeWhile (· != nt) = inner := by
    have hne : ∀ m ∈ inner, (m != nt) = true := by
      rintro m hm
      simpa using fun heq : m = nt => hinner (heq ▸ hm)
    rw [List.takeWhile_append_of_pos hne]
    simp
  have hcycle : cycleOf (inner ++ nt :: outer) nt = nt :: (inner.reverse ++ [nt]) := by
    rw [cycleOf, htake]
    rfl
  have hnames : ((inner.reverse ++ [nt]).map g.nonterminalName).Nodup := by
    have hsub : (inner ++ [nt]).Sublist (inner ++ nt :: outer) := by simp
    have hperm : (inner.reverse ++ [nt]).Perm (inner ++ [nt]) :=
      (List.reverse_perm inner).append_right [nt]
    refine List.Nodup.map_on ?_ (hperm.nodup_iff.mpr (hsub.nodup h.nodup))
    intro m hm n hn heq
    have hlt : ∀ m ∈ inner.reverse ++ [nt], m < g.nonterminals.size := by
      intro m hm
      exact h.lt m (List.mem_cons_of_mem nt (hsub.subset (hperm.subset hm)))
    exact wf.nonterminalName_inj (hlt m hm) (hlt n hn) heq
  have htrail : (nt :: inner ++ [nt]).IsChain fun m n => g.LeftCorner n m :=
    h.trail.infix ⟨[], outer, by simp⟩
  rw [hcycle]
  refine ⟨by simp, rfl, ?_, hnames, ?_⟩
  · rw [← List.cons_append, List.getLast?_concat]
  · simpa using List.isChain_reverse.mpr htrail

end Exploring

section Failure

variable {visit : Nat → KnownFirst → Except LeftRecursion KnownFirst} {path : List Nat}
  {k : KnownFirst} {e : LeftRecursion}

/-- The exploration of a body fails at one of its nonterminals, behind symbols that can vanish. -/
theorem exploreBody_error (wf : g.WellFormed)
    (hvisit : ∀ nt k k', visit nt k = .ok k' → g.Progress path k k' ∧ (k'.find? nt).isSome)
    {body : List Symbol} (hbody : ∀ x ∈ body, g.HasSymbol x) (hk : g.Recorded k)
    (h : exploreBody g.terminals.size visit body k = .error e) :
    ∃ before nt after k', body = before ++ .nonterminal nt :: after ∧
      (∀ x ∈ before, g.Derives [x] []) ∧ g.Recorded k' ∧ visit nt k' = .error e := by
  induction body generalizing k with
  | nil => cases h
  | cons x rest ih =>
    cases x with
    | terminal t => cases h
    | nonterminal nt =>
      rw [exploreBody, bind_eq_error] at h
      rcases h with h | ⟨k₁, hk₁, h⟩
      · exact ⟨[], nt, rest, k, rfl, by simp, hk, h⟩
      · have hrecorded := (hvisit nt k k₁ hk₁).1.recorded hk
        split at h
        · rename_i heps
          -- the recorded set is exact, so the symbol can indeed vanish
          have hnull : g.Derives [.nonterminal nt] [] := by
            rw [LookaheadSet.hasEpsilon_iff, hrecorded.size_symbol] at heps
            exact CanBegin.epsilon_iff.mp
              (hrecorded.canBegin wf _ _ (hbody _ List.mem_cons_self) heps)
          obtain ⟨before, m, after, k', rfl, hbefore, hk', hm⟩ :=
            ih (fun y hy => hbody y (List.mem_cons_of_mem _ hy)) hrecorded h
          refine ⟨.nonterminal nt :: before, m, after, k', rfl, ?_, hk', hm⟩
          intro y hy
          rcases List.mem_cons.mp hy with rfl | hy
          · exact hnull
          · exact hbefore y hy
        · cases h

/-- The exploration of bodies fails at one of them. -/
theorem exploreBodies_error
    (hvisit : ∀ nt k k', visit nt k = .ok k' → g.Progress path k k' ∧ (k'.find? nt).isSome)
    {bodies : List (List Symbol)} (hbodies : ∀ body ∈ bodies, ∀ x ∈ body, g.HasSymbol x)
    (hk : g.Recorded k) (h : exploreBodies g.terminals.size visit bodies k = .error e) :
    ∃ body ∈ bodies, ∃ k', g.Recorded k' ∧
      exploreBody g.terminals.size visit body k' = .error e := by
  induction bodies generalizing k with
  | nil => cases h
  | cons body bodies ih =>
    rw [exploreBodies, bind_eq_error] at h
    rcases h with h | ⟨k₁, hk₁, h⟩
    · exact ⟨body, List.mem_cons_self, k, hk, h⟩
    · have hprogress := (exploreBody_progress hvisit (hbodies body List.mem_cons_self) hk₁).1
      obtain ⟨b, hb, hfails⟩ := ih (fun b hb => hbodies b (List.mem_cons_of_mem _ hb))
        (hprogress.recorded hk) h
      exact ⟨b, List.mem_cons_of_mem body hb, hfails⟩

end Failure

section

variable (wf : g.WellFormed)

include wf

/-- **A failed search reports a way** from a nonterminal back to it. -/
theorem visit_error {fuel : Nat} {path : List Nat} {nt : Nat} {k : KnownFirst}
    {e : LeftRecursion} (h : g.visit fuel path nt k = .error e) (hk : g.Recorded k)
    (hexploring : g.Exploring path nt) (hfuel : g.nonterminals.size < fuel + path.length) :
    g.IsLeftCycle e.nonterminal e.cycle := by
  induction fuel generalizing path nt k with
  | zero =>
    -- the nonterminals under exploration are distinct, so there are not that many
    have hle := hexploring.length_le
    omega
  | succ fuel ih =>
    rw [visit] at h
    split at h
    · cases h
    · split at h
      · rename_i hmem
        cases h
        exact hexploring.isLeftCycle wf hmem
      · rename_i hnew
        simp only [bind_eq_error, pure_ne_error, and_false, exists_false, or_false] at h
        have hvisit (m : Nat) (k k' : KnownFirst) (hm : g.visit fuel (nt :: path) m k = .ok k') :
            g.Progress (nt :: path) k k' ∧ (k'.find? m).isSome := visit_progress wf hm
        obtain ⟨body, hbody, k₁, hk₁, h⟩ :=
          exploreBodies_error hvisit (fun _ => wf.hasSymbol_of_mem_bodies) hk h
        obtain ⟨before, m, after, k₂, rfl, hbefore, hk₂, h⟩ :=
          exploreBody_error wf hvisit (wf.hasSymbol_of_mem_bodies hbody) hk₁ h
        have hm := wf.hasSymbol_of_mem_bodies hbody (.nonterminal m) (by simp)
        obtain ⟨p, hp, hhead, hpbody⟩ := wf.mem_bodies.mp hbody
        exact ih h hk₂ (hexploring.step hnew hm ⟨p, hp, hhead, before, after, hpbody, hbefore⟩)
          (by simp; omega)

theorem visitAll_error {nts : List Nat} {k : KnownFirst} {e : LeftRecursion}
    (h : g.visitAll nts k = .error e) (hk : g.Recorded k)
    (hnts : ∀ nt ∈ nts, nt < g.nonterminals.size) : g.IsLeftCycle e.nonterminal e.cycle := by
  induction nts generalizing k with
  | nil => cases h
  | cons nt nts ih =>
    rw [visitAll, bind_eq_error] at h
    rcases h with h | ⟨k₁, hk₁, h⟩
    · exact visit_error wf h hk (.start (hnts nt List.mem_cons_self)) (by simp)
    · exact ih h ((visit_progress wf hk₁).1.recorded hk)
        fun m hm => hnts m (List.mem_cons_of_mem nt hm)

/-- If FIRST is not found a way is reported. -/
theorem firstSets_error {e : LeftRecursion} (h : g.firstSets = .error e) :
    g.IsLeftCycle e.nonterminal e.cycle := by
  simp only [firstSets, bind_eq_error, pure_ne_error, and_false, exists_false, or_false] at h
  exact visitAll_error wf h .empty fun nt hnt => List.mem_range.mp hnt

end

/-! ## Compiling -/

/-- Compiling fails just if FIRST is not found. -/
theorem compile_eq_error {e : LeftRecursion} : g.compile = .error e ↔ g.firstSets = .error e := by
  simp only [compile, analyze, bind_eq_error, pure_ne_error, and_false, exists_false, or_false]

/-- **Compiling fails just if a nonterminal is left recursive**, reachable or not, and what is
reported is then a way from a nonterminal back to it. -/
theorem compile_error_iff {engine : PatternEngine} {d : Declarations}
    (hbuild : d.build engine = .ok g) :
    ((∃ e, g.compile = .error e) ↔ ∃ nt, g.LeftRecursive nt) ∧
      ∀ e, g.compile = .error e → g.IsLeftCycle e.nonterminal e.cycle := by
  have wf := Declarations.wellFormed_of_build hbuild
  have hcycle (e : LeftRecursion) (h : g.compile = .error e) :
      g.IsLeftCycle e.nonterminal e.cycle := firstSets_error wf (compile_eq_error.mp h)
  refine ⟨⟨?_, ?_⟩, hcycle⟩
  · rintro ⟨e, h⟩
    exact ⟨e.nonterminal, (hcycle e h).leftRecursive⟩
  · rintro ⟨nt, hrec⟩
    cases hfirst : g.firstSets with
    | error e => exact ⟨e, compile_eq_error.mpr hfirst⟩
    | ok f => exact absurd hrec (not_leftRecursive_of_firstSets wf hfirst nt)

/-- The roundabout way from a sum back to it is reported, although no sum is reachable. -/
theorem compile_error_iff_roundabout : ∃ g e, Samples.roundabout.build Pattern.engine = .ok g ∧
    g.compile = .error e ∧ e.toError g = .leftRecursion "Sum" ["Sum", "Rest", "Sum"] ∧
    (∃ nt, g.LeftRecursive nt) ∧ g.IsLeftCycle e.nonterminal e.cycle := by
  have hrun : ((Samples.roundabout.build Pattern.engine).toOption.bind fun g =>
      match g.compile with
      | .ok _ => none
      | .error e => some (e.toError g)) =
        some (.leftRecursion "Sum" ["Sum", "Rest", "Sum"]) := by
    decide +kernel
  obtain ⟨g, hbuild, hrun⟩ := Option.bind_eq_some_iff.mp hrun
  rw [toOption_eq_some] at hbuild
  obtain ⟨hiff, hcycle⟩ := compile_error_iff hbuild
  cases hcompile : g.compile with
  | ok c => simp [hcompile] at hrun
  | error e =>
    have herror : e.toError g = .leftRecursion "Sum" ["Sum", "Rest", "Sum"] := by
      simpa [hcompile] using hrun
    exact ⟨g, e, hbuild, hcompile, herror, hiff.mp ⟨e, hcompile⟩, hcycle e hcompile⟩

end Grammar

end PredictiveParsing
