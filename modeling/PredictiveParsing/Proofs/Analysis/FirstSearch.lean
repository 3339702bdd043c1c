import PredictiveParsing.Proofs.Grammar.WellFormed
import PredictiveParsing.Proofs.Result

/-!
# The search for what can come first

The search explores each nonterminal once and records its set when all its alternatives have been
explored. What carries the proofs is the record: behind each entry stand the older ones, and they
know every nonterminal that the new set has been made from. So an entry never changes again, the
sets solve the equations that define them, and the order of the entries is a ranking in which a
nonterminal stands behind all those that its texts can begin with.

## Main definitions

* `KnownFirst.Covers`: the symbols of a body up to the first one that cannot vanish are known
* `Grammar.Recorded`: the records that a search makes
* `Grammar.Progress`: what exploring a nonterminal does to a record
* `Grammar.BeginsWith`: a nonterminal stands in a body behind symbols that can vanish

## Main results

* `mem_bodyFirst_append`: what a sequence can begin with, from what its parts can
* `Grammar.visit_progress`: exploring a nonterminal keeps the record in order
* `FirstSets.mem_nonterminal`, `production_eq`: the sets solve their equations
* `FirstSets.order_lt_of_beginsWith`: the ranking
* `FirstSets.exists_mem_symbol`: every symbol can begin with something
-/

namespace PredictiveParsing

/-! ## What a sequence can begin with -/

section BodyFirst

variable {size : Nat} {first : Symbol → LookaheadSet}

theorem size_bodyFirst (hsize : ∀ x, (first x).size = size) (α : List Symbol) :
    (bodyFirst size first α).size = size := by
  cases α with
  | nil => rfl
  | cons x α =>
    unfold bodyFirst
    split
    · rw [LookaheadSet.size_union, LookaheadSet.size_withoutEpsilon, hsize]
    · exact hsize x

@[simp] theorem mem_bodyFirst_nil {x : Nat} :
    x ∈ (bodyFirst size first []).slots ↔ x = size + 1 := by
  simp [bodyFirst, LookaheadSet.withEpsilon, LookaheadSet.empty]

theorem mem_bodyFirst_cons (hsize : ∀ x, (first x).size = size) {s : Symbol} {α : List Symbol}
    {x : Nat} : x ∈ (bodyFirst size first (s :: α)).slots ↔
      (x ∈ (first s).slots ∧ x ≠ size + 1) ∨
      (size + 1 ∈ (first s).slots ∧ x ∈ (bodyFirst size first α).slots) := by
  rw [bodyFirst]
  split
  · rename_i h
    rw [LookaheadSet.hasEpsilon_iff, hsize] at h
    simp [h, hsize]
  · rename_i h
    rw [LookaheadSet.hasEpsilon_iff, hsize] at h
    simp only [h, false_and, or_false, iff_self_and]
    rintro hx rfl
    exact h hx

/-- **What a sequence can begin with**: with what its first part can, or with what its second part
can if the first can vanish. -/
theorem mem_bodyFirst_append (hsize : ∀ x, (first x).size = size) {α β : List Symbol} {x : Nat} :
    x ∈ (bodyFirst size first (α ++ β)).slots ↔
      (x ∈ (bodyFirst size first α).slots ∧ x ≠ size + 1) ∨
      (size + 1 ∈ (bodyFirst size first α).slots ∧ x ∈ (bodyFirst size first β).slots) := by
  induction α with
  | nil => simp
  | cons s α ih =>
    simp only [List.cons_append, mem_bodyFirst_cons hsize, ih]
    tauto

/-- A sequence can vanish just if all its symbols can. -/
theorem epsilon_mem_bodyFirst (hsize : ∀ x, (first x).size = size) {α : List Symbol} :
    size + 1 ∈ (bodyFirst size first α).slots ↔ ∀ x ∈ α, (first x).hasEpsilon = true := by
  induction α with
  | nil => simp
  | cons s α ih =>
    rw [mem_bodyFirst_cons hsize, ih]
    simp [hsize]

/-- What a sequence can begin with comes from one of its symbols, behind symbols that can
vanish. -/
theorem exists_of_mem_bodyFirst (hsize : ∀ x, (first x).size = size) {α : List Symbol} {x : Nat}
    (hx : x ∈ (bodyFirst size first α).slots) (hne : x ≠ size + 1) :
    ∃ before s after, α = before ++ s :: after ∧ (∀ y ∈ before, (first y).hasEpsilon = true) ∧
      x ∈ (first s).slots := by
  induction α with
  | nil => exact absurd (mem_bodyFirst_nil.mp hx) hne
  | cons s α ih =>
    rcases (mem_bodyFirst_cons hsize).mp hx with ⟨hx, -⟩ | ⟨heps, hx⟩
    · exact ⟨[], s, α, rfl, by simp, hx⟩
    · obtain ⟨before, y, after, rfl, hbefore, hx⟩ := ih hx
      refine ⟨s :: before, y, after, rfl, fun z hz => ?_, hx⟩
      rcases List.mem_cons.mp hz with rfl | hz
      · rwa [LookaheadSet.hasEpsilon_iff, hsize]
      · exact hbefore z hz

/-- A sequence can begin with something if its symbols can, up to the first one that cannot
vanish. -/
theorem exists_mem_bodyFirst (hsize : ∀ x, (first x).size = size) {α : List Symbol}
    (hα : ∀ before s after, α = before ++ s :: after →
      (∀ y ∈ before, (first y).hasEpsilon = true) → ∃ x, x ∈ (first s).slots) :
    ∃ x, x ∈ (bodyFirst size first α).slots := by
  induction α with
  | nil => exact ⟨size + 1, mem_bodyFirst_nil.mpr rfl⟩
  | cons s α ih =>
    simp only [mem_bodyFirst_cons hsize]
    by_cases hepsilon : size + 1 ∈ (first s).slots
    · have hs : (first s).hasEpsilon = true := by rwa [LookaheadSet.hasEpsilon_iff, hsize]
      obtain ⟨x, hx⟩ := ih fun before t after hα' hbefore =>
        hα (s :: before) t after (by rw [hα', List.cons_append])
          (List.forall_mem_cons.mpr ⟨hs, hbefore⟩)
      exact ⟨x, .inr ⟨hepsilon, hx⟩⟩
    · obtain ⟨x, hx⟩ := hα [] s α rfl (by simp)
      exact ⟨x, .inl ⟨hx, fun heq => hepsilon (heq ▸ hx)⟩⟩

end BodyFirst

/-! ## Unions -/

namespace LookaheadSet

variable {β : Type} {f : β → LookaheadSet} {l : List β} {s : LookaheadSet}

/-- A union of sets has the members of all of them. -/
theorem mem_foldl_union {x : Nat} : x ∈ (l.foldl (fun s b => s.union (f b)) s).slots ↔
    x ∈ s.slots ∨ ∃ b ∈ l, x ∈ (f b).slots := by
  induction l generalizing s with
  | nil => simp
  | cons b l ih =>
    rw [List.foldl_cons, ih, mem_slots_union]
    simp only [List.mem_cons, exists_eq_or_imp, or_assoc]

theorem size_foldl_union : (l.foldl (fun s b => s.union (f b)) s).size = s.size := by
  induction l generalizing s with
  | nil => rfl
  | cons b l ih => rw [List.foldl_cons, ih, size_union]

/-- A terminal cannot vanish. -/
theorem hasEpsilon_singleton {size t : Nat} (ht : t < size) :
    (singleton size t).hasEpsilon = false := by
  have hne : size + 1 ≠ t := Nat.ne_of_gt (Nat.lt_succ_of_lt ht)
  simp [singleton, empty, hasEpsilon, insert, IndexSet.contains, hne]

end LookaheadSet

theorem Grammar.mem_unionFirst {g : Grammar} {first : Symbol → LookaheadSet} {nt x : Nat} :
    x ∈ (g.unionFirst first nt).slots ↔
      ∃ body ∈ g.bodies nt, x ∈ (bodyFirst g.terminals.size first body).slots := by
  rw [unionFirst, LookaheadSet.mem_foldl_union]
  simp [emptySet, LookaheadSet.empty]

theorem Grammar.unionFirst_congr {g : Grammar} {first first' : Symbol → LookaheadSet} {nt : Nat}
    (h : ∀ body ∈ g.bodies nt,
      bodyFirst g.terminals.size first body = bodyFirst g.terminals.size first' body) :
    g.unionFirst first nt = g.unionFirst first' nt := by
  unfold unionFirst
  generalize g.bodies nt = bodies at h
  generalize g.emptySet = s
  induction bodies generalizing s with
  | nil => rfl
  | cons body bodies ih =>
    rw [List.foldl_cons, List.foldl_cons, h body List.mem_cons_self]
    exact ih (fun b hb => h b (List.mem_cons_of_mem _ hb)) _

theorem Grammar.unionFirst_of_le {g : Grammar} {first : Symbol → LookaheadSet} {nt : Nat}
    (h : g.nonterminals.size ≤ nt) : g.unionFirst first nt = g.emptySet := by
  rw [unionFirst, bodies, alternatives_of_le h]
  rfl

theorem Grammar.size_unionFirst {g : Grammar} {first : Symbol → LookaheadSet} {nt : Nat} :
    (g.unionFirst first nt).size = g.terminals.size := by
  rw [unionFirst, LookaheadSet.size_foldl_union]
  rfl

/-! ## The record of a search -/

namespace KnownFirst

/-- **The symbols of a body up to the first one that cannot vanish are known.** -/
def Covers (k : KnownFirst) (size : Nat) : List Symbol → Prop
  | [] => True
  | .terminal t :: _ => t < size
  | .nonterminal nt :: rest =>
    (k.find? nt).isSome ∧
      ((k.symbol size (.nonterminal nt)).hasEpsilon = true → k.Covers size rest)

/-- What is known in one record is known in another. -/
def Within (k k' : KnownFirst) : Prop := ∀ nt s, k.find? nt = some s → k'.find? nt = some s

variable {k k' : KnownFirst} {size : Nat}

theorem isSome_of_within (h : k.Within k') {nt : Nat} (hnt : (k.find? nt).isSome) :
    (k'.find? nt).isSome := by
  obtain ⟨s, hs⟩ := Option.isSome_iff_exists.mp hnt
  exact Option.isSome_iff_exists.mpr ⟨s, h nt s hs⟩

theorem symbol_of_within (h : k.Within k') {nt : Nat} (hnt : (k.find? nt).isSome) :
    k'.symbol size (.nonterminal nt) = k.symbol size (.nonterminal nt) := by
  obtain ⟨s, hs⟩ := Option.isSome_iff_exists.mp hnt
  simp only [symbol, hs, h nt s hs]

theorem Covers.mono (h : k.Within k') {body : List Symbol} (hc : k.Covers size body) :
    k'.Covers size body := by
  induction body with
  | nil => trivial
  | cons x rest ih =>
    cases x with
    | terminal t => exact hc
    | nonterminal nt =>
      refine ⟨isSome_of_within h hc.1, fun heps => ih (hc.2 ?_)⟩
      rwa [symbol_of_within h hc.1] at heps

/-- What a covered body can begin with does not change when more becomes known. -/
theorem Covers.bodyFirst_eq (h : k.Within k') {body : List Symbol} (hc : k.Covers size body) :
    bodyFirst size (k'.symbol size) body = bodyFirst size (k.symbol size) body := by
  induction body with
  | nil => rfl
  | cons x rest ih =>
    cases x with
    | terminal t =>
      simp only [bodyFirst, symbol, LookaheadSet.hasEpsilon_singleton hc, Bool.false_eq_true,
        if_false]
    | nonterminal nt =>
      rw [bodyFirst, bodyFirst, symbol_of_within h hc.1]
      split
      · rename_i heps
        rw [ih (hc.2 heps)]
      · rfl

/-- In a covered body a nonterminal is known if all that stands before it can vanish. -/
theorem Covers.isSome_of_nullable (h : k.Within k') {before after : List Symbol} {m : Nat}
    (hc : k.Covers size (before ++ .nonterminal m :: after))
    (hbefore : ∀ x ∈ before, (k'.symbol size x).hasEpsilon = true) : (k.find? m).isSome := by
  induction before with
  | nil => exact hc.1
  | cons x before ih =>
    have hx := hbefore x List.mem_cons_self
    cases x with
    | terminal t =>
      rw [symbol, LookaheadSet.hasEpsilon_singleton hc] at hx
      cases hx
    | nonterminal nt =>
      rw [symbol_of_within h hc.1] at hx
      exact ih (hc.2 hx) fun y hy => hbefore y (List.mem_cons_of_mem _ hy)

theorem find?_record {nt m : Nat} {s : LookaheadSet} :
    (k.record nt s).find? m = if m = nt then some s else k.find? m := by
  by_cases h : m = nt
  · simp [record, find?, h]
  · simp [record, find?, List.lookup_cons, h, beq_eq_false_iff_ne.mpr h]

/-- What was known stays known when the set of a new nonterminal is recorded. -/
theorem within_record {nt : Nat} {s : LookaheadSet} (h : k.find? nt = none) :
    k.Within (k.record nt s) := by
  intro m t hm
  rw [find?_record, if_neg]
  · exact hm
  · rintro rfl
    rw [h] at hm
    cases hm

/-- The nonterminals of a record in the order in which their sets were found. -/
def order (k : KnownFirst) : List Nat := (k.finished.map (·.1)).reverse

@[simp] theorem order_record {nt : Nat} {s : LookaheadSet} :
    (k.record nt s).order = k.order ++ [nt] := by
  simp [order, record]

theorem mem_order {nt : Nat} : nt ∈ k.order ↔ (k.find? nt).isSome := by
  rw [order, List.mem_reverse, List.mem_map, find?, List.lookup_isSome_iff]
  simp only [beq_iff_eq, @eq_comm _ nt]

end KnownFirst

namespace Grammar

variable {g : Grammar}

/-- **The records that a search makes**: each set is made from the sets recorded before it, and
they know all that is needed for it. -/
inductive Recorded (g : Grammar) : KnownFirst → Prop
  | empty : Recorded g {}
  | record {k : KnownFirst} {nt : Nat} (h : Recorded g k) (hnew : k.find? nt = none)
      (hcovers : ∀ body ∈ g.bodies nt, k.Covers g.terminals.size body) :
      Recorded g (k.record nt (g.unionFirst (k.symbol g.terminals.size) nt))

namespace Recorded

variable {k : KnownFirst}

/-- **A recorded set has been made from an older record**, all of whose nonterminals stand before
it in the order of the search. -/
theorem exists_older (h : g.Recorded k) {nt : Nat} {s : LookaheadSet} (hnt : k.find? nt = some s) :
    ∃ older, g.Recorded older ∧ older.Within k ∧
      (∀ body ∈ g.bodies nt, older.Covers g.terminals.size body) ∧
      s = g.unionFirst (older.symbol g.terminals.size) nt ∧
      ∀ m ∈ older.order, k.order.idxOf m < k.order.idxOf nt := by
  -- Induction on the record: the entry is the last one, or it was there before the last one.
  induction h with
  | empty => cases hnt
  | @record k n h hnew hcovers ih =>
    have hwithin := KnownFirst.within_record (s := g.unionFirst (k.symbol g.terminals.size) n) hnew
    have hn : n ∉ k.order := by rw [KnownFirst.mem_order, hnew]; exact Bool.false_ne_true
    rw [KnownFirst.find?_record] at hnt
    split at hnt
    · rename_i heq
      cases hnt
      subst heq
      refine ⟨k, h, hwithin, hcovers, rfl, fun m hm => ?_⟩
      rw [KnownFirst.order_record, List.idxOf_append_of_mem hm, List.idxOf_append_of_notMem hn]
      exact Nat.lt_add_right _ (List.idxOf_lt_length_of_mem hm)
    · -- the new entry stands behind all others, so the places of the others stay
      obtain ⟨older, hold, hsub, hcov, rfl, hlt⟩ := ih hnt
      refine ⟨older, hold, fun m t hm => hwithin m t (hsub m t hm), hcov, rfl, fun m hm => ?_⟩
      have hmk : m ∈ k.order := by
        rw [KnownFirst.mem_order] at hm ⊢
        exact KnownFirst.isSome_of_within hsub hm
      have hntk : nt ∈ k.order := by
        rw [KnownFirst.mem_order, hnt]
        rfl
      rw [KnownFirst.order_record, List.idxOf_append_of_mem hmk, List.idxOf_append_of_mem hntk]
      exact hlt m hm

/-- **The sets of a record solve their equations.** -/
theorem symbol_eq (h : g.Recorded k) {nt : Nat} (hnt : (k.find? nt).isSome) :
    k.symbol g.terminals.size (.nonterminal nt) =
      g.unionFirst (k.symbol g.terminals.size) nt := by
  obtain ⟨s, hs⟩ := Option.isSome_iff_exists.mp hnt
  obtain ⟨older, -, hsub, hcov, rfl, -⟩ := h.exists_older hs
  have heq : ∀ body ∈ g.bodies nt, bodyFirst g.terminals.size (k.symbol g.terminals.size) body =
      bodyFirst g.terminals.size (older.symbol g.terminals.size) body :=
    fun body hbody => (hcov body hbody).bodyFirst_eq hsub
  have hsymbol : k.symbol g.terminals.size (.nonterminal nt) =
      g.unionFirst (older.symbol g.terminals.size) nt := by
    rw [KnownFirst.symbol, hs]
    rfl
  rw [hsymbol]
  exact (unionFirst_congr heq).symm

/-- A record that knows all nonterminals solves the equations of all numbers. -/
theorem symbol_eq_of_forall (h : g.Recorded k)
    (hall : ∀ nt < g.nonterminals.size, (k.find? nt).isSome) (nt : Nat) :
    k.symbol g.terminals.size (.nonterminal nt) =
      g.unionFirst (k.symbol g.terminals.size) nt := by
  by_cases hsome : (k.find? nt).isSome
  · exact h.symbol_eq hsome
  · have hle : g.nonterminals.size ≤ nt := Nat.le_of_not_lt fun hlt => hsome (hall nt hlt)
    rw [unionFirst_of_le hle, KnownFirst.symbol, Option.not_isSome_iff_eq_none.mp hsome]
    rfl

theorem size_symbol (h : g.Recorded k) (x : Symbol) :
    (k.symbol g.terminals.size x).size = g.terminals.size := by
  cases x with
  | terminal t => rfl
  | nonterminal nt =>
    cases hnt : k.find? nt with
    | none =>
      rw [KnownFirst.symbol, hnt]
      rfl
    | some s => rw [h.symbol_eq (hnt ▸ rfl), size_unionFirst]

end Recorded

/-! ## Exploring -/

/-- **What exploring does to a record**: it stays in order and loses nothing, and the nonterminals
under exploration are not recorded meanwhile. -/
structure Progress (g : Grammar) (path : List Nat) (k k' : KnownFirst) : Prop where
  /-- The record stays in order. -/
  recorded : g.Recorded k → g.Recorded k'
  /-- Nothing is lost. -/
  within : k.Within k'
  /-- The nonterminals under exploration are left alone. -/
  spares : ∀ nt ∈ path, k.find? nt = none → k'.find? nt = none

namespace Progress

variable {path : List Nat} {k k' k'' : KnownFirst}

theorem refl (path : List Nat) (k : KnownFirst) : g.Progress path k k :=
  ⟨id, fun _ _ h => h, fun _ _ h => h⟩

theorem trans (h : g.Progress path k k') (h' : g.Progress path k' k'') :
    g.Progress path k k'' :=
  ⟨h'.recorded ∘ h.recorded, fun nt s hnt => h'.within nt s (h.within nt s hnt),
    fun nt hnt hk => h'.spares nt hnt (h.spares nt hnt hk)⟩

end Progress

section Explore

variable {path : List Nat} {visit : Nat → KnownFirst → Except LeftRecursion KnownFirst}
  {k k' : KnownFirst}

/-- After a body has been explored it is covered. -/
theorem exploreBody_progress
    (hvisit : ∀ nt k k', visit nt k = .ok k' → g.Progress path k k' ∧ (k'.find? nt).isSome)
    {body : List Symbol} (hbody : ∀ x ∈ body, g.HasSymbol x)
    (h : exploreBody g.terminals.size visit body k = .ok k') :
    g.Progress path k k' ∧ k'.Covers g.terminals.size body := by
  induction body generalizing k with
  | nil =>
    cases h
    exact ⟨.refl path _, trivial⟩
  | cons x rest ih =>
    have hx := hbody x List.mem_cons_self
    cases x with
    | terminal t =>
      cases h
      exact ⟨.refl path _, hx⟩
    | nonterminal nt =>
      rw [exploreBody, bind_eq_ok] at h
      obtain ⟨k₁, hk₁, h⟩ := h
      obtain ⟨hprogress, hsome⟩ := hvisit nt k k₁ hk₁
      split at h
      · obtain ⟨hrest, hcovers⟩ := ih (fun y hy => hbody y (List.mem_cons_of_mem _ hy)) h
        exact ⟨hprogress.trans hrest, KnownFirst.isSome_of_within hrest.within hsome,
          fun _ => hcovers⟩
      · rename_i heps
        cases h
        exact ⟨hprogress, hsome, fun h => absurd h heps⟩

/-- After bodies have been explored all of them are covered. -/
theorem exploreBodies_progress
    (hvisit : ∀ nt k k', visit nt k = .ok k' → g.Progress path k k' ∧ (k'.find? nt).isSome)
    {bodies : List (List Symbol)} (hbodies : ∀ body ∈ bodies, ∀ x ∈ body, g.HasSymbol x)
    (h : exploreBodies g.terminals.size visit bodies k = .ok k') :
    g.Progress path k k' ∧ ∀ body ∈ bodies, k'.Covers g.terminals.size body := by
  induction bodies generalizing k with
  | nil =>
    cases h
    exact ⟨.refl path _, fun _ hbody => absurd hbody List.not_mem_nil⟩
  | cons body bodies ih =>
    rw [exploreBodies, bind_eq_ok] at h
    obtain ⟨k₁, hk₁, h⟩ := h
    obtain ⟨hprogress, hcovers⟩ :=
      exploreBody_progress hvisit (hbodies body List.mem_cons_self) hk₁
    obtain ⟨hrest, hall⟩ := ih (fun b hb => hbodies b (List.mem_cons_of_mem _ hb)) h
    refine ⟨hprogress.trans hrest, fun b hb => ?_⟩
    rcases List.mem_cons.mp hb with rfl | hb
    · exact hcovers.mono hrest.within
    · exact hall b hb

end Explore

variable (wf : g.WellFormed)

include wf

theorem WellFormed.hasSymbol_of_mem_bodies {nt : Nat} {body : List Symbol}
    (hbody : body ∈ g.bodies nt) : ∀ x ∈ body, g.HasSymbol x := by
  obtain ⟨p, hp, -, rfl⟩ := wf.mem_bodies.mp hbody
  exact wf.body_mem p hp

/-- **Exploring a nonterminal keeps the record in order** and records the nonterminal. -/
theorem visit_progress {fuel : Nat} {path : List Nat} {nt : Nat} {k k' : KnownFirst}
    (h : g.visit fuel path nt k = .ok k') :
    g.Progress path k k' ∧ (k'.find? nt).isSome := by
  induction fuel generalizing path nt k k' with
  | zero => cases h
  | succ fuel ih =>
    rw [visit] at h
    split at h
    · rename_i hknown
      cases h
      exact ⟨.refl path _, hknown⟩
    · rename_i hunknown
      split at h
      · cases h
      · rename_i hpath
        simp only [bind_eq_ok, pure_eq_ok] at h
        obtain ⟨k₁, hk₁, rfl⟩ := h
        have hvisit (m : Nat) (k k' : KnownFirst) (hm : g.visit fuel (nt :: path) m k = .ok k') :
            g.Progress (nt :: path) k k' ∧ (k'.find? m).isSome := ih hm
        obtain ⟨hprogress, hcovers⟩ :=
          exploreBodies_progress hvisit (fun _ => wf.hasSymbol_of_mem_bodies) hk₁
        -- the nonterminal was under exploration meanwhile, so nobody else has recorded it
        have hnew : k₁.find? nt = none :=
          hprogress.spares nt List.mem_cons_self (Option.not_isSome_iff_eq_none.mp hunknown)
        have hwithin := KnownFirst.within_record
          (s := g.unionFirst (k₁.symbol g.terminals.size) nt) hnew
        refine ⟨⟨fun hk => .record (hprogress.recorded hk) hnew hcovers,
          fun m s hm => hwithin m s (hprogress.within m s hm), fun m hm hk => ?_⟩, ?_⟩
        · rw [KnownFirst.find?_record, if_neg (fun e : m = nt => hpath (e ▸ hm))]
          exact hprogress.spares m (List.mem_cons_of_mem _ hm) hk
        · rw [KnownFirst.find?_record, if_pos rfl]
          rfl

/-- After nonterminals have been explored all of them are recorded. -/
theorem visitAll_progress {nts : List Nat} {k k' : KnownFirst} (h : g.visitAll nts k = .ok k') :
    g.Progress [] k k' ∧ ∀ nt ∈ nts, (k'.find? nt).isSome := by
  induction nts generalizing k with
  | nil =>
    cases h
    exact ⟨.refl [] _, fun _ hnt => absurd hnt List.not_mem_nil⟩
  | cons nt nts ih =>
    rw [visitAll, bind_eq_ok] at h
    obtain ⟨k₁, hk₁, h⟩ := h
    obtain ⟨hprogress, hsome⟩ := visit_progress wf hk₁
    obtain ⟨hrest, hall⟩ := ih h
    refine ⟨hprogress.trans hrest, fun m hm => ?_⟩
    rcases List.mem_cons.mp hm with rfl | hm
    · exact KnownFirst.isSome_of_within hrest.within hsome
    · exact hall m hm

end Grammar

/-! ## The sets of all nonterminals -/

/-- **A nonterminal stands in a body of another behind symbols that can vanish.** -/
def Grammar.BeginsWith (g : Grammar) (nullable : Symbol → Bool) (nt m : Nat) : Prop :=
  ∃ p ∈ g.productions, p.head = nt ∧ ∃ before after,
    p.body = before ++ .nonterminal m :: after ∧ ∀ x ∈ before, nullable x = true

namespace FirstSets

variable {g : Grammar} {f : FirstSets}

/-- The sets of a grammar are those of a record that knows all nonterminals. -/
theorem exists_record (wf : g.WellFormed) (h : g.firstSets = .ok f) :
    ∃ k, g.Recorded k ∧ (∀ nt < g.nonterminals.size, (k.find? nt).isSome) ∧
      f.symbol = k.symbol g.terminals.size ∧ f.order = k.order ∧
      f.size = g.terminals.size ∧
      f.productions = g.productions.map fun p => bodyFirst g.terminals.size f.symbol p.body := by
  simp only [Grammar.firstSets, bind_eq_ok, pure_eq_ok] at h
  obtain ⟨k, hk, rfl⟩ := h
  obtain ⟨hprogress, hall⟩ := Grammar.visitAll_progress wf hk
  have hrecorded := hprogress.recorded .empty
  have hall (nt : Nat) (hnt : nt < g.nonterminals.size) : (k.find? nt).isSome :=
    hall nt (List.mem_range.mpr hnt)
  have hsymbol : FirstSets.symbol {
      size := g.terminals.size
      nonterminals := (Array.range g.nonterminals.size).map fun nt =>
        k.symbol g.terminals.size (.nonterminal nt)
      productions := g.productions.map fun p =>
        bodyFirst g.terminals.size (k.symbol g.terminals.size) p.body
      order := (k.finished.map (·.1)).reverse } = k.symbol g.terminals.size := by
    funext x
    cases x with
    | terminal t => rfl
    | nonterminal nt =>
      by_cases hnt : nt < g.nonterminals.size
      · simp [symbol, nonterminal, hnt]
      · rw [hrecorded.symbol_eq_of_forall hall, Grammar.unionFirst_of_le (Nat.le_of_not_lt hnt)]
        simp [symbol, nonterminal, hnt, Grammar.emptySet]
  refine ⟨k, hrecorded, hall, hsymbol, rfl, rfl, ?_⟩
  rw [hsymbol]

variable (wf : g.WellFormed) (h : g.firstSets = .ok f)

include wf h

theorem size_symbol (x : Symbol) : (f.symbol x).size = g.terminals.size := by
  obtain ⟨k, hk, -, hsymbol, -⟩ := exists_record wf h
  rw [hsymbol]
  exact hk.size_symbol x

/-- **What a nonterminal can begin with** is what its alternatives can. -/
theorem mem_nonterminal {nt x : Nat} : x ∈ (f.nonterminal nt).slots ↔
    ∃ p ∈ g.productions, p.head = nt ∧
      x ∈ (bodyFirst g.terminals.size f.symbol p.body).slots := by
  obtain ⟨k, hk, hall, hsymbol, -⟩ := exists_record wf h
  have heq : f.nonterminal nt = g.unionFirst f.symbol nt := by
    rw [hsymbol, ← hk.symbol_eq_of_forall hall, ← hsymbol]
    rfl
  rw [heq, Grammar.mem_unionFirst]
  constructor
  · rintro ⟨body, hbody, hx⟩
    obtain ⟨p, hp, hhead, rfl⟩ := wf.mem_bodies.mp hbody
    exact ⟨p, hp, hhead, hx⟩
  · rintro ⟨p, hp, hhead, hx⟩
    exact ⟨p.body, wf.mem_bodies.mpr ⟨p, hp, hhead, rfl⟩, hx⟩

/-- What a production can begin with is what its body can. -/
theorem production_eq {p : Nat} (hp : p < g.productions.size) :
    f.production p = bodyFirst g.terminals.size f.symbol (g.body p) := by
  obtain ⟨k, -, -, -, -, -, hproductions⟩ := exists_record wf h
  simp [production, hproductions, Grammar.body, hp]

/-- **The order of the search is a ranking**: a nonterminal stands behind all those that it begins
with. -/
theorem order_lt_of_beginsWith {nt m : Nat} (hb : g.BeginsWith f.nullable nt m) :
    f.order.idxOf m < f.order.idxOf nt := by
  obtain ⟨k, hk, hall, hsymbol, horder, -⟩ := exists_record wf h
  obtain ⟨p, hp, rfl, before, after, hbody, hbefore⟩ := hb
  obtain ⟨s, hs⟩ := Option.isSome_iff_exists.mp (hall p.head (wf.head_lt p hp))
  obtain ⟨older, -, hwithin, hcovers, -, hlt⟩ := hk.exists_older hs
  have hcover := hcovers p.body (wf.mem_bodies.mpr ⟨p, hp, rfl, rfl⟩)
  rw [hbody] at hcover
  rw [horder]
  refine hlt m (KnownFirst.mem_order.mpr (hcover.isSome_of_nullable hwithin fun x hx => ?_))
  rw [← hsymbol]
  exact hbefore x hx

/-- **Every symbol can begin with something.** -/
theorem exists_mem_symbol {x : Symbol} (hx : g.HasSymbol x) : ∃ y, y ∈ (f.symbol x).slots := by
  have hsize := size_symbol wf h
  cases x with
  | terminal t => exact ⟨t, by simp [symbol, LookaheadSet.singleton]⟩
  | nonterminal nt =>
    -- Induction on the ranking: an alternative begins with nonterminals found earlier.
    generalize hrank : f.order.idxOf nt = rank
    induction rank using Nat.strongRecOn generalizing nt with
    | ind rank ih =>
      obtain ⟨p, hp⟩ := List.exists_mem_of_ne_nil _ (wf.alternatives_ne_nil nt hx)
      obtain ⟨production, hmem, -, rfl, -⟩ := wf.exists_production hp
      obtain ⟨y, hy⟩ := exists_mem_bodyFirst (α := production.body) hsize
        fun before s after hbody hbefore => by
          cases s with
          | terminal t => exact ⟨t, by simp [symbol, LookaheadSet.singleton]⟩
          | nonterminal m =>
            have hm : m < g.nonterminals.size :=
              wf.body_mem production hmem (.nonterminal m) (by simp [hbody])
            have hlt := order_lt_of_beginsWith wf h
              ⟨production, hmem, rfl, before, after, hbody, hbefore⟩
            exact ih _ (hrank ▸ hlt) m hm rfl
      exact ⟨y, (mem_nonterminal wf h).mpr ⟨production, hmem, rfl, hy⟩⟩

end FirstSets

end PredictiveParsing
