import Mathlib.Data.List.Chain
import PredictiveParsing.Proofs.Grammar.Derivation

/-!
# Sentential forms

The start symbol derives the sentential forms of a grammar. What can come after a symbol is read
off them: a terminal that stands right behind it, or the end of the input where a form ends with
it.

The steps from a sequence can be listed. So a derivation can be checked, and a finite list of
sequences that is closed under steps holds all that is derived from them.

## Main definitions

* `Grammar.Sentential`, `Grammar.Occurs`: sentential forms, and the symbols in them
* `Grammar.Precedes`, `Grammar.ComesLast`: what stands next to a symbol
* `Grammar.CanFollow`: the numbers of a lookahead set that a symbol accounts for
* `Grammar.steps`: the sequences that are one step away

## Main results

* `Grammar.Sentential.replace`: part of a sentential form is replaced by what it derives
* `Grammar.Sentential.isChain`: each symbol of a sentential form stands before the next
* `Grammar.mem_steps`: the steps are those of derivations
* `Grammar.mem_of_derives`: a list that is closed under steps is closed under derivations
-/

namespace PredictiveParsing

namespace Grammar

variable {g : Grammar} {x y : Symbol}

/-- **A sentential form**: a sequence that the start symbol derives. -/
def Sentential (g : Grammar) (α : List Symbol) : Prop := g.Derives [.nonterminal g.start] α

/-- A symbol stands in a sentential form. -/
def Occurs (g : Grammar) (x : Symbol) : Prop :=
  ∃ before after, g.Sentential (before ++ x :: after)

/-- **A symbol stands right before another** in a sentential form. -/
def Precedes (g : Grammar) (x y : Symbol) : Prop :=
  ∃ before after, g.Sentential (before ++ x :: y :: after)

/-- **A sentential form ends with a symbol.** -/
def ComesLast (g : Grammar) (x : Symbol) : Prop := ∃ before, g.Sentential (before ++ [x])

/-- **What comes right after a symbol**: the terminals behind it, and the mark for the end of the
input if it comes last. -/
inductive CanFollow (g : Grammar) (x : Symbol) : Nat → Prop
  | terminal {t : Nat} (ht : t < g.terminals.size) (h : g.Precedes x (.terminal t)) :
      CanFollow g x t
  | ending (h : g.ComesLast x) : CanFollow g x g.terminals.size

theorem Sentential.replace {before α β after : List Symbol}
    (h : g.Sentential (before ++ α ++ after)) (hα : g.Derives α β) :
    g.Sentential (before ++ β ++ after) :=
  h.trans ((hα.append_left before).append_right after)

theorem Precedes.occurs_left (h : g.Precedes x y) : g.Occurs x := by
  obtain ⟨before, after, h⟩ := h
  exact ⟨before, y :: after, h⟩

theorem Precedes.occurs_right (h : g.Precedes x y) : g.Occurs y := by
  obtain ⟨before, after, h⟩ := h
  exact ⟨before ++ [x], after, by simpa using h⟩

/-- Symbols that stand next to each other are paired when a form is zipped with its tail. -/
theorem Precedes.exists_mem_zip (h : g.Precedes x y) :
    ∃ α, g.Sentential α ∧ (x, y) ∈ α.zip α.tail := by
  obtain ⟨before, after, h⟩ := h
  refine ⟨_, h, ?_⟩
  clear h
  induction before with
  | nil => exact List.mem_cons_self
  | cons z before ih =>
    cases before with
    | nil => exact List.mem_cons_of_mem _ ih
    | cons w before => exact List.mem_cons_of_mem _ ih

/-- In a sentential form each symbol stands before the next. -/
theorem Sentential.isChain {before α after : List Symbol}
    (h : g.Sentential (before ++ α ++ after)) : α.IsChain g.Precedes := by
  induction α generalizing before with
  | nil => exact .nil
  | cons x α ih =>
    have hform : g.Sentential (before ++ [x] ++ α ++ after) := by simpa using h
    have hrest := ih hform
    cases α with
    | nil => exact .singleton x
    | cons y α => exact .cons_cons ⟨before, α ++ after, by simpa using h⟩ hrest

/-- So it does in the body of a production whose head stands in a sentential form. -/
theorem Occurs.isChain_body {p : Production} (h : g.Occurs (.nonterminal p.head))
    (hp : p ∈ g.productions) : p.body.IsChain g.Precedes := by
  obtain ⟨before, after, h⟩ := h
  have hform : g.Sentential (before ++ [.nonterminal p.head] ++ after) := by simpa using h
  exact (hform.replace (.of_production hp)).isChain

/-- What a symbol derives begins right behind what stands before the symbol. -/
theorem Precedes.trans_derives {β : List Symbol} {z : Symbol} (h : g.Precedes x y)
    (hy : g.Derives [y] (z :: β)) : g.Precedes x z := by
  obtain ⟨before, after, h⟩ := h
  have hform : g.Sentential ((before ++ [x]) ++ [y] ++ after) := by simpa using h
  exact ⟨before, β ++ after, by simpa using hform.replace hy⟩

/-- What a symbol derives ends right before what stands behind the symbol. -/
theorem Precedes.of_derives {β : List Symbol} {z : Symbol} (h : g.Precedes x y)
    (hx : g.Derives [x] (β ++ [z])) : g.Precedes z y := by
  obtain ⟨before, after, h⟩ := h
  have hform : g.Sentential (before ++ [x] ++ y :: after) := by simpa using h
  exact ⟨before ++ β, after, by simpa using hform.replace hx⟩

/-- In a form in which a nonterminal stands before a symbol, what the body of a production ends with
stands before it. -/
theorem Precedes.of_body {p : Production} {z : Symbol} {before after : List Symbol}
    (h : g.Precedes (.nonterminal p.head) y) (hp : p ∈ g.productions)
    (hbody : p.body = before ++ z :: after) (hafter : g.Derives after []) : g.Precedes z y := by
  refine h.of_derives (β := before) ((Derives.of_production hp).trans ?_)
  rw [hbody]
  have hvanish := hafter.append_left (before ++ [z])
  simpa using hvanish

theorem ComesLast.of_derives {β : List Symbol} {z : Symbol} (h : g.ComesLast x)
    (hx : g.Derives [x] (β ++ [z])) : g.ComesLast z := by
  obtain ⟨before, h⟩ := h
  have hform : g.Sentential (before ++ [x] ++ []) := by simpa using h
  exact ⟨before ++ β, by simpa using hform.replace hx⟩

/-- What comes after a symbol comes after what it ends with. -/
theorem CanFollow.of_derives {β : List Symbol} {z : Symbol} {slot : Nat}
    (h : g.CanFollow x slot) (hx : g.Derives [x] (β ++ [z])) : g.CanFollow z slot := by
  cases h with
  | terminal ht h => exact .terminal ht (h.of_derives hx)
  | ending h => exact .ending (h.of_derives hx)

/-- What the symbol behind can begin with comes right after a symbol. -/
theorem CanFollow.of_canBegin {slot : Nat} (h : g.Precedes x y) (hslot : g.CanBegin [y] slot)
    (hne : slot ≠ g.terminals.size + 1) : g.CanFollow x slot := by
  cases hslot with
  | terminal ht hy => exact .terminal ht (h.trans_derives hy)
  | epsilon => exact absurd rfl hne

theorem CanFollow.precedes {t : Nat} (h : g.CanFollow x t) (ht : t < g.terminals.size) :
    g.Precedes x (.terminal t) := by
  cases h with
  | terminal _ h => exact h
  | ending => omega

theorem CanFollow.comesLast (h : g.CanFollow x g.terminals.size) : g.ComesLast x := by
  generalize hslot : g.terminals.size = slot at h
  cases h with
  | terminal ht => omega
  | ending h => exact h

/-! ## Listing the steps -/

/-- The sequences that become of a sequence in one step. -/
def steps (g : Grammar) : List Symbol → List (List Symbol)
  | [] => []
  | .terminal t :: rest => (g.steps rest).map (.terminal t :: ·)
  | .nonterminal nt :: rest =>
    (g.productions.toList.filter (·.head == nt)).map (·.body ++ rest) ++
      (g.steps rest).map (.nonterminal nt :: ·)

/-- **The steps are those of derivations.** -/
theorem mem_steps {α β : List Symbol} : β ∈ g.steps α ↔ g.Rewrites α β := by
  constructor
  · intro h
    induction α generalizing β with
    | nil => exact absurd h List.not_mem_nil
    | cons x α ih =>
      have hrest {γ : List Symbol} (hγ : γ ∈ g.steps α) : g.Rewrites (x :: α) (x :: γ) :=
        (ih hγ).append_left [x]
      cases x with
      | terminal t =>
        obtain ⟨γ, hγ, rfl⟩ := List.mem_map.mp h
        exact hrest hγ
      | nonterminal nt =>
        rcases List.mem_append.mp h with h | h
        · obtain ⟨p, hp, rfl⟩ := List.mem_map.mp h
          obtain ⟨hmem, hhead⟩ := List.mem_filter.mp hp
          obtain rfl : p.head = nt := by simpa using hhead
          exact Rewrites.replace (Array.mem_toList_iff.mp hmem) [] α
        · obtain ⟨γ, hγ, rfl⟩ := List.mem_map.mp h
          exact hrest hγ
  · rintro @⟨p, hp, before, after⟩
    induction before with
    | nil =>
      refine List.mem_append_left _ (List.mem_map.mpr ⟨p, List.mem_filter.mpr ⟨?_, ?_⟩, rfl⟩)
      · exact Array.mem_toList_iff.mpr hp
      · simp
    | cons x before ih =>
      cases x with
      | terminal t => exact List.mem_map.mpr ⟨_, ih, rfl⟩
      | nonterminal nt => exact List.mem_append_right _ (List.mem_map.mpr ⟨_, ih, rfl⟩)

/-- A list of sequences, each one step behind the one before it, is a derivation. -/
theorem derives_of_isChain {α β : List Symbol} {forms : List (List Symbol)}
    (h : (α :: forms).IsChain fun γ δ => δ ∈ g.steps γ)
    (hlast : (α :: forms).getLast (List.cons_ne_nil α forms) = β) : g.Derives α β := by
  induction forms generalizing α with
  | nil => exact hlast ▸ .refl α
  | cons γ forms ih =>
    obtain ⟨hstep, hrest⟩ := List.isChain_cons_cons.mp h
    exact (Derives.of_rewrites (mem_steps.mp hstep)).trans (ih hrest hlast)

/-- **A list that is closed under steps** holds all that is derived from its members. -/
theorem mem_of_derives {forms : List (List Symbol)}
    (hclosed : ∀ α ∈ forms, ∀ β ∈ g.steps α, β ∈ forms) {α β : List Symbol} (hα : α ∈ forms)
    (h : g.Derives α β) : β ∈ forms := by
  induction h with
  | refl => exact hα
  | tail _ hstep ih => exact hclosed _ ih _ (mem_steps.mpr hstep)

/-- A terminal derives nothing but itself. -/
theorem Derives.eq_terminal {t : Nat} {α : List Symbol} (h : g.Derives [.terminal t] α) :
    α = [.terminal t] := by
  have hclosed : ∀ β ∈ [[Symbol.terminal t]], ∀ γ ∈ g.steps β, γ ∈ [[Symbol.terminal t]] := by
    simp [steps]
  exact List.mem_singleton.mp (mem_of_derives hclosed List.mem_cons_self h)

end Grammar

end PredictiveParsing
