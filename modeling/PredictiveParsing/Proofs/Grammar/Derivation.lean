import Mathlib.Logic.Relation
import PredictiveParsing.Grammar.Basic

/-!
# Derivations

A sequence of symbols is rewritten by putting the body of a production in the place of its head.
What a sequence derives is what it becomes by any number of such steps.

## Main definitions

* `Grammar.Rewrites`, `Grammar.Derives`: one step, and any number of steps
* `Grammar.CanBegin`: the numbers of a lookahead set that a sequence accounts for

## Main results

* `Grammar.Derives.append`, `Grammar.Derives.exists_append`: sequences are rewritten independently
  of each other
* `Grammar.CanBegin.of_derives`: what is derived accounts for no more
-/

namespace PredictiveParsing

/-- An entry of a sequence of two parts stands in the first or in the second. -/
theorem append_eq_append_cons {α : Type} {l m before after : List α} {x : α} :
    l ++ m = before ++ x :: after ↔
      (∃ rest, l = before ++ x :: rest ∧ after = rest ++ m) ∨
      (∃ rest, before = l ++ rest ∧ m = rest ++ x :: after) := by
  constructor
  · intro h
    rcases List.append_eq_append_iff.mp h with ⟨rest, hbefore, hm⟩ | ⟨rest, hl, hx⟩
    · exact .inr ⟨rest, hbefore, hm⟩
    · cases rest with
      | nil => exact .inr ⟨[], by simpa using hl.symm, by simpa using hx.symm⟩
      | cons y rest =>
        obtain ⟨rfl, rfl⟩ := List.cons.inj hx
        exact .inl ⟨rest, hl, rfl⟩
  · rintro (⟨rest, rfl, rfl⟩ | ⟨rest, rfl, rfl⟩)
    · simp
    · simp

namespace Grammar

variable {g : Grammar} {α β γ δ : List Symbol}

/-- **One step**: a nonterminal is replaced by the body of one of its productions. -/
inductive Rewrites (g : Grammar) : List Symbol → List Symbol → Prop
  | replace {p : Production} (hp : p ∈ g.productions) (before after : List Symbol) :
      Rewrites g (before ++ .nonterminal p.head :: after) (before ++ p.body ++ after)

/-- **Any number of steps.** -/
def Derives (g : Grammar) : List Symbol → List Symbol → Prop := Relation.ReflTransGen g.Rewrites

theorem Rewrites.append_left (h : g.Rewrites α β) (γ : List Symbol) :
    g.Rewrites (γ ++ α) (γ ++ β) := by
  obtain ⟨hp, before, after⟩ := h
  simpa [List.append_assoc] using Rewrites.replace hp (γ ++ before) after

theorem Rewrites.append_right (h : g.Rewrites α β) (γ : List Symbol) :
    g.Rewrites (α ++ γ) (β ++ γ) := by
  obtain ⟨hp, before, after⟩ := h
  simpa [List.append_assoc] using Rewrites.replace hp before (after ++ γ)

namespace Derives

theorem refl (α : List Symbol) : g.Derives α α := Relation.ReflTransGen.refl

theorem trans (h : g.Derives α β) (h' : g.Derives β γ) : g.Derives α γ :=
  Relation.ReflTransGen.trans h h'

theorem of_rewrites (h : g.Rewrites α β) : g.Derives α β := Relation.ReflTransGen.single h

/-- The head of a production derives its body. -/
theorem of_production {p : Production} (hp : p ∈ g.productions) :
    g.Derives [.nonterminal p.head] p.body := by
  simpa using of_rewrites (Rewrites.replace hp [] [])

theorem append_left (h : g.Derives α β) (γ : List Symbol) : g.Derives (γ ++ α) (γ ++ β) := by
  induction h with
  | refl => exact refl _
  | tail _ hstep ih => exact ih.trans (of_rewrites (hstep.append_left γ))

theorem append_right (h : g.Derives α β) (γ : List Symbol) : g.Derives (α ++ γ) (β ++ γ) := by
  induction h with
  | refl => exact refl _
  | tail _ hstep ih => exact ih.trans (of_rewrites (hstep.append_right γ))

/-- **Sequences are rewritten independently of each other.** -/
theorem append (h : g.Derives α β) (h' : g.Derives γ δ) : g.Derives (α ++ γ) (β ++ δ) :=
  (h.append_right γ).trans (h'.append_left β)

/-- A sequence of symbols that can vanish can vanish. -/
theorem nil_of_forall (h : ∀ x ∈ α, g.Derives [x] []) : g.Derives α [] := by
  induction α with
  | nil => exact refl []
  | cons x α ih =>
    have hx := h x List.mem_cons_self
    exact hx.append (ih fun y hy => h y (List.mem_cons_of_mem x hy))

end Derives

/-- **What a sequence of two parts derives** is what the first derives before what the second
does. -/
theorem Derives.exists_append (h : g.Derives (α ++ β) δ) :
    ∃ γ γ', δ = γ ++ γ' ∧ g.Derives α γ ∧ g.Derives β γ' := by
  induction h with
  | refl => exact ⟨α, β, rfl, .refl α, .refl β⟩
  | tail _ hstep ih =>
    obtain ⟨γ, γ', hγ, hα, hβ⟩ := ih
    obtain @⟨p, hp, before, after⟩ := hstep
    rcases append_eq_append_cons.mp hγ.symm with ⟨rest, rfl, rfl⟩ | ⟨rest, rfl, rfl⟩
    · refine ⟨before ++ p.body ++ rest, γ', by simp, ?_, hβ⟩
      exact hα.trans (.of_rewrites (.replace hp before rest))
    · refine ⟨γ, rest ++ p.body ++ after, by simp, hα, ?_⟩
      exact hβ.trans (.of_rewrites (.replace hp rest after))

theorem derives_append_nil_iff : g.Derives (α ++ β) [] ↔ g.Derives α [] ∧ g.Derives β [] := by
  constructor
  · intro h
    obtain ⟨γ, γ', hnil, hα, hβ⟩ := h.exists_append
    obtain ⟨rfl, rfl⟩ := List.append_eq_nil_iff.mp hnil.symm
    exact ⟨hα, hβ⟩
  · rintro ⟨hα, hβ⟩
    exact hα.append hβ

/-- What two parts begin with is what the first begins with, or, if the first can vanish, what the
second does. -/
theorem Derives.cons_of_append {x : Symbol} (h : g.Derives (α ++ β) (x :: γ)) :
    (∃ δ, g.Derives α (x :: δ)) ∨ g.Derives α [] ∧ ∃ δ, g.Derives β (x :: δ) := by
  obtain ⟨δ, δ', hcons, hα, hβ⟩ := h.exists_append
  cases δ with
  | nil =>
    refine .inr ⟨hα, γ, ?_⟩
    rw [hcons]
    exact hβ
  | cons y δ =>
    obtain ⟨rfl, -⟩ := List.cons.inj hcons
    exact .inl ⟨δ, hα⟩

/-! ## What a sequence can begin with -/

/-- **What a sequence of symbols accounts for**: the terminals with which a sequence that it
derives begins, and the mark for the empty text if it derives that. -/
inductive CanBegin (g : Grammar) (α : List Symbol) : Nat → Prop
  | terminal {t : Nat} {γ : List Symbol} (ht : t < g.terminals.size)
      (h : g.Derives α (.terminal t :: γ)) : CanBegin g α t
  | epsilon (h : g.Derives α []) : CanBegin g α (g.terminals.size + 1)

namespace CanBegin

/-- What is derived accounts for no more than what derives it. -/
theorem of_derives {x : Nat} (h : g.Derives α β) (hx : g.CanBegin β x) : g.CanBegin α x := by
  cases hx with
  | terminal ht hβ => exact .terminal ht (h.trans hβ)
  | epsilon hβ => exact .epsilon (h.trans hβ)

/-- A sequence accounts for all that its first part does, but for the empty text. -/
theorem append_right {x : Nat} (hx : g.CanBegin α x) (hne : x ≠ g.terminals.size + 1)
    (β : List Symbol) : g.CanBegin (α ++ β) x := by
  cases hx with
  | terminal ht h => exact .terminal ht (h.append_right β)
  | epsilon => exact absurd rfl hne

/-- If the first part can vanish a sequence accounts for all that the second part does. -/
theorem append_left {x : Nat} (hα : g.Derives α []) (hx : g.CanBegin β x) :
    g.CanBegin (α ++ β) x :=
  of_derives (hα.append_right β) hx

/-- A sequence accounts for terminals and for the mark for the empty text only. -/
theorem lt_or_eq {x : Nat} (hx : g.CanBegin α x) :
    x < g.terminals.size ∨ x = g.terminals.size + 1 := by
  cases hx with
  | terminal ht => exact .inl ht
  | epsilon => exact .inr rfl

theorem terminal_iff {t : Nat} (ht : t < g.terminals.size) :
    g.CanBegin α t ↔ ∃ γ, g.Derives α (.terminal t :: γ) := by
  constructor
  · rintro (⟨-, h⟩ | -)
    · exact ⟨_, h⟩
    · omega
  · rintro ⟨γ, h⟩
    exact .terminal ht h

theorem epsilon_iff : g.CanBegin α (g.terminals.size + 1) ↔ g.Derives α [] := by
  constructor
  · generalize hx : g.terminals.size + 1 = x
    rintro (⟨ht, -⟩ | h)
    · omega
    · exact h
  · exact .epsilon

theorem not_end : ¬ g.CanBegin α g.terminals.size := by
  intro hx
  have := hx.lt_or_eq
  omega

end CanBegin

end Grammar

end PredictiveParsing
