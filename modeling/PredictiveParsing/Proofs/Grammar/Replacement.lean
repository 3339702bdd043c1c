import Mathlib.Logic.Relation

/-!
# Replacing entries of a sequence

A relation tells by which sequences an entry may be replaced. Replacing one entry is a step, and
steps make derivations. A derivation can also be read entry by entry: what becomes of a sequence
is what becomes of its entries, one after the other. That form is the one for inductions, since
it says at once where each part of the result comes from.

## Main definitions

* `Replacement.Step`, `Replacement.Derives`: one replacement, and any number of them
* `Replacement.Yields`: the same entry by entry

## Main results

* `Replacement.Yields.append_iff`: the parts of a sequence are replaced independently
* `Replacement.derives_iff_yields`: both forms agree
-/

namespace PredictiveParsing

namespace Replacement

variable {α : Type} {R : α → List α → Prop} {l m u v w : List α} {x : α}

/-- **One entry is replaced.** -/
inductive Step (R : α → List α → Prop) : List α → List α → Prop
  | replace {x : α} {body : List α} (h : R x body) (before after : List α) :
      Step R (before ++ x :: after) (before ++ body ++ after)

/-- **Entries are replaced any number of times.** -/
def Derives (R : α → List α → Prop) : List α → List α → Prop := Relation.ReflTransGen (Step R)

/-- **What becomes of a sequence**: each entry is kept, or replaced and what replaces it goes on. -/
inductive Yields (R : α → List α → Prop) : List α → List α → Prop
  | nil : Yields R [] []
  | keep {rest w : List α} (x : α) (hrest : Yields R rest w) : Yields R (x :: rest) (x :: w)
  | replace {x : α} {body rest u w : List α} (h : R x body) (hbody : Yields R body u)
      (hrest : Yields R rest w) : Yields R (x :: rest) (u ++ w)

namespace Yields

theorem refl (l : List α) : Yields R l l := by
  induction l with
  | nil => exact .nil
  | cons x l ih => exact .keep x ih

theorem append (h : Yields R l u) (h' : Yields R m v) : Yields R (l ++ m) (u ++ v) := by
  induction h with
  | nil => exact h'
  | keep x _ ih => exact .keep x ih
  | replace h hbody _ _ ih =>
    rw [List.append_assoc]
    exact .replace h hbody ih

/-- **The parts of a sequence are replaced independently.** -/
theorem append_iff :
    Yields R (l ++ m) w ↔ ∃ u v, w = u ++ v ∧ Yields R l u ∧ Yields R m v := by
  constructor
  · intro h
    induction l generalizing w with
    | nil => exact ⟨[], w, rfl, .nil, h⟩
    | cons x l ih =>
      rw [List.cons_append] at h
      cases h with
      | keep _ hrest =>
        obtain ⟨u, v, rfl, hu, hv⟩ := ih hrest
        exact ⟨x :: u, v, rfl, .keep x hu, hv⟩
      | replace h hbody hrest =>
        obtain ⟨u, v, rfl, hu, hv⟩ := ih hrest
        exact ⟨_, v, (List.append_assoc _ u v).symm, .replace h hbody hu, hv⟩
  · rintro ⟨u, v, rfl, hu, hv⟩
    exact hu.append hv

theorem of_replace (h : R x l) (hl : Yields R l w) : Yields R [x] w := by
  simpa using Yields.replace h hl .nil

/-- A step before a derivation makes a derivation. -/
theorem of_step (h : Step R l m) (hm : Yields R m w) : Yields R l w := by
  obtain ⟨h, before, after⟩ := h
  obtain ⟨u, v, rfl, hu, hv⟩ := append_iff.mp hm
  obtain ⟨u₁, u₂, rfl, hu₁, hu₂⟩ := append_iff.mp hu
  rw [List.append_assoc]
  exact hu₁.append (.replace h hu₂ hv)

end Yields

theorem Step.append_left (h : Step R l m) (u : List α) : Step R (u ++ l) (u ++ m) := by
  obtain ⟨h, before, after⟩ := h
  simpa [List.append_assoc] using Step.replace h (u ++ before) after

theorem Step.append_right (h : Step R l m) (u : List α) : Step R (l ++ u) (m ++ u) := by
  obtain ⟨h, before, after⟩ := h
  simpa [List.append_assoc] using Step.replace h before (after ++ u)

theorem Derives.append_left (h : Derives R l m) (u : List α) : Derives R (u ++ l) (u ++ m) :=
  Relation.ReflTransGen.lift (u ++ ·) (fun _ _ hstep => hstep.append_left u) l m h

theorem Derives.append_right (h : Derives R l m) (u : List α) : Derives R (l ++ u) (m ++ u) :=
  Relation.ReflTransGen.lift (· ++ u) (fun _ _ hstep => hstep.append_right u) l m h

/-- **Both forms of derivations agree.** -/
theorem derives_iff_yields : Derives R l w ↔ Yields R l w := by
  constructor
  · intro h
    induction h using Relation.ReflTransGen.head_induction_on with
    | refl => exact .refl w
    | head hstep _ ih => exact .of_step hstep ih
  · intro h
    induction h with
    | nil => exact .refl
    | keep x _ ih => exact ih.append_left [x]
    | @replace x body rest u w h _ _ ihbody ihrest =>
      have hstep : Step R (x :: rest) (body ++ rest) := Step.replace h [] rest
      exact .head hstep ((ihbody.append_right rest).trans (ihrest.append_left u))

end Replacement

end PredictiveParsing
