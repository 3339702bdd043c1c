import Mathlib.Data.List.Forall2
import PredictiveParsing.Parse.Outcome

/-!
# Results of computations that may fail

Building and compiling yield a value or an error; a stretch of a parse yields a value, fails, or
would need more nested calls. Each lemma here says how a joint result comes about, so that no
later proof opens a definition only to find the results of its parts.

## Main results

* `bind_eq_ok`, `mapM_eq_ok`: a sequence yields a value just if all its parts do
* `bind_eq_error`: it fails just if one of them does
* `Outcome.bind_eq_ok`, `Outcome.bind_eq_failed`, `Outcome.bind_ne_exhausted`: the same for
  stretches of a parse
-/

namespace PredictiveParsing

section Except

variable {ε ε' α β : Type}

theorem bind_eq_ok {x : Except ε α} {f : α → Except ε β} {b : β} :
    (x >>= f) = .ok b ↔ ∃ a, x = .ok a ∧ f a = .ok b := by
  cases x with
  | error e => simp [bind, Except.bind]
  | ok a => simp [bind, Except.bind]

theorem bind_eq_error {x : Except ε α} {f : α → Except ε β} {e : ε} :
    (x >>= f) = .error e ↔ x = .error e ∨ ∃ a, x = .ok a ∧ f a = .error e := by
  cases x with
  | error e' => simp [bind, Except.bind]
  | ok a => simp [bind, Except.bind]

theorem pure_eq_ok {a b : α} : (pure a : Except ε α) = .ok b ↔ a = b := by
  simp [pure, Except.pure]

theorem pure_ne_error {a : α} {e : ε} : (pure a : Except ε α) ≠ .error e := by
  simp [pure, Except.pure]

theorem mapError_eq_ok {x : Except ε α} {f : ε → ε'} {a : α} :
    x.mapError f = .ok a ↔ x = .ok a := by
  cases x <;> simp [Except.mapError]

theorem toOption_eq_some {x : Except ε α} {a : α} : x.toOption = some a ↔ x = .ok a := by
  cases x <;> simp [Except.toOption]

/-- A list of computations yields the list of their values. -/
theorem mapM_eq_ok {f : α → Except ε β} {l : List α} {m : List β} :
    l.mapM f = .ok m ↔ List.Forall₂ (fun a b => f a = .ok b) l m := by
  induction l generalizing m with
  | nil =>
    rw [List.mapM_nil, pure_eq_ok, List.forall₂_nil_left_iff, eq_comm]
  | cons a l ih =>
    simp only [List.mapM_cons, bind_eq_ok, pure_eq_ok, ih, List.forall₂_cons_left_iff]
    constructor
    · rintro ⟨b, hb, m, hm, rfl⟩
      exact ⟨b, m, hb, hm, rfl⟩
    · rintro ⟨b, m, hb, hm, rfl⟩
      exact ⟨b, hb, m, hm, rfl⟩

/-- A list of computations that fails has a first one that fails. -/
theorem exists_first_of_mapM_eq_error {f : α → Except ε β} {l : List α} {e : ε}
    (h : l.mapM f = .error e) : ∃ before a after, l = before ++ a :: after ∧
      (∀ a' ∈ before, ∃ b, f a' = .ok b) ∧ f a = .error e := by
  induction l with
  | nil => exact absurd h pure_ne_error
  | cons a l ih =>
    rw [List.mapM_cons, bind_eq_error] at h
    rcases h with ha | ⟨b, hb, h⟩
    · exact ⟨[], a, l, rfl, by simp, ha⟩
    · rcases bind_eq_error.mp h with hl | ⟨m, -, h⟩
      · obtain ⟨before, a', after, rfl, hbefore, hfail⟩ := ih hl
        exact ⟨a :: before, a', after, rfl, List.forall_mem_cons.mpr ⟨⟨b, hb⟩, hbefore⟩, hfail⟩
      · exact absurd h pure_ne_error

/-- A list of computations that fails has one that fails. -/
theorem exists_of_mapM_eq_error {f : α → Except ε β} {l : List α} {e : ε}
    (h : l.mapM f = .error e) : ∃ a ∈ l, f a = .error e := by
  obtain ⟨before, a, after, rfl, -, hfail⟩ := exists_first_of_mapM_eq_error h
  exact ⟨a, by simp, hfail⟩

/-- A value of a list of computations is that of one of them. -/
theorem exists_of_mem_right {R : α → β → Prop} {l : List α} {m : List β} (h : List.Forall₂ R l m)
    {b : β} (hb : b ∈ m) : ∃ a ∈ l, R a b := by
  induction h with
  | nil => exact absurd hb List.not_mem_nil
  | cons hab _ ih =>
    rcases List.mem_cons.mp hb with rfl | hb
    · exact ⟨_, List.mem_cons_self, hab⟩
    · obtain ⟨a, ha, hR⟩ := ih hb
      exact ⟨a, List.mem_cons_of_mem _ ha, hR⟩

/-- Every computation of a list has a value in the list of values. -/
theorem exists_of_mem_left {R : α → β → Prop} {l : List α} {m : List β} (h : List.Forall₂ R l m)
    {a : α} (ha : a ∈ l) : ∃ b ∈ m, R a b :=
  exists_of_mem_right (R := flip R) h.flip ha

/-- What is read off related lists is the same if it is for related members. -/
theorem map_eq_map_of_forall₂ {γ : Type} {R : α → β → Prop} {l : List α} {m : List β} {f : α → γ}
    {f' : β → γ} (h : List.Forall₂ R l m) (hf : ∀ a b, R a b → f a = f' b) :
    l.map f = m.map f' := by
  induction h with
  | nil => rfl
  | cons hab _ ih => rw [List.map_cons, List.map_cons, hf _ _ hab, ih]

end Except

namespace Outcome

variable {σ ε α β : Type}

theorem bind_eq_ok {o : Outcome σ ε α} {next : α → σ → Outcome σ ε β} {w : β} {s : σ}
    {events : List Event} :
    o.bind next = .ok w s events ↔ ∃ v r before after, o = .ok v r before ∧
      next v r = .ok w s after ∧ events = before ++ after := by
  cases o with
  | ok v r before =>
    cases h : next v r <;> simp [bind, after, h, eq_comm, and_assoc]
  | failed e before => simp [bind]
  | exhausted => simp [bind]

theorem map_eq_ok {o : Outcome σ ε α} {f : α → β} {w : β} {s : σ} {events : List Event} :
    o.map f = .ok w s events ↔ ∃ v, o = .ok v s events ∧ f v = w := by
  cases o with
  | ok v r before =>
    constructor
    · rintro ⟨⟩
      exact ⟨v, rfl, rfl⟩
    · rintro ⟨v, ⟨⟩, rfl⟩
      rfl
  | failed e before => simp [map]
  | exhausted => simp [map]

theorem after_eq_ok {o : Outcome σ ε α} {earlier : List Event} {v : α} {s : σ}
    {events : List Event} :
    o.after earlier = .ok v s events ↔ ∃ later, o = .ok v s later ∧ events = earlier ++ later := by
  cases o <;> simp [after, eq_comm, and_assoc]

/-! ## Failures -/

theorem bind_eq_failed {o : Outcome σ ε α} {next : α → σ → Outcome σ ε β} {e : ε}
    {events : List Event} :
    o.bind next = .failed e events ↔ o = .failed e events ∨
      ∃ v r before after, o = .ok v r before ∧ next v r = .failed e after ∧
        events = before ++ after := by
  cases o with
  | ok v r before =>
    cases h : next v r <;> simp [bind, after, h, eq_comm, and_assoc]
  | failed e before => simp [bind]
  | exhausted => simp [bind]

theorem map_eq_failed {o : Outcome σ ε α} {f : α → β} {e : ε} {events : List Event} :
    o.map f = .failed e events ↔ o = .failed e events := by
  cases o <;> simp [map]

theorem after_eq_failed {o : Outcome σ ε α} {earlier : List Event} {e : ε} {events : List Event} :
    o.after earlier = .failed e events ↔
      ∃ later, o = .failed e later ∧ events = earlier ++ later := by
  cases o <;> simp [after, eq_comm, and_assoc]

/-! ## Enough nested calls -/

@[simp] theorem after_eq_exhausted {o : Outcome σ ε α} {earlier : List Event} :
    o.after earlier = .exhausted ↔ o = .exhausted := by
  cases o <;> simp [after]

@[simp] theorem map_eq_exhausted {o : Outcome σ ε α} {f : α → β} :
    o.map f = .exhausted ↔ o = .exhausted := by
  cases o <;> simp [map]

/-- Two stretches need no more calls if the first does not, and the second does not after any
result of the first. -/
theorem bind_ne_exhausted {o : Outcome σ ε α} {next : α → σ → Outcome σ ε β}
    (ho : o ≠ .exhausted) (hnext : ∀ v s events, o = .ok v s events → next v s ≠ .exhausted) :
    o.bind next ≠ .exhausted := by
  cases o with
  | ok v s events => simpa [bind] using hnext v s events rfl
  | failed e events => simp [bind]
  | exhausted => exact absurd rfl ho

end Outcome

end PredictiveParsing
