import PredictiveParsing.Proofs.Grammar.SyntaxTree

/-!
# What can be read up to a place

A sequence of symbols is worked off from the left along a scan: a terminal takes the token that
comes next, and a nonterminal is replaced by the body of one of its productions. A place of the
scan can be reached in this way just if the tokens before it stand at the beginning of something
that the sequence derives.

## Main definitions

* `Grammar.CanReach`: a place of a scan can be reached

## Main results

* `Grammar.canReach_of_derives`, `Grammar.CanReach.exists_derives`: by what the sequence derives
-/

namespace PredictiveParsing

namespace Grammar

/-- **A place of a scan can be reached** from the symbols and the scan given. -/
inductive CanReach (g : Grammar) (place : Scan) : List Symbol → Scan → Prop
  | here (xs : List Symbol) : CanReach g place xs place
  | token {xs : List Symbol} {s : Scan} (t : Token) (h : CanReach g place xs s) :
      CanReach g place (.terminal t.terminal :: xs) (.token t s)
  | replace {p : Production} {xs : List Symbol} {s : Scan} (hp : p ∈ g.productions)
      (h : CanReach g place (p.body ++ xs) s) :
      CanReach g place (.nonterminal p.head :: xs) s

namespace CanReach

variable {g : Grammar} {place : Scan} {xs ys : List Symbol} {s : Scan}

/-- The tokens before a place that can be reached stand at the beginning of a derived sequence. -/
theorem exists_derives (h : g.CanReach place xs s) : ∃ tokens α, s = Scan.prepend tokens place ∧
    g.Derives xs ((tokens.map fun t => .terminal t.terminal) ++ α) := by
  induction h with
  | here xs => exact ⟨[], xs, rfl, .refl xs⟩
  | token t _ ih =>
    obtain ⟨tokens, α, rfl, hα⟩ := ih
    exact ⟨t :: tokens, α, rfl, hα.append_left [.terminal t.terminal]⟩
  | @replace p xs s hp _ ih =>
    obtain ⟨tokens, α, hs, hα⟩ := ih
    exact ⟨tokens, α, hs, ((Derives.of_production hp).append_right xs).trans hα⟩

/-- A place behind the next token is reached from a terminal by taking the token. -/
theorem exists_token {t : Nat} (h : g.CanReach place (.terminal t :: xs) s)
    (hlt : place.length < s.length) :
    ∃ token r, s = .token token r ∧ token.terminal = t ∧ g.CanReach place xs r := by
  generalize hys : Symbol.terminal t :: xs = ys at h
  cases h with
  | here => omega
  | @token zs r token h =>
    obtain ⟨hterminal, rfl⟩ := List.cons.inj hys
    exact ⟨token, r, rfl, (Symbol.terminal.inj hterminal).symm, h⟩
  | replace => cases hys

/-- A step can be taken back, wherever it was made. -/
theorem of_rewrites (hstep : g.Rewrites xs ys) (h : g.CanReach place ys s) :
    g.CanReach place xs s := by
  obtain @⟨p, hp, before, after⟩ := hstep
  -- Induction on the way to the place: it gets to the step, or ends before.
  generalize hys : before ++ p.body ++ after = ys at h
  induction h generalizing before with
  | here => exact .here _
  | token t h ih =>
    cases before with
    | nil => exact .replace hp (hys ▸ .token t h)
    | cons x before =>
      obtain ⟨rfl, rfl⟩ := List.cons.inj hys
      exact .token t (ih before rfl)
  | @replace q zs s hq h ih =>
    cases before with
    | nil => exact .replace hp (hys ▸ .replace hq h)
    | cons x before =>
      obtain ⟨rfl, rfl⟩ := List.cons.inj hys
      refine .replace hq ?_
      simpa using ih (q.body ++ before) (by simp)

end CanReach

variable {g : Grammar}

/-- **What is derived can be read.** -/
theorem canReach_of_derives {place : Scan} {xs α : List Symbol} {tokens : List Token}
    (h : g.Derives xs ((tokens.map fun t => .terminal t.terminal) ++ α)) :
    g.CanReach place xs (Scan.prepend tokens place) := by
  induction h using Relation.ReflTransGen.head_induction_on with
  | refl =>
    induction tokens with
    | nil => exact .here α
    | cons t tokens ih => exact .token t ih
  | head hstep _ ih => exact ih.of_rewrites hstep

end Grammar

end PredictiveParsing
