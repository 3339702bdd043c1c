import Mathlib.Data.List.Nodup
import Mathlib.Data.List.Perm.Subperm
import PredictiveParsing.Emission.Rendering

/-!
# Identifiers are valid and different

An identifier is made in steps: characters are left out, a fallback replaces what is left or stands
before it, a keyword gets an underscore, and a number behind it tells it from those in use. Each
step keeps what the steps before have achieved, since it only puts allowed characters behind a word,
and no keyword has an underscore. There are more numbers to try than identifiers in use, so the
search for a new one succeeds.

## Main definitions

* `Identifier.IsWord`, `Identifier.IsValid`: what an identifier has to look like
* `Namer.Request`, `Namer.answers`: names that ask for identifiers one after the other

## Main results

* `Identifier.isValid_fresh`: the identifier for a name is valid
* `Identifier.exists_fresh`: it is the first candidate that is not in use
* `Namer.answers_valid_nodup`: identifiers that are handed out are valid and different
-/

namespace PredictiveParsing

namespace Identifier

/-! ## Words -/

/-- **A word** consists of allowed characters, has one that is no underscore, and begins with no
digit. -/
structure IsWord (l : List Char) : Prop where
  /-- There are only letters, digits and underscores. -/
  allowed : ∀ c ∈ l, c.isAlphanum = true ∨ c = '_'
  /-- There are not only underscores. -/
  not_underscores : ∃ c ∈ l, c ≠ '_'
  /-- The first character is no digit. -/
  not_digit : ∀ c, l.head? = some c → c.isDigit = false

/-- **A valid identifier** is a word and no keyword. -/
structure IsValid (ident : String) : Prop where
  /-- It is a word. -/
  word : IsWord ident.toList
  /-- It is no keyword. -/
  not_keyword : ident ∉ keywords

/-- The texts that stand for names without usable characters. -/
def fallbacks : List String := ["nonterminal", "Node", "field"]

namespace IsWord

variable {l m : List Char}

theorem ne_nil (h : IsWord l) : l ≠ [] := by
  rintro rfl
  obtain ⟨c, hc, -⟩ := h.not_underscores
  cases hc

/-- **Allowed characters behind a word** make no difference. -/
theorem append (h : IsWord l) (hm : ∀ c ∈ m, c.isAlphanum = true ∨ c = '_') :
    IsWord (l ++ m) where
  allowed c hc := by
    rcases List.mem_append.mp hc with hc | hc
    · exact h.allowed c hc
    · exact hm c hc
  not_underscores := by
    obtain ⟨c, hc, hne⟩ := h.not_underscores
    exact ⟨c, List.mem_append_left m hc, hne⟩
  not_digit c hc := by
    apply h.not_digit c
    cases l with
    | nil => exact absurd rfl h.ne_nil
    | cons d l => exact hc

end IsWord

theorem isAllowed_iff {c : Char} : isAllowed c = true ↔ c.isAlphanum = true ∨ c = '_' := by
  rw [isAllowed, Bool.or_eq_true, beq_iff_eq]

/-- The checks of characters make a word. -/
theorem isWord_of_checks {l : List Char} (hallowed : l.all isAllowed = true)
    (hother : l.all (· == '_') = false) (hdigit : l.head?.any Char.isDigit = false) : IsWord l where
  allowed c hc := isAllowed_iff.mp (List.all_eq_true.mp hallowed c hc)
  not_underscores := by simpa using hother
  not_digit c hc := by
    rw [hc] at hdigit
    exact hdigit

theorem isWord_of_mem_fallbacks {fallback : String} (h : fallback ∈ fallbacks) :
    IsWord fallback.toList := by
  simp only [fallbacks, List.mem_cons, List.not_mem_nil, or_false] at h
  rcases h with rfl | rfl | rfl <;> exact isWord_of_checks (by decide) (by decide) (by decide)

variable {convert : List Char → List Char} {name fallback ident : String}

/-- What a name leaves of itself is a word if the fallback is. -/
theorem isWord_stem (h : IsWord fallback.toList) : IsWord (stem convert name fallback) := by
  set kept := (convert name.toList).filter isAllowed with hkept
  have hallowed : kept.all isAllowed = true :=
    List.all_eq_true.mpr fun c hc => (List.mem_filter.mp hc).2
  rw [stem, ← hkept]
  split
  · exact h
  · rename_i hother
    split
    · -- a digit does no harm behind the fallback
      apply h.append
      intro c hc
      exact isAllowed_iff.mp (List.all_eq_true.mp hallowed c hc)
    · rename_i hdigit
      exact isWord_of_checks hallowed (eq_false_of_ne_true hother)
        (eq_false_of_ne_true hdigit)

/-- No keyword has an underscore. -/
theorem not_mem_keywords_of_underscore (h : '_' ∈ ident.toList) : ident ∉ keywords := by
  have hnone : ∀ keyword ∈ keywords, '_' ∉ keyword.toList := by decide
  exact fun hmem => hnone ident hmem h

/-- **The identifier that a name asks for is valid.** -/
theorem isValid_base (h : IsWord fallback.toList) : IsValid (base convert name fallback) := by
  have hstem : IsWord (stem convert name fallback) := isWord_stem h
  rw [base]
  by_cases hkeyword : String.ofList (stem convert name fallback) ∈ keywords
  · rw [if_pos hkeyword]
    constructor
    · rw [String.toList_push, String.toList_ofList]
      exact hstem.append (by simp)
    · exact not_mem_keywords_of_underscore (by simp)
  · rw [if_neg hkeyword]
    exact ⟨by rwa [String.toList_ofList], hkeyword⟩

/-- A number behind a valid identifier keeps it valid. -/
theorem isValid_candidate (h : IsValid ident) (n : Nat) : IsValid (candidate ident n) := by
  cases n with
  | zero => exact h
  | succ n =>
    constructor
    · rw [candidate, String.toList_append, String.toList_append, List.append_assoc]
      apply h.word.append
      intro c hc
      rcases List.mem_append.mp hc with hc | hc
      · obtain rfl : c = '_' := by simpa using hc
        exact .inr rfl
      · rw [Nat.toString_eq_ofList_toDigits, String.toList_ofList] at hc
        have hdigit := Nat.isDigit_of_mem_toDigits (by decide) (by decide) hc
        exact .inl (by simp [Char.isAlphanum, hdigit])
    · apply not_mem_keywords_of_underscore
      simp [candidate]

/-! ## Identifiers that are not in use -/

/-- Candidates are known by their numbers. -/
theorem candidate_inj {n m : Nat} (h : candidate ident n = candidate ident m) : n = m := by
  have hlist := congrArg String.toList h
  cases n with
  | zero =>
    cases m with
    | zero => rfl
    | succ m => simp [candidate, String.append_assoc] at hlist
  | succ n =>
    cases m with
    | zero => simp [candidate, String.append_assoc] at hlist
    | succ m =>
      simp only [candidate, String.toList_append, List.append_cancel_left_eq] at hlist
      have hdigits : Nat.toDigits 10 (n + 1) = Nat.toDigits 10 (m + 1) := by
        simpa [Nat.toString_eq_ofList_toDigits] using hlist
      simpa using congrArg (Nat.ofDigitChars 10 · 0) hdigits

/-- There are more candidates than identifiers in use. -/
theorem exists_candidate_not_mem (used : List String) (ident : String) :
    ∃ n ≤ used.length, candidate ident n ∉ used := by
  by_contra! hnone
  have hnodup : ((List.range (used.length + 1)).map (candidate ident)).Nodup :=
    List.nodup_range.map fun n m h => candidate_inj h
  have hsub : (List.range (used.length + 1)).map (candidate ident) ⊆ used := by
    intro c hc
    obtain ⟨n, hn, rfl⟩ := List.mem_map.mp hc
    exact hnone n (Nat.le_of_lt_succ (List.mem_range.mp hn))
  have hlength := (hnodup.subperm hsub).length_le
  rw [List.length_map, List.length_range] at hlength
  omega

/-- **The first candidate that is not in use is found**, among as many as there are identifiers in
use and one more. -/
theorem exists_fresh (used : List String) (ident : String) :
    ∃ n ≤ used.length, fresh used ident = candidate ident n ∧ candidate ident n ∉ used ∧
      ∀ k < n, candidate ident k ∈ used := by
  obtain ⟨m, hm, hfree⟩ := exists_candidate_not_mem used ident
  match hfind : (List.range (used.length + 1)).find? (fun k => candidate ident k ∉ used) with
  | none =>
    exact absurd hfree (by simpa using List.find?_range_eq_none.mp hfind m (Nat.lt_succ_of_le hm))
  | some n =>
    obtain ⟨hnew, hrange, hbefore⟩ := List.find?_range_eq_some.mp hfind
    refine ⟨n, Nat.le_of_lt_succ (List.mem_range.mp hrange), ?_, by simpa using hnew, ?_⟩
    · rw [fresh, List.find?_map]
      show (Option.map _ ((List.range (used.length + 1)).find?
        fun k => candidate ident k ∉ used)).getD ident = _
      rw [hfind]
      rfl
    · intro k hk
      simpa using hbefore k hk

theorem fresh_not_mem (used : List String) (ident : String) : fresh used ident ∉ used := by
  obtain ⟨n, -, hfresh, hnew, -⟩ := exists_fresh used ident
  rwa [hfresh]

theorem isValid_fresh (h : IsValid ident) (used : List String) : IsValid (fresh used ident) := by
  obtain ⟨n, -, hfresh, -, -⟩ := exists_fresh used ident
  rw [hfresh]
  exact isValid_candidate h n

end Identifier

/-! ## Identifiers one after the other -/

namespace Namer

/-- **A name that asks for an identifier**, with the way its letters are converted and the text that
stands for it if nothing usable is left. -/
structure Request where
  /-- How the letters are converted. -/
  convert : List Char → List Char
  /-- The name. -/
  raw : String
  /-- What stands for a name without usable characters. -/
  fallback : String

/-- The identifier that is asked for. -/
def Request.base (r : Request) : String := Identifier.base r.convert r.raw r.fallback

/-- **The identifiers for names** that ask for them one after the other. -/
def answers (n : Namer) : List Request → List String
  | [] => []
  | r :: requests =>
    (n.name r.convert r.raw r.fallback).1 :: (n.name r.convert r.raw r.fallback).2.answers requests

variable {n : Namer} {requests : List Request}

theorem length_answers (n : Namer) (requests : List Request) :
    (n.answers requests).length = requests.length := by
  induction requests generalizing n with
  | nil => rfl
  | cons r requests ih => exact congrArg (· + 1) (ih _)

/-- Identifiers that are handed out are different, and they were not in use before. -/
theorem nodup_answers (n : Namer) (requests : List Request) :
    (n.answers requests).Nodup ∧ ∀ ident ∈ n.answers requests, ident ∉ n.used := by
  induction requests generalizing n with
  | nil => exact ⟨List.nodup_nil, fun _ h => nomatch h⟩
  | cons r requests ih =>
    obtain ⟨hnodup, hnew⟩ := ih (n.name r.convert r.raw r.fallback).2
    have hfirst := Identifier.fresh_not_mem n.used r.base
    constructor
    · -- the later ones differ from all that is in use then, the first one among it
      refine List.nodup_cons.mpr ⟨fun hmem => ?_, hnodup⟩
      exact hnew _ hmem List.mem_cons_self
    · intro ident hident
      rcases List.mem_cons.mp hident with rfl | hident
      · exact hfirst
      · exact fun hused => hnew ident hident (List.mem_cons_of_mem _ hused)

/-- Identifiers that are handed out are valid. -/
theorem isValid_answers (h : ∀ r ∈ requests, r.fallback ∈ Identifier.fallbacks) :
    ∀ ident ∈ n.answers requests, Identifier.IsValid ident := by
  induction requests generalizing n with
  | nil => exact fun _ h => nomatch h
  | cons r requests ih =>
    intro ident hident
    rcases List.mem_cons.mp hident with rfl | hident
    · have hword := Identifier.isWord_of_mem_fallbacks (h r List.mem_cons_self)
      exact Identifier.isValid_fresh (Identifier.isValid_base hword) n.used
    · exact ih (fun r' hr' => h r' (List.mem_cons_of_mem r hr')) ident hident

/-- **Each request is answered by the first candidate that is not in use**, after at most as many
tries as there are identifiers in use by then. -/
theorem exists_answer (n : Namer) {before after : List Request} {r : Request}
    (h : requests = before ++ r :: after) : ∃ k ≤ before.length + n.used.length,
      (n.answers requests)[before.length]? = some (Identifier.candidate r.base k) ∧
      ∀ j < k, Identifier.candidate r.base j ∈ n.used ∨
        Identifier.candidate r.base j ∈ (n.answers requests).take before.length := by
  subst h
  induction before generalizing n with
  | nil =>
    obtain ⟨k, hk, hfresh, -, hbefore⟩ := Identifier.exists_fresh n.used r.base
    exact ⟨k, by simpa using hk, congrArg some hfresh, fun j hj => .inl (hbefore j hj)⟩
  | cons r' before ih =>
    obtain ⟨k, hk, hanswer, hbefore⟩ := ih (n.name r'.convert r'.raw r'.fallback).2
    refine ⟨k, ?_, hanswer, fun j hj => ?_⟩
    · simp only [name, List.length_cons] at hk ⊢
      omega
    · rcases hbefore j hj with hused | hlater
      · rcases List.mem_cons.mp hused with hfirst | hused
        · exact .inr (hfirst ▸ List.mem_cons_self)
        · exact .inl hused
      · exact .inr (List.mem_cons_of_mem _ hlater)

/-- Names with the same conversion and the same fallback are paired with their identifiers. -/
theorem nameAll_eq_zip (n : Namer) (convert : List Char → List Char) (fallback : String)
    (raws : List String) : n.nameAll convert fallback raws =
      raws.zip (n.answers (raws.map fun raw => ⟨convert, raw, fallback⟩)) := by
  induction raws generalizing n with
  | nil => rfl
  | cons raw raws ih => exact congrArg (_ :: ·) (ih _)

section

variable (n : Namer) (convert : List Char → List Char) (fallback : String) (raws : List String)

theorem map_fst_nameAll : (n.nameAll convert fallback raws).map (·.1) = raws := by
  rw [nameAll_eq_zip]
  exact List.map_fst_zip (by simp [length_answers])

theorem map_snd_nameAll : (n.nameAll convert fallback raws).map (·.2) =
    n.answers (raws.map fun raw => ⟨convert, raw, fallback⟩) := by
  rw [nameAll_eq_zip]
  exact List.map_snd_zip (by simp [length_answers])

end

end Namer

/-! ## The identifiers of a module -/

namespace SourceNames

/-- Among pairs with different names the one with a name is found. -/
theorem latest?_eq_some {α : Type} {pairs : List (String × α)} (hnodup : (pairs.map (·.1)).Nodup)
    {name : String} {a : α} (h : (name, a) ∈ pairs) : latest? pairs name = some a := by
  obtain ⟨before, after, rfl⟩ := List.append_of_mem h
  rw [latest?, List.lookup_eq_some_iff]
  refine ⟨after.reverse, before.reverse, by simp, fun p hp => ?_⟩
  simp only [List.map_append, List.map_cons, List.nodup_append, List.nodup_cons] at hnodup
  have hafter := hnodup.2.1.1
  rw [bne_iff_ne]
  rintro rfl
  exact hafter (List.mem_map_of_mem (List.mem_reverse.mp hp))

variable {m : ParserModule} (snake pascal : List Char → List Char)

/-- A nonterminal with a routine has an identifier, which its function is named after. -/
theorem exists_routine_eq (hnodup : (m.routines.map (·.nonterminal)).Nodup) {r : Routine}
    (hr : r ∈ m.routines) : ∃ ident, (r.nonterminal, ident) ∈ routineIdentifiers m snake ∧
      (ofModule m snake pascal).routine r.nonterminal = functionName ident := by
  have hkeys : (routineIdentifiers m snake).map (·.1) = m.routines.map (·.nonterminal) :=
    Namer.map_fst_nameAll ..
  have hmem : r.nonterminal ∈ (routineIdentifiers m snake).map (·.1) := by
    rw [hkeys]
    exact List.mem_map_of_mem hr
  obtain ⟨⟨nonterminal, ident⟩, hpair, rfl : nonterminal = r.nonterminal⟩ := List.mem_map.mp hmem
  refine ⟨ident, hpair, ?_⟩
  have hlatest :
      latest? (ofModule m snake pascal).routines r.nonterminal = some (functionName ident) := by
    refine latest?_eq_some ?_ (List.mem_map.mpr ⟨_, hpair, rfl⟩)
    simpa [ofModule, Function.comp_def] using hkeys ▸ hnodup
  rw [routine, hlatest, Option.getD_some]

theorem functionName_inj {ident ident' : String} (h : functionName ident = functionName ident') :
    ident = ident' := by
  have hlist := congrArg String.toList h
  rw [functionName, functionName, String.toList_append, String.toList_append] at hlist
  exact String.toList_inj.mp (List.append_cancel_left hlist)

/-- The identifiers of nonterminals are different, and none is the one of the function that starts a
parse. -/
theorem nodup_routineIdentifiers (m : ParserModule) :
    ((routineIdentifiers m snake).map (·.2)).Nodup ∧
      ∀ ident ∈ (routineIdentifiers m snake).map (·.2), ident ≠ rootName := by
  obtain ⟨hnodup, hnew⟩ := Namer.nodup_answers ⟨[rootName]⟩
    ((m.routines.map (·.nonterminal)).map fun raw => ⟨snake, raw, "nonterminal"⟩)
  rw [routineIdentifiers, Namer.map_snd_nameAll]
  exact ⟨hnodup, fun ident hident => by simpa using hnew ident hident⟩

/-- **Functions of different nonterminals have different names**, and none has the name of the
function that starts a parse. -/
theorem routine_injOn (hnodup : (m.routines.map (·.nonterminal)).Nodup) :
    (∀ r ∈ m.routines, (ofModule m snake pascal).routine r.nonterminal ≠ functionName rootName) ∧
      ∀ r ∈ m.routines, ∀ r' ∈ m.routines, (ofModule m snake pascal).routine r.nonterminal =
        (ofModule m snake pascal).routine r'.nonterminal → r.nonterminal = r'.nonterminal := by
  obtain ⟨hdifferent, hroot⟩ := nodup_routineIdentifiers snake m
  constructor
  · intro r hr
    obtain ⟨ident, hpair, hroutine⟩ := exists_routine_eq snake pascal hnodup hr
    rw [hroutine]
    exact fun h => hroot ident (List.mem_map.mpr ⟨_, hpair, rfl⟩) (functionName_inj h)
  · intro r hr r' hr' h
    obtain ⟨ident, hpair, hroutine⟩ := exists_routine_eq snake pascal hnodup hr
    obtain ⟨ident', hpair', hroutine'⟩ := exists_routine_eq snake pascal hnodup hr'
    rw [hroutine, hroutine'] at h
    obtain rfl := functionName_inj h
    exact congrArg Prod.fst (List.inj_on_of_nodup_map hdifferent hpair hpair' rfl)

end SourceNames

/-! ## Everything together -/

/-- **Identifiers are valid and different.** Whatever identifiers are reserved and whatever names
ask one after the other, with any way of converting letters and one of the three fallbacks, each
gets the first candidate for its name that is neither reserved nor handed out before it, which is
found after at most as many tries as there are such identifiers. What it gets is not empty, has
letters, digits and underscores only, does not begin with a digit, has more than underscores, and is
no keyword.

So in a module whose routines are those of different nonterminals, different nonterminals have
functions with different names, and none has the name of the function that starts a parse. -/
theorem Namer.answers_valid_nodup (reserved : List String) (requests : List Request)
    (h : ∀ r ∈ requests, r.fallback ∈ Identifier.fallbacks) :
    let idents := (Namer.mk reserved).answers requests
    idents.length = requests.length ∧
    (∀ before r after, requests = before ++ r :: after →
      ∃ k ≤ before.length + reserved.length,
        idents[before.length]? = some (Identifier.candidate r.base k) ∧
        ∀ j < k, Identifier.candidate r.base j ∈ reserved ∨
          Identifier.candidate r.base j ∈ idents.take before.length) ∧
    (∀ ident ∈ idents, ident ≠ "" ∧ Identifier.IsValid ident ∧ ident ∉ reserved) ∧
    idents.Nodup ∧
    ∀ m : ParserModule, (m.routines.map (·.nonterminal)).Nodup →
      let function := (SourceNames.ofModule m).routine
      (∀ r ∈ m.routines, function r.nonterminal ≠ "parse_root") ∧
      ∀ r ∈ m.routines, ∀ r' ∈ m.routines,
        function r.nonterminal = function r'.nonterminal → r.nonterminal = r'.nonterminal := by
  intro idents
  obtain ⟨hnodup, hnew⟩ := nodup_answers ⟨reserved⟩ requests
  refine ⟨length_answers _ requests, fun before r after hsplit => exists_answer _ hsplit, ?_,
    hnodup, fun m hm => SourceNames.routine_injOn _ _ hm⟩
  intro ident hident
  have hvalid := isValid_answers h ident hident
  refine ⟨?_, hvalid, hnew ident hident⟩
  rintro rfl
  exact hvalid.word.ne_nil rfl

/-- A keyword, a reserved word, signs and a digit as names of fields. -/
theorem Namer.answers_valid_nodup_signs :
    let requests : List Request := ["type", "attrs", "+", "*", "2"].map
      fun raw => ⟨WordCase.snake, raw, "field"⟩
    let idents := (Namer.mk ["attrs"]).answers requests
    (∀ r ∈ requests, r.fallback ∈ Identifier.fallbacks) ∧
      idents = ["type_", "attrs_1", "field", "field_1", "field2"] ∧
      (∀ ident ∈ idents, Identifier.IsValid ident ∧ ident ∉ ["attrs"]) ∧ idents.Nodup := by
  intro requests idents
  have hfallbacks : ∀ r ∈ requests, r.fallback ∈ Identifier.fallbacks := by decide +kernel
  obtain ⟨-, -, hvalid, hnodup, -⟩ := answers_valid_nodup ["attrs"] requests hfallbacks
  have hidents : idents = ["type_", "attrs_1", "field", "field_1", "field2"] := by decide +kernel
  exact ⟨hfallbacks, hidents, fun ident hident => (hvalid ident hident).2, hnodup⟩

end PredictiveParsing
