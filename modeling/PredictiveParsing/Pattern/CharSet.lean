import PredictiveParsing.Unicode.Character
import PredictiveParsing.Unicode.LetterCase

/-!
# Sets of characters in patterns

A pattern reads one character at a time, and each place of it says which characters it accepts:
a single one, a range, a named class, or a combination of these.

## Main definitions

* `CharSet`: the sets that patterns can name
* `CharSet.mem`: whether a character belongs to a set
-/

namespace PredictiveParsing

/-- **The sets of characters that patterns can name.** -/
inductive CharSet where
  /-- The characters between two characters, ends included. -/
  | range (low high : Char)
  /-- The characters of words. -/
  | word
  /-- The decimal digits. -/
  | digit
  /-- White space. -/
  | blank
  /-- No character. -/
  | nothing
  /-- The characters of either set. -/
  | union (s t : CharSet)
  /-- The characters of both sets. -/
  | inter (s t : CharSet)
  /-- The characters of the first set that are not in the second. -/
  | diff (s t : CharSet)
  /-- The characters outside a set. -/
  | complement (s : CharSet)
  /-- The characters of a set and those that differ from one of them in letter case only. -/
  | anyCase (s : CharSet)
deriving DecidableEq, Inhabited

namespace CharSet

/-- One character. -/
def single (c : Char) : CharSet := range c c

/-- The characters of some set of a list. -/
def unions (l : List CharSet) : CharSet := l.foldl union nothing

/-- The characters that differ from a character in letter case only, as far as they are single
characters. -/
def otherCases (c : Char) : List Char :=
  let single : List Char → List Char
    | [d] => [d]
    | _ => []
  let upper := single (Unicode.upperForm c)
  let lower := single (Unicode.lowerForm c)
  upper ++ lower ++ upper.flatMap (fun d => single (Unicode.lowerForm d)) ++
    lower.flatMap (fun d => single (Unicode.upperForm d))

/-- **Whether a character belongs to a set.** -/
def mem : CharSet → Char → Bool
  | range low high, c => low.toNat ≤ c.toNat && c.toNat ≤ high.toNat
  | word, c => Unicode.isWord c
  | digit, c => Unicode.isDigit c
  | blank, c => Unicode.isBlank c
  | nothing, _ => false
  | union s t, c => s.mem c || t.mem c
  | inter s t, c => s.mem c && t.mem c
  | diff s t, c => s.mem c && !t.mem c
  | complement s, c => !s.mem c
  | anyCase s, c => s.mem c || (otherCases c).any s.mem

/-- A set of one character holds just that character. -/
theorem mem_single {c d : Char} : (single c).mem d = true ↔ d = c := by
  simp only [single, mem, Bool.and_eq_true, decide_eq_true_eq]
  constructor
  · rintro ⟨h, h'⟩
    exact Char.toNat_inj.mp (Nat.le_antisymm h' h)
  · rintro rfl
    exact ⟨Nat.le_refl _, Nat.le_refl _⟩

end CharSet

end PredictiveParsing
