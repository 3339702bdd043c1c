import PredictiveParsing.Pattern.Basic

/-!
# Reading patterns

The written form of patterns: characters stand for themselves, `.` for any character but a line
feed, `[...]` for sets of characters, `\d \w \s` and their capitals for named sets, `^ $ \A \z
\b \B` for conditions, `(...)` for groups, `|` between branches, and `* + ? {m} {m,} {m,n}`, each
with a lazy form, for repetitions. The flags `i`, `s`, `m`, `x` and `U` ignore letter case, let
`.` read line feeds, let `^` and `$` work at lines, let blanks and comments stand in the pattern,
and exchange greedy and lazy; they hold to the end of the group that sets them.

Reading either consumes the whole text or fails. Every step of the reader consumes a character,
so the length of the text bounds the number of steps.

## Main definitions

* `Pattern.read?`: the pattern that a text denotes
-/

namespace PredictiveParsing.Pattern

/-- The flags that change how what follows is read. -/
structure Flags where
  /-- Letter case is ignored. -/
  ignoreCase : Bool := false
  /-- `.` reads a line feed, too. -/
  dotAll : Bool := false
  /-- `^` and `$` hold at the ends of lines. -/
  multiLine : Bool := false
  /-- Blanks and comments may stand between the parts of a pattern. -/
  spaced : Bool := false
  /-- A repetition is lazy unless marked greedy. -/
  lazyFirst : Bool := false
deriving DecidableEq

namespace Flags

/-- Sets or clears the flag that a letter names. -/
def set? (flags : Flags) (letter : Char) (value : Bool) : Option Flags :=
  match letter with
  | 'i' => some { flags with ignoreCase := value }
  | 's' => some { flags with dotAll := value }
  | 'm' => some { flags with multiLine := value }
  | 'x' => some { flags with spaced := value }
  | 'U' => some { flags with lazyFirst := value }
  | _ => none

end Flags

/-- A set as it is read under some flags. -/
def withCase (flags : Flags) (s : CharSet) : CharSet :=
  if flags.ignoreCase then .anyCase s else s

/-- A comment, from the character after its mark, is skipped with the line feed that ends it. -/
def dropComment : List Char → List Char
  | [] => []
  | c :: rest => if c == '\n' then rest else dropComment rest

theorem length_dropComment (l : List Char) : (dropComment l).length ≤ l.length := by
  induction l with
  | nil => simp [dropComment]
  | cons c l ih =>
    unfold dropComment
    split
    · simp
    · simp only [List.length_cons]; omega

/-- Skips blanks and comments. -/
def dropBlank : List Char → List Char
  | [] => []
  | c :: rest =>
    if Unicode.isBlank c then dropBlank rest
    else if c == '#' then dropBlank (dropComment rest)
    else c :: rest
termination_by l => l.length
decreasing_by
  · simp
  · have := length_dropComment rest
    simp only [List.length_cons]
    omega

/-- Skips blanks and comments where the flags let them stand. -/
def skip (flags : Flags) (l : List Char) : List Char := if flags.spaced then dropBlank l else l

/-- What a backslash and the characters after it stand for. -/
inductive Escape where
  /-- One character. -/
  | char (c : Char)
  /-- A set of characters. -/
  | chars (s : CharSet)
  /-- A condition. -/
  | assertion (a : Assertion)

/-- The value of a hexadecimal digit. -/
def hexValue? (c : Char) : Option Nat :=
  if '0' ≤ c && c ≤ '9' then some (c.toNat - '0'.toNat)
  else if 'a' ≤ c && c ≤ 'f' then some (c.toNat - 'a'.toNat + 10)
  else if 'A' ≤ c && c ≤ 'F' then some (c.toNat - 'A'.toNat + 10)
  else none

/-- The character with a number, if the number is one of a character. -/
def charOf? (n : Nat) : Option Char := if n.isValidChar then some (Char.ofNat n) else none

/-- Reads a fixed number of hexadecimal digits. -/
def readDigits (flags : Flags) : (count value : Nat) → List Char → Option (Nat × List Char)
  | 0, value, l => some (value, l)
  | _ + 1, _, [] => none
  | count + 1, value, c :: rest => do
    let d ← hexValue? c
    readDigits flags count (16 * value + d) (skip flags rest)

/-- Reads hexadecimal digits up to a closing brace; `read` tells whether there was one before. -/
def readBraced (flags : Flags) : (fuel : Nat) → (value : Nat) → (read : Bool) → List Char →
    Option (Nat × List Char)
  | 0, _, _, _ => none
  | fuel + 1, value, read, l =>
    match skip flags l with
    | [] => none
    | '}' :: rest => if read then some (value, rest) else none
    | c :: rest => do
      let d ← hexValue? c
      readBraced flags fuel (16 * value + d) true rest

/-- Reads the number of a character: a fixed number of hexadecimal digits, or any in braces. -/
def readCode (flags : Flags) (count : Nat) (l : List Char) : Option (Char × List Char) := do
  let (value, rest) ← match skip flags l with
    | '{' :: rest => readBraced flags (rest.length + 1) 0 false rest
    | l => readDigits flags count 0 l
  let c ← charOf? value
  return (c, rest)

/-- The word conditions that a name in braces selects. -/
def namedBoundary? (name : List Char) : Option Assertion :=
  if name == "start".toList then some .wordStart
  else if name == "end".toList then some .wordEnd
  else if name == "start-half".toList then some .noWordBefore
  else if name == "end-half".toList then some .noWordAfter
  else none

/-- Whether a character can stand in the name of a word condition. -/
def isBoundaryLetter (c : Char) : Bool := c.isAlpha || c == '-'

/-- Reads what follows `\b`: a name in braces selects a kind of word condition, and braces
around anything else are left for a count. -/
def readBoundary (flags : Flags) (l : List Char) : Option (Assertion × List Char) :=
  match l with
  | '{' :: rest =>
    let inner := skip flags rest
    let name := inner.takeWhile isBoundaryLetter
    let after := inner.dropWhile isBoundaryLetter
    match inner with
    | [] => none
    | c :: _ =>
      if !isBoundaryLetter c then some (.wordBoundary, l)
      else
        match after with
        | '}' :: rest => (namedBoundary? name).map (·, rest)
        | _ => none
  | _ => some (.wordBoundary, l)

/-- Reads what follows a backslash. -/
def readEscape (flags : Flags) : List Char → Option (Escape × List Char)
  | [] => none
  | c :: rest =>
    match c with
    | 'd' => some (.chars .digit, rest)
    | 's' => some (.chars .blank, rest)
    | 'w' => some (.chars .word, rest)
    | 'D' => some (.chars (.complement .digit), rest)
    | 'S' => some (.chars (.complement .blank), rest)
    | 'W' => some (.chars (.complement .word), rest)
    | 'x' => (readCode flags 2 rest).map fun (c, rest) => (.char c, rest)
    | 'u' => (readCode flags 4 rest).map fun (c, rest) => (.char c, rest)
    | 'U' => (readCode flags 8 rest).map fun (c, rest) => (.char c, rest)
    | 'a' => some (.char '\x07', rest)
    | 'f' => some (.char '\x0c', rest)
    | 't' => some (.char '\t', rest)
    | 'n' => some (.char '\n', rest)
    | 'r' => some (.char '\r', rest)
    | 'v' => some (.char '\x0b', rest)
    | 'A' => some (.assertion .textStart, rest)
    | 'z' => some (.assertion .textEnd, rest)
    | 'b' => (readBoundary flags rest).map fun (a, rest) => (.assertion a, rest)
    | 'B' => some (.assertion .noWordBoundary, rest)
    | '<' => some (.assertion .wordStart, rest)
    | '>' => some (.assertion .wordEnd, rest)
    | c => if c.toNat < 128 && !c.isAlphanum then some (.char c, rest) else none

/-- The sets that names between `[:` and `:]` select. -/
def namedSet? (name : List Char) : Option CharSet :=
  let digits := CharSet.range '0' '9'
  let upper := CharSet.range 'A' 'Z'
  let lower := CharSet.range 'a' 'z'
  let table : List (String × CharSet) :=
    [("alnum", .unions [digits, upper, lower]),
     ("alpha", .union upper lower),
     ("ascii", .range '\x00' '\x7f'),
     ("blank", .union (.single '\t') (.single ' ')),
     ("cntrl", .union (.range '\x00' '\x1f') (.single '\x7f')),
     ("digit", digits),
     ("graph", .range '!' '~'),
     ("lower", lower),
     ("print", .range ' ' '~'),
     ("punct", .unions [.range '!' '/', .range ':' '@', .range '[' '\x60', .range '{' '~']),
     ("space", .union (.range '\t' '\r') (.single ' ')),
     ("upper", upper),
     ("word", .unions [digits, upper, lower, .single '_']),
     ("xdigit", .unions [digits, .range 'A' 'F', .range 'a' 'f'])]
  (table.find? (·.1.toList == name)).map (·.2)

/-- Reads a named set, from the character after its opening bracket. -/
def readNamedSet (l : List Char) : Option (CharSet × List Char) :=
  match l with
  | ':' :: rest =>
    let (negated, rest) := match rest with
      | '^' :: rest => (true, rest)
      | rest => (false, rest)
    match rest.dropWhile (· != ':') with
    | ':' :: ']' :: after =>
      (namedSet? (rest.takeWhile (· != ':'))).map fun s =>
        (if negated then .complement s else s, after)
    | _ => none
  | _ => none

/-- How two operands between brackets are combined. -/
inductive SetOp where
  /-- `&&`. -/
  | inter
  /-- `--`. -/
  | diff
  /-- `~~`. -/
  | symDiff
deriving DecidableEq

/-- The set that an operation yields. -/
def SetOp.apply : SetOp → CharSet → CharSet → CharSet
  | inter, s, t => .inter s t
  | diff, s, t => .diff s t
  | symDiff, s, t => .union (.diff s t) (.diff t s)

/-- One item of a bracketed set. -/
inductive SetItem where
  /-- One character, which may be the end of a range. -/
  | char (c : Char)
  /-- A named set. -/
  | chars (s : CharSet)

/-- The characters of an item. -/
def SetItem.toSet : SetItem → CharSet
  | char c => .single c
  | chars s => s

/-- Reads one item of a bracketed set. -/
def readSetItem (flags : Flags) : List Char → Option (SetItem × List Char)
  | [] => none
  | '\\' :: rest =>
    match readEscape flags rest with
    | some (.char c, rest) => some (.char c, rest)
    | some (.chars s, rest) => some (.chars s, rest)
    | _ => none
  | c :: rest => some (.char c, rest)

/-- Reads an item of a bracketed set or a range of characters. A minus sign before the closing
bracket or before another minus sign does not make a range. -/
def readSetRange (flags : Flags) (l : List Char) : Option (CharSet × List Char) := do
  let (first, rest) ← readSetItem flags l
  match skip flags rest with
  | [] => none
  | '-' :: after =>
    match skip flags after with
    | [] => none
    | ']' :: _ => some (first.toSet, '-' :: after)
    | '-' :: _ => some (first.toSet, '-' :: after)
    | next => do
      let (second, rest) ← readSetItem flags next
      match first, second with
      | .char low, .char high => if low ≤ high then some (.range low high, rest) else none
      | _, _ => none
  | rest => some (first.toSet, rest)

/-- Skips minus signs at the start of a bracketed set; tells whether there was one. -/
def dropMinus (flags : Flags) : List Char → Bool × List Char
  | [] => (false, [])
  | c :: rest =>
    if c == '-' then (true, (dropMinus flags rest).2)
    else if flags.spaced && Unicode.isBlank c then dropMinus flags rest
    else (false, c :: rest)

/-- Reads the start of a bracketed set, from the character after the opening bracket: whether the
set is negated, and the minus signs and the closing bracket that stand for themselves there. -/
def readSetStart (flags : Flags) (l : List Char) : Option (Bool × CharSet × List Char) :=
  let (negated, l) := match skip flags l with
    | '^' :: rest => (true, skip flags rest)
    | l => (false, l)
  let (minus, l) := dropMinus flags l
  match l with
  | [] => none
  | ']' :: rest =>
    if minus then some (negated, .single '-', l) else some (negated, .single ']', rest)
  | l => some (negated, if minus then .single '-' else .nothing, l)

/-- The operand at hand combined with the operands before it. -/
def combine (pending : Option (SetOp × CharSet)) (s : CharSet) : CharSet :=
  match pending with
  | none => s
  | some (op, left) => op.apply left s

/-- Reads a bracketed set up to its closing bracket. `acc` is the operand read so far, `pending`
the operation before it with its left side. -/
def readSet (flags : Flags) : (fuel : Nat) → (negated : Bool) →
    (pending : Option (SetOp × CharSet)) → (acc : CharSet) → List Char →
    Option (CharSet × List Char)
  | 0, _, _, _, _ => none
  | fuel + 1, negated, pending, acc, l =>
    match skip flags l with
    | [] => none
    | ']' :: rest =>
      let s := combine pending acc
      some (if negated then .complement s else s, rest)
    | '[' :: rest =>
      match readNamedSet rest with
      | some (s, rest) => readSet flags fuel negated pending (.union acc (withCase flags s)) rest
      | none => do
        let (negated', acc', rest) ← readSetStart flags rest
        let (s, rest) ← readSet flags fuel negated' none acc' rest
        readSet flags fuel negated pending (.union acc s) rest
    | '&' :: '&' :: rest =>
      readSet flags fuel negated (some (.inter, combine pending acc)) .nothing rest
    | '-' :: '-' :: rest =>
      readSet flags fuel negated (some (.diff, combine pending acc)) .nothing rest
    | '~' :: '~' :: rest =>
      readSet flags fuel negated (some (.symDiff, combine pending acc)) .nothing rest
    | l => do
      let (s, rest) ← readSetRange flags l
      readSet flags fuel negated pending (.union acc (withCase flags s)) rest

/-- Reads decimal digits; `read` tells whether there was one before. -/
def readDecimalDigits (flags : Flags) : (fuel : Nat) → (value : Nat) → (read : Bool) → List Char →
    Option (Nat × List Char)
  | 0, _, _, _ => none
  | fuel + 1, value, read, l =>
    match l with
    | c :: rest =>
      if c.isDigit then
        readDecimalDigits flags fuel (10 * value + (c.toNat - '0'.toNat)) true (skip flags rest)
      else if read then some (value, l.dropWhile Unicode.isBlank) else none
    | [] => if read then some (value, []) else none

/-- Reads a decimal number below 2³² between optional blanks. -/
def readDecimal (flags : Flags) (l : List Char) : Option (Nat × List Char) := do
  let (value, rest) ← readDecimalDigits flags (l.length + 1) 0 false (l.dropWhile Unicode.isBlank)
  if value < UInt32.size then some (value, rest) else none

/-- Reads the bounds of a counted repetition, from the character after the opening brace. -/
def readCount (flags : Flags) (l : List Char) : Option (Nat × Option Nat × List Char) := do
  let (low, l) ← readDecimal flags (skip flags l)
  match l with
  | '}' :: rest => some (low, some low, rest)
  | ',' :: rest =>
    match skip flags rest with
    | '}' :: rest => some (low, none, rest)
    | l => do
      let (high, l) ← readDecimal flags l
      match l with
      | '}' :: rest => if low ≤ high then some (low, some high, rest) else none
      | _ => none
  | _ => none

/-- Reads flags up to the colon or parenthesis that ends them. `seen` holds the letters read so
far, the latest first; a minus sign among them clears the flags after it. -/
def readFlags (flags : Flags) (seen : List Char) : List Char → Option (Bool × Flags × List Char)
  | [] => none
  | c :: rest =>
    if c == ':' then if seen.head? == some '-' then none else some (true, flags, rest)
    else if c == ')' then
      if seen.isEmpty || seen.head? == some '-' then none else some (false, flags, rest)
    else if seen.contains c then none
    else if c == '-' then readFlags flags ('-' :: seen) rest
    else do
      let flags ← flags.set? c (!seen.contains '-')
      readFlags flags (c :: seen) rest

/-- Whether a character can stand in the name of a group, at its start or later. -/
def isNameChar (first : Bool) (c : Char) : Bool :=
  if first then c == '_' || (Unicode.isWord c && !Unicode.isDigit c)
  else Unicode.isWord c || c == '.' || c == '[' || c == ']'

/-- Reads the name of a group, from its first character to the closing bracket. -/
def readName (l : List Char) : Option (List Char × List Char) :=
  let name := l.takeWhile (· != '>')
  match name, l.dropWhile (· != '>') with
  | first :: others, '>' :: rest =>
    if isNameChar true first && others.all (isNameChar false) then some (name, rest) else none
  | _, _ => none

/-- What opens with a parenthesis. -/
inductive Opening where
  /-- A change of flags for the rest of the group at hand. -/
  | change (flags : Flags)
  /-- A group, read under flags. -/
  | group (flags : Flags)

/-- Reads what follows an opening parenthesis; `names` holds the names of groups used so far. -/
def readOpening (flags : Flags) (names : List (List Char)) (l : List Char) :
    Option (Opening × List (List Char) × List Char) :=
  let named (l : List Char) := do
    let (name, rest) ← readName l
    if names.contains name then none else some (Opening.group flags, name :: names, rest)
  match skip flags l with
  | '?' :: '=' :: _ => none
  | '?' :: '!' :: _ => none
  | '?' :: '<' :: '=' :: _ => none
  | '?' :: '<' :: '!' :: _ => none
  | '?' :: 'P' :: '<' :: rest => named rest
  | '?' :: '<' :: rest => named rest
  | '?' :: rest => do
    let (isGroup, flags, rest) ← readFlags flags [] rest
    some (if isGroup then .group flags else .change flags, names, rest)
  | l => some (.group flags, names, l)

/-- The last part read becomes a repetition; a change of flags cannot be repeated. -/
def repeatLast (low : Nat) (high : Option Nat) (greedy : Bool) :
    List (Option Pattern) → Option (List (Option Pattern))
  | some p :: parts => some (some (.repeated p low high greedy) :: parts)
  | _ => none

/-- Whether a repetition is greedy, given what follows its operator, and the text after the mark
that exchanges greedy and lazy. -/
def readGreed (flags : Flags) : List Char → Bool × List Char
  | '?' :: rest => (flags.lazyFirst, rest)
  | l => (!flags.lazyFirst, l)

/-- The parts of a branch, read in reverse order; changes of flags leave no part. -/
def branchOf (parts : List (Option Pattern)) : Pattern := seqs (parts.reverse.filterMap id)

/-- Reads branches up to the end of the text or to a closing parenthesis, which is left. `parts`
holds the parts of the branch at hand and `branches` the branches before it, the latest first. -/
def readBranches : (fuel : Nat) → Flags → (names : List (List Char)) → (branches : List Pattern) →
    (parts : List (Option Pattern)) → List Char →
    Option (Pattern × List (List Char) × List Char)
  | 0, _, _, _, _, _ => none
  | fuel + 1, flags, names, branches, parts, l =>
    let part (p : Pattern) (rest : List Char) :=
      readBranches fuel flags names branches (some p :: parts) rest
    let again (low : Nat) (high : Option Nat) (l : List Char) := do
      let (greedy, rest) := readGreed flags l
      let parts ← repeatLast low high greedy parts
      readBranches fuel flags names branches parts rest
    match skip flags l with
    | [] => some (alts (branchOf parts :: branches).reverse, names, [])
    | ')' :: rest => some (alts (branchOf parts :: branches).reverse, names, ')' :: rest)
    | '|' :: rest => readBranches fuel flags names (branchOf parts :: branches) [] rest
    | '(' :: rest => do
      match ← readOpening flags names rest with
      | (.change flags, names, rest) => readBranches fuel flags names branches (none :: parts) rest
      | (.group inner, names, rest) =>
        match ← readBranches fuel inner names [] [] rest with
        | (p, names, ')' :: rest) => readBranches fuel flags names branches (some p :: parts) rest
        | _ => none
    | '[' :: rest => do
      let (negated, acc, rest) ← readSetStart flags rest
      let (s, rest) ← readSet flags (rest.length + 1) negated none (withCase flags acc) rest
      part (.chars s) rest
    -- an operator applies to the part read last
    | '*' :: rest => again 0 none rest
    | '+' :: rest => again 1 none rest
    | '?' :: rest => again 0 (some 1) rest
    | '{' :: rest => do
      let (low, high, rest) ← readCount flags rest
      again low high (skip flags rest)
    | '\\' :: rest => do
      match ← readEscape flags rest with
      | (.char c, rest) => part (.chars (withCase flags (.single c))) rest
      | (.chars s, rest) => part (.chars s) rest
      | (.assertion a, rest) => part (.assertion a) rest
    | '.' :: rest =>
      part (.chars (.complement (if flags.dotAll then .nothing else .single '\n'))) rest
    | '^' :: rest => part (.assertion (if flags.multiLine then .lineStart else .textStart)) rest
    | '$' :: rest => part (.assertion (if flags.multiLine then .lineEnd else .textEnd)) rest
    | c :: rest => part (.chars (withCase flags (.single c))) rest

/-- **The pattern that a text denotes**, if it denotes one. -/
def read? (text : List Char) : Option Pattern :=
  match readBranches (text.length + 1) {} [] [] [] text with
  | some (p, _, []) => some p
  | _ => none

end PredictiveParsing.Pattern
