import PredictiveParsing.Unicode.ClusterTable
import PredictiveParsing.Unicode.LetterCase

/-!
# Word case

A name is cut into words, and the words are joined in another style. Words end at separators,
where lowercase letters, uppercase letters and digits meet, and before the last of several
uppercase letters that a lowercase letter follows. What counts as a letter here is what a reader
sees as one: a character with everything that attaches to it.

## Main definitions

* `clusters`: the perceived characters of a text
* `words`: the words of a name
* `snake`, `pascal`: the two styles
-/

namespace PredictiveParsing.WordCase

open Unicode

/-- A character with the characters that attach to it. -/
abbrev Cluster := List Char

/-- Whether two neighbouring characters belong to one cluster. -/
def joins (c d : Char) : Bool :=
  !separateTable.contains c.toNat && !separateTable.contains d.toNat &&
    (attachingTable.contains d.toNat || prependedTable.contains c.toNat)

/-- The clusters of a text. -/
def clusters : List Char → List Cluster
  | [] => []
  | [c] => [[c]]
  | c :: d :: rest =>
    match clusters (d :: rest) with
    | [] => [[c]]
    | cluster :: others =>
      if joins c d then (c :: cluster) :: others else [c] :: cluster :: others

/-- Whether a cluster separates words. -/
def isSeparator (c : Cluster) : Bool := c == ['_'] || c == ['-'] || c == [' ']

/-- Whether a cluster is an ASCII digit. -/
def isDigit (c : Cluster) : Bool := c.all Char.isDigit

/-- Whether a cluster has two cases and is in upper case. -/
def isUpper (c : Cluster) : Bool := toUpper c != toLower c && c == toUpper c

/-- Whether a cluster has two cases and is in lower case. -/
def isLower (c : Cluster) : Bool := toUpper c != toLower c && c == toLower c

/-- Whether a word ends between two neighbouring clusters. -/
def changes (c d : Cluster) : Bool :=
  (isLower c && isUpper d) || (isUpper c && isDigit d) || (isDigit c && isUpper d) ||
    (isDigit c && isLower d) || (isLower c && isDigit d)

/-- Whether a word begins at a cluster, given its two neighbours. -/
def begins (before : Option Cluster) (c : Cluster) (behind : Option Cluster) : Bool :=
  match before with
  | none => false
  | some b =>
    changes b c ||
      match behind with
      | none => false
      | some d => isUpper b && isUpper c && isLower d

/-- The words of a text, given the cluster before it and the word that has been begun. -/
def wordsFrom (before : Option Cluster) (word : List Char) : List Cluster → List (List Char)
  | [] => [word]
  | c :: rest =>
    -- a separator counts as the neighbour of what follows, so it is not skipped beforehand
    if isSeparator c then word :: wordsFrom (some c) [] rest
    else if begins before c rest.head? then word :: wordsFrom (some c) c rest
    else wordsFrom (some c) (word ++ c) rest

/-- **The words of a name.** Separators side by side have no word between them. -/
def words (name : List Char) : List (List Char) :=
  (wordsFrom none [] (clusters name)).filter (!·.isEmpty)

/-- A word with its first character in upper case and the others in lower case. -/
def capitalize : List Char → List Char
  | [] => []
  | c :: rest => upperForm c ++ toLower rest

/-- **A name in lower case, with underscores between its words.** -/
def snake (name : List Char) : List Char := ['_'].intercalate ((words name).map toLower)

/-- **A name whose words are capitalized and stand side by side.** -/
def pascal (name : List Char) : List Char := (words name).flatMap capitalize

end PredictiveParsing.WordCase
