import PredictiveParsing.Unicode.WordTable
import PredictiveParsing.Unicode.HiddenTable

/-!
# Classes of characters

## Main definitions

* `isWord`, `isDigit`, `isBlank`: the classes that patterns name
* `isHidden`: the characters that a quoted text writes by their number
-/

namespace PredictiveParsing.Unicode

/-- Whether a character belongs to words: letters, marks, digits, connectors and joiners. -/
def isWord (c : Char) : Bool := wordTable.contains c.toNat

/-- Whether a character is a decimal digit of some script. -/
def isDigit (c : Char) : Bool := digitTable.contains c.toNat

/-- Whether a character is white space, line separators included. -/
def isBlank (c : Char) : Bool :=
  let n := c.toNat
  (0x9 ≤ n && n ≤ 0xd) || n == 0x20 || n == 0x85 || n == 0xa0 || n == 0x1680 ||
    (0x2000 ≤ n && n ≤ 0x200a) || n == 0x2028 || n == 0x2029 || n == 0x202f || n == 0x205f ||
    n == 0x3000

/-- Whether a character does not stand for itself in print: controls, formats, separators,
private and unassigned characters, and those that extend the character before them. -/
def isHidden (c : Char) : Bool := hiddenTable.contains c.toNat

end PredictiveParsing.Unicode
