/-!
# Tables of character ranges

A character property is given by the ranges of code points that have it, in increasing order.
Membership is decided by halving the table.

## Main definitions

* `RangeTable`: an array of ranges
* `RangeTable.contains`: whether a code point lies in one of the ranges
-/

namespace PredictiveParsing.Unicode

/-- **A character property**, as its ranges of code points in increasing order, ends included. -/
structure RangeTable where
  /-- The ranges, in increasing order. -/
  ranges : Array (Nat × Nat)

namespace RangeTable

/-- Looks for a code point among the ranges with numbers from `low` up to `high`, halving that
span at each step; `steps` bounds the number of halvings. -/
def search (ranges : Array (Nat × Nat)) (code : Nat) : (steps low high : Nat) → Bool
  | 0, _, _ => false
  | steps + 1, low, high =>
    if low < high then
      let middle := (low + high) / 2
      match ranges[middle]? with
      | none => false
      | some (first, last) =>
        if code < first then search ranges code steps low middle
        else if last < code then search ranges code steps (middle + 1) high
        else true
    else false

/-- Whether a code point lies in one of the ranges. -/
def contains (table : RangeTable) (code : Nat) : Bool :=
  search table.ranges code (table.ranges.size.log2 + 2) 0 table.ranges.size

end RangeTable

end PredictiveParsing.Unicode
