/-!
# Code point ranges

A character class from the Unicode tables is stored as a sorted array of disjoint closed
ranges of code points. Membership is a binary search over that array: each step keeps the
half that can still hold the code point, so the search ends after about `log₂ n` steps.
-/

namespace Reckon.Text

/-- A character class given by sorted, disjoint, closed ranges `(lo, hi)` of code points. -/
structure CodeRanges where
  ranges : Array (Nat × Nat)

namespace CodeRanges

/-- Searches the ranges with indices in `[lo, hi)` for one that holds `c`. -/
def search (rs : Array (Nat × Nat)) (c lo hi : Nat) : Bool :=
  if h : lo < hi then
    let mid := (lo + hi) / 2
    let r := rs.getD mid (0, 0)
    if c < r.1 then search rs c lo mid
    else if r.2 < c then search rs c (mid + 1) hi
    else true
  else false
termination_by hi - lo

/-- Whether the code point `c` lies in one of the ranges. -/
def contains (k : CodeRanges) (c : Nat) : Bool :=
  search k.ranges c 0 k.ranges.size

/-- Whether the character `c` belongs to the class. -/
def has (k : CodeRanges) (c : Char) : Bool :=
  k.contains c.toNat

end CodeRanges

end Reckon.Text
