/-!
This module contains sets of characters that are given by ascending ranges of code points.
-/

namespace Facade.Text

/-- A set of code points: its ranges in ascending order, both ends included. -/
abbrev Ranges := List (Nat × Nat)

/-- Whether a code point lies in one of the ranges. The search stops at the first range beyond it. -/
def Ranges.covers : Ranges → Nat → Bool
  | [], _ => false
  | (low, high) :: rest, n =>
    if n < low then false
    else if n ≤ high then true
    else Ranges.covers rest n

def Ranges.contains (ranges : Ranges) (c : Char) : Bool :=
  ranges.covers c.toNat

end Facade.Text
