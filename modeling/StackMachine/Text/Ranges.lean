namespace StackMachine.Text

/-!
# Ranges of code points

A class of characters is kept as its code points.

* `Ranges` — code points, as ranges.
* `inRanges rs c` — whether `c` lies in one of them.
-/

/-- Closed ranges of code points in increasing order. -/
abbrev Ranges := List (Nat × Nat)

/-- Whether a character lies in one of the ranges. -/
def inRanges (rs : Ranges) (c : Char) : Bool := rs.any fun r => r.1 ≤ c.toNat && c.toNat ≤ r.2

end StackMachine.Text
