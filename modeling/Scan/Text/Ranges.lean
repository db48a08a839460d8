/-!
# Classes of characters

A class of characters as a list of ranges of code points, each with its first and its last one.
-/

namespace Scan.Text

/-- Ranges of code points. -/
abbrev Ranges := List (Nat × Nat)

/-- Whether a character lies in one of some ranges. -/
def Ranges.contains (ranges : Ranges) (c : Char) : Bool :=
  ranges.any fun range => range.1 ≤ c.toNat && c.toNat ≤ range.2

end Scan.Text
