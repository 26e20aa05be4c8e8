/-!
# Ranges of code points

A table of a character property is a list of ranges, both ends included.
-/

namespace SafeReports.Text

def inRanges (ranges : List (Nat × Nat)) (n : Nat) : Bool :=
  ranges.any fun r => r.1 ≤ n && n ≤ r.2

end SafeReports.Text
