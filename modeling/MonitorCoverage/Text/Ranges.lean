/-!
# Ranges of code points

A class of characters is a table of ranges, each given by its first and last code point.
-/

namespace MonitorCoverage.Text

def inRanges (ranges : Array (Nat × Nat)) (n : Nat) : Bool :=
  ranges.any fun (first, last) => first ≤ n && n ≤ last

end MonitorCoverage.Text
