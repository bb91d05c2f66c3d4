/-! Sets of characters given as ranges of code points, both ends included. -/
namespace ZoneGraph.Text

def inRanges (ranges : List (Nat × Nat)) (c : Char) : Bool :=
  ranges.any fun range => decide (range.1 ≤ c.toNat) && decide (c.toNat ≤ range.2)

end ZoneGraph.Text
