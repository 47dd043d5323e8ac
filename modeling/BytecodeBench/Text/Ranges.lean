/-! Sets of code points given by closed ranges. -/

namespace BytecodeBench.Text

/-- Closed ranges of code points, in ascending order. -/
abbrev Ranges := Array (Nat × Nat)

/-- Whether the code point lies in one of the ranges. -/
def Ranges.covers (ranges : Ranges) (codePoint : Nat) : Bool :=
  ranges.any fun (first, last) => first ≤ codePoint && codePoint ≤ last

end BytecodeBench.Text
