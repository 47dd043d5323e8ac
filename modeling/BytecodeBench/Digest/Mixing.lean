/-! A digest of a series of numbers in 64 bits: each number is mixed into those before it. -/

namespace BytecodeBench.Digest.Mixing

def start : UInt64 := 2870177450012600261

/-- Mixes in one more number. -/
def absorb (mixed : UInt64) (n : Nat) : UInt64 :=
  let spread := mixed + n.toUInt64 * 14029467366897019727
  ((spread <<< 31) ||| (spread >>> 33)) * 11400714785074694791

/-- The digest of a series, with its length mixed in last. The highest number is never a digest. -/
def hash (series : Array Nat) : UInt64 :=
  let mixed := series.foldl absorb start + (series.size.toUInt64 ^^^ start ^^^ 3527539)
  if mixed = 0xffffffffffffffff then 1546275796 else mixed

end BytecodeBench.Digest.Mixing
