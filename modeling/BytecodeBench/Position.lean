/-! Positions in sequences. -/

namespace BytecodeBench.Position

/-- A position in a sequence of a given size; a negative one counts from the end. -/
def fromEitherEnd (size : Nat) (i : Int) : Option Nat :=
  let j := if i < 0 then i + size else i
  if 0 ≤ j ∧ j < size then some j.toNat else none

/-- The bound of a slice: a negative one counts from the end, and both ends clip it. -/
def clip (size : Nat) (i : Int) : Nat :=
  let j := if i < 0 then i + size else i
  min j.toNat size

/-- The items from one bound to another. -/
def slice {α : Type} (first last : Int) (items : List α) : List α :=
  let i := clip items.length first
  (items.take (clip items.length last)).drop i

end BytecodeBench.Position
