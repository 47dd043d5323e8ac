/-!
Double-precision numbers taken apart: sign, class, and for a finite number the exact value
`significand * 2 ^ exponent` with the step down to its lower neighbour.
-/

namespace BytecodeBench.Decimal

/-- A double-precision number by its exact value. -/
inductive Binary64
  | nan
  | infinity (negative : Bool)
  /-- `narrow`: the gap below the number is half of the gap above it. -/
  | finite (negative : Bool) (significand : Nat) (exponent : Int) (narrow : Bool)
  deriving DecidableEq, Repr

namespace Binary64

/-- The number that the 64 bits stand for. -/
def ofBits (bits : Nat) : Binary64 :=
  let negative := bits / Nat.pow 2 63 % 2 == 1
  let biased : Nat := bits / Nat.pow 2 52 % Nat.pow 2 11
  let fraction := bits % Nat.pow 2 52
  if biased = 2047 then
    if fraction = 0 then .infinity negative else .nan
  else if biased = 0 then
    .finite negative fraction (-1074) false
  else
    .finite negative (fraction + Nat.pow 2 52) ((biased : Int) - 1075) (fraction == 0 && biased != 1)

/-- The exact value of a floating-point number. -/
def ofFloat (x : Float) : Binary64 := ofBits x.toBits.toNat

end Binary64

/-- A non-negative fraction. -/
structure Ratio where
  num : Nat
  den : Nat

/-- `scale * 2 ^ exponent` as a fraction. -/
def Ratio.ofScaled (scale : Nat) (exponent : Int) : Ratio :=
  if 0 ≤ exponent then ⟨scale * Nat.pow 2 exponent.toNat, 1⟩ else ⟨scale, Nat.pow 2 (-exponent).toNat⟩

/-- The fraction divided by a power of ten. -/
def Ratio.shift (r : Ratio) (places : Int) : Ratio :=
  if 0 ≤ places then ⟨r.num, r.den * Nat.pow 10 places.toNat⟩ else ⟨r.num * Nat.pow 10 (-places).toNat, r.den⟩

end BytecodeBench.Decimal
