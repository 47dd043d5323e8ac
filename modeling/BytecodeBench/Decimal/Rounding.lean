import BytecodeBench.Decimal.Binary64

/-! Rounding a fraction to an integer, and numbers written with a fixed count of decimal places. -/

namespace BytecodeBench.Decimal

/-- The integer nearest to `num / den`; a half goes to the even neighbour. -/
def roundHalfEven (num den : Nat) : Nat :=
  let quotient := num / den
  let twice := 2 * (num % den)
  if twice < den then quotient
  else if den < twice then quotient + 1
  else if quotient % 2 = 0 then quotient else quotient + 1

/-- The decimal digits of `n`, at least `width` of them. -/
def digits (width n : Nat) : List Char :=
  let shown := Nat.toDigits 10 n
  List.replicate (width - shown.length) '0' ++ shown

/-- `units / 10 ^ places` in positional notation. -/
def positional (places units : Nat) : String :=
  let all := digits (places + 1) units
  let whole := all.take (all.length - places)
  if places = 0 then String.ofList whole
  else String.ofList (whole ++ '.' :: all.drop (all.length - places))

/-- A number with exactly `places` decimals, correctly rounded from its exact value. -/
def fixed (places : Nat) (x : Float) : String :=
  match Binary64.ofFloat x with
  | .nan => "nan"
  | .infinity negative => if negative then "-inf" else "inf"
  | .finite negative significand exponent _ =>
    let exact := (Ratio.ofScaled significand exponent).shift (-(places : Int))
    (if negative then "-" else "") ++ positional places (roundHalfEven exact.num exact.den)

/-- A share as a percentage with `places` decimals. -/
def percent (places : Nat) (x : Float) : String := fixed places (x * 100.0) ++ "%"

end BytecodeBench.Decimal
