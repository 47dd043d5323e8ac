import BytecodeBench.Decimal.Rounding

/-!
Shortest decimals: the fewest digits that still read back as the same double-precision number, and
of those the ones nearest to it. Numbers from `10 ^ -4` up to below `10 ^ 16` are written
positionally, all others with an exponent of at least two digits.
-/

namespace BytecodeBench.Decimal

/-- Finds `e` with `10 ^ e ≤ r < 10 ^ (e + 1)`, moving at most `fuel` places from a guess. -/
def magnitude (r : Ratio) : Nat → Int → Int
  | 0, guess => guess
  | fuel + 1, guess =>
    let scaled := r.shift guess
    if scaled.num < scaled.den then magnitude r fuel (guess - 1)
    else if 10 * scaled.den ≤ scaled.num then magnitude r fuel (guess + 1)
    else guess

/-- The reals that round to a number: the ends in units of a quarter step, and whether they belong. -/
structure Basin where
  low : Ratio
  value : Ratio
  high : Ratio
  closed : Bool

/-- The basin of `significand * 2 ^ exponent`. -/
def Basin.of (significand : Nat) (exponent : Int) (narrow : Bool) : Basin :=
  { low := .ofScaled (4 * significand - (if narrow then 1 else 2)) (exponent - 2)
    value := .ofScaled (4 * significand) (exponent - 2)
    high := .ofScaled (4 * significand + 2) (exponent - 2)
    closed := significand % 2 == 0 }

/-- Whether `k` units lie in the basin, all measured on the grid of `10 ^ place`. -/
def Basin.holds (basin : Basin) (place : Int) (k : Nat) : Bool :=
  let low := basin.low.shift place
  let high := basin.high.shift place
  if basin.closed then low.num ≤ k * low.den && k * high.den ≤ high.num
  else low.num < k * low.den && k * high.den < high.num

/-- The grid point in the basin that is nearest to the number, if the grid has one. -/
def Basin.pick (basin : Basin) (place : Int) : Option Nat :=
  let value := basin.value.shift place
  let below := value.num / value.den
  let above := below + 1
  match basin.holds place below, basin.holds place above with
  | true, false => some below
  | false, true => some above
  | false, false => none
  | true, true => some (roundHalfEven value.num value.den)

/-- Tries grids of more and more digits, at most `fuel` of them. -/
def Basin.search (basin : Basin) : Nat → Int → Nat × Int
  | 0, place => (basin.value.num / basin.value.den, place)
  | fuel + 1, place =>
    match basin.pick place with
    | some k => (k, place)
    | none => basin.search fuel (place - 1)

/-- The shortest digits of a positive number and the place of the last one. -/
def shortestDigits (significand : Nat) (exponent : Int) (narrow : Bool) : Nat × Int :=
  let basin := Basin.of significand exponent narrow
  let guess : Int := ((significand.log2 : Int) + exponent) * 30103 / 100000
  basin.search 18 (magnitude basin.value 8 guess)

/-- Removes trailing zeros of a digit list. -/
def dropTrailingZeros (ds : List Char) : List Char := (ds.reverse.dropWhile (· = '0')).reverse

/-- The text of digits whose first one stands for `10 ^ lead`. -/
def layOut (ds : List Char) (lead : Int) : String :=
  if -4 ≤ lead && lead < 16 then
    if 0 ≤ lead then
      let whole := lead.toNat + 1
      let left := ds.take whole ++ List.replicate (whole - ds.length) '0'
      let right := ds.drop whole
      String.ofList (left ++ '.' :: (if right.isEmpty then ['0'] else right))
    else
      String.ofList (['0', '.'] ++ List.replicate (-lead - 1).toNat '0' ++ ds)
  else
    let mantissa := match ds with
      | [] => []
      | [d] => [d]
      | d :: rest => d :: '.' :: rest
    let sign := if lead < 0 then '-' else '+'
    String.ofList (mantissa ++ 'e' :: sign :: digits 2 lead.natAbs)

/-- The shortest text that reads back as the number. -/
def shortest (x : Float) : String :=
  match Binary64.ofFloat x with
  | .nan => "nan"
  | .infinity negative => if negative then "-inf" else "inf"
  | .finite negative significand exponent narrow =>
    let body :=
      if significand = 0 then "0.0"
      else
        let (k, place) := shortestDigits significand exponent narrow
        let ds := Nat.toDigits 10 k
        layOut (dropTrailingZeros ds) (place + ds.length - 1)
    (if negative then "-" else "") ++ body

end BytecodeBench.Decimal
