/-!
The sieve that times a machine: it finds a prime by its number. The cells up to a limit are visited in
order, and each visited prime marks its multiples.
-/

namespace BytecodeBench.Sieve

/-- Marks every `step`-th cell from `start` on, for `count` cells. -/
def mark (step : Nat) : Nat → Nat → Array Bool → Array Bool
  | 0, _, cells => cells
  | count + 1, start, cells => mark step count (start + step) (cells.setIfInBounds start true)

/-- Marks the proper multiples of `i` up to the limit. -/
def markMultiples (limit i : Nat) (cells : Array Bool) : Array Bool :=
  mark i (limit / i - 1) (2 * i) cells

/--
Visits the cells from `i` on, `budget` of them, with the number of primes already seen, and returns the
one with which the number reaches `n`; without one the last cell visited.
-/
def visit (limit n : Nat) : Nat → Nat → Nat → Array Bool → Nat
  | 0, i, _, _ => i - 1
  | budget + 1, i, count, cells =>
    if cells[i]?.getD false then visit limit n budget (i + 1) count cells
    else if count + 1 = n then i
    else visit limit n budget (i + 1) (count + 1) (markMultiples limit i cells)

/-- The `n`-th prime, if it is not above the limit. -/
def primeUpTo (limit n : Nat) : Nat :=
  visit limit n limit 2 0 (Array.replicate (limit + 2) false)

/-- A limit that the `n`-th prime does not exceed, for `n` of at least two. -/
def limitFor (n : Nat) : Nat :=
  let x := n.toFloat
  (x * x.log + x * x.log.log).ceil.toUInt64.toNat + 2

/-- The `n`-th prime, sought up to a limit for `n`, and the first one for a number below two. -/
def nthPrimeWithin (limit : Nat → Nat) (n : Int) : Nat :=
  if n ≤ 1 then 2 else primeUpTo (limit n.toNat) n.toNat

def nthPrime (n : Int) : Nat := nthPrimeWithin limitFor n

end BytecodeBench.Sieve
