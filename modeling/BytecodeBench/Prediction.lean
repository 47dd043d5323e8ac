import BytecodeBench.Decimal.Reading
import BytecodeBench.Decimal.Rounding
import BytecodeBench.Fault
import BytecodeBench.Text.Basic
import BytecodeBench.Text.Quoted

/-!
Predictions: a wager on something to happen. A wager and a probability say the same thing; a wager
that comes true earns less than one point, and one that does not costs what was wagered. The numbers
are left open, so that the rules can be read over floating-point numbers and over exact ones.
-/

namespace BytecodeBench

/-- Numbers to wager with. -/
class Quantity (N : Type) where
  ofInt : Int → N
  half : N
  infinity : N
  neg : N → N
  abs : N → N
  add : N → N → N
  sub : N → N → N
  mul : N → N → N
  div : N → N → N
  less : N → N → Bool
  equal : N → N → Bool
  ofWritten : Decimal.Written → N

instance : Quantity Float where
  ofInt n := if n < 0 then -(n.natAbs.toFloat) else n.natAbs.toFloat
  half := 0.5
  infinity := 1.0 / 0.0
  neg x := -x
  abs x := x.abs
  add x y := x + y
  sub x y := x - y
  mul x y := x * y
  div x y := x / y
  less x y := decide (x < y)
  equal x y := x == y
  ofWritten := Decimal.Written.toFloat

/-- A whole number, or any quantity. -/
inductive Amount (N : Type)
  | whole (n : Int)
  | quantity (x : N)

namespace Amount

variable {N : Type} [Quantity N]

def toQuantity : Amount N → N
  | whole n => Quantity.ofInt n
  | quantity x => x

/-- The sum, whole as long as both parts are. -/
def add : Amount N → Amount N → Amount N
  | whole m, whole n => whole (m + n)
  | a, b => quantity (Quantity.add a.toQuantity b.toQuantity)

def sum (amounts : List (Amount N)) : Amount N := amounts.foldl add (whole 0)

end Amount

/-- A wager: above zero that something happens, below zero that it does not. -/
structure Prediction (N : Type) where
  wager : N

namespace Prediction

variable {N : Type} [Quantity N]

open Quantity

/-- The wager that is fair at a probability. -/
def ofProbability (p : N) : Prediction N :=
  let unlikely := less p half
  let q := if unlikely then sub (ofInt 1) p else p
  let stake :=
    if equal q (ofInt 1) then infinity
    else div (div (sub (ofInt 1) (mul (ofInt 2) q)) (add (ofInt (-1)) q)) (ofInt 2)
  ⟨if unlikely then neg stake else stake⟩

/-- The probability at which the wager is fair; zero for an infinite one. -/
def toProbability (p : Prediction N) : Amount N :=
  if equal p.wager (neg infinity) || equal p.wager infinity then .whole 0
  else
    let doubled := mul (abs p.wager) (ofInt 2)
    let likely := div (add doubled (ofInt 1)) (add doubled (ofInt 2))
    .quantity (if less (ofInt 0) p.wager then likely else sub (ofInt 1) likely)

/-- What the wager earns. -/
def score (p : Prediction N) (happens : Bool) : Amount N :=
  let stake := if happens then p.wager else neg p.wager
  if less (ofInt 0) stake then
    if equal stake infinity then .whole 1
    else .quantity (sub (ofInt 1) (div (ofInt 1) (add stake (ofInt 1))))
  else .quantity stake

/-- A number in writing. -/
def readQuantity (s : String) : Except Fault N :=
  match Decimal.readWritten? s with
  | some written => .ok (ofWritten written)
  | none => .error (.unreadableNumber (Text.quoted s))

/-- A prediction in writing: a percentage up to the first percent sign, else a wager. -/
def parse (s : String) : Except Fault (Prediction N) :=
  let cs := s.toList
  if '%' ∈ cs then do
    let percentage ← readQuantity (String.ofList (cs.takeWhile (· ≠ '%')))
    return ofProbability (div percentage (ofInt 100))
  else Prediction.mk <$> readQuantity s

/-- The prediction as a probability in percent. -/
def display (p : Prediction Float) : String := Decimal.percent 2 p.toProbability.toQuantity

end Prediction

end BytecodeBench
