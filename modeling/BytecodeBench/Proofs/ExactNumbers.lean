import BytecodeBench.Prediction
import BytecodeBench.Proofs.TextCuts
import Mathlib.Algebra.Order.Ring.Rat
import Mathlib.Algebra.Field.Rat

/-! Wagers over exact numbers. Certainty is an infinite wager. It earns a whole point when it comes true,
so scores that are only made of such points are counted without any arithmetic. -/

namespace BytecodeBench

/-- Numbers without rounding: the rationals, an infinity at each end, and nothing where none is defined. -/
inductive Exact
  | rational (q : ℚ)
  | infinity (negative : Bool)
  | undefined
  deriving DecidableEq

namespace Exact

def neg : Exact → Exact
  | rational q => rational (-q)
  | infinity negative => infinity !negative
  | undefined => undefined

def abs : Exact → Exact
  | rational q => rational |q|
  | infinity _ => infinity false
  | undefined => undefined

def add : Exact → Exact → Exact
  | rational p, rational q => rational (p + q)
  | infinity negative, rational _ => infinity negative
  | rational _, infinity negative => infinity negative
  | infinity first, infinity second => if first = second then infinity first else undefined
  | _, _ => undefined

def mul : Exact → Exact → Exact
  | rational p, rational q => rational (p * q)
  | infinity negative, rational q => if q = 0 then undefined else infinity (negative != decide (q < 0))
  | rational q, infinity negative => if q = 0 then undefined else infinity (negative != decide (q < 0))
  | infinity first, infinity second => infinity (first != second)
  | _, _ => undefined

/-- Nothing is divided by zero. -/
def div : Exact → Exact → Exact
  | rational p, rational q => if q = 0 then undefined else rational (p / q)
  | infinity negative, rational q => if q = 0 then undefined else infinity (negative != decide (q < 0))
  | rational _, infinity _ => rational 0
  | _, _ => undefined

def less : Exact → Exact → Bool
  | rational p, rational q => decide (p < q)
  | rational _, infinity negative => !negative
  | infinity negative, rational _ => negative
  | infinity first, infinity second => first && !second
  | _, _ => false

def equal : Exact → Exact → Bool
  | rational p, rational q => p == q
  | infinity first, infinity second => first == second
  | _, _ => false

def ofWritten : Decimal.Written → Exact
  | .nan => undefined
  | .infinity negative => infinity negative
  | .finite negative mantissa exponent =>
    let magnitude : ℚ := mantissa * 10 ^ exponent
    rational (if negative then -magnitude else magnitude)

instance : Quantity Exact where
  ofInt n := rational n
  half := rational (1 / 2)
  infinity := infinity false
  neg := neg
  abs := abs
  add := add
  sub x y := add x (neg y)
  mul := mul
  div := div
  less := less
  equal := equal
  ofWritten := ofWritten

/-! Between rationals the rules are those of arithmetic. -/

@[simp] theorem quantity_ofInt (n : Int) : (Quantity.ofInt n : Exact) = rational n := rfl

@[simp] theorem quantity_half : (Quantity.half : Exact) = rational (1 / 2) := rfl

@[simp] theorem quantity_infinity : (Quantity.infinity : Exact) = infinity false := rfl

@[simp] theorem neg_rational (q : ℚ) : Quantity.neg (rational q) = rational (-q) := rfl

@[simp] theorem neg_infinity (negative : Bool) : Quantity.neg (infinity negative) = infinity !negative := rfl

@[simp] theorem abs_rational (q : ℚ) : Quantity.abs (rational q) = rational |q| := rfl

@[simp] theorem add_rational (p q : ℚ) : Quantity.add (rational p) (rational q) = rational (p + q) := rfl

@[simp] theorem sub_rational (p q : ℚ) : Quantity.sub (rational p) (rational q) = rational (p - q) :=
  congrArg rational (sub_eq_add_neg p q).symm

@[simp] theorem mul_rational (p q : ℚ) : Quantity.mul (rational p) (rational q) = rational (p * q) := rfl

@[simp] theorem div_rational (p : ℚ) {q : ℚ} (nonzero : q ≠ 0) : Quantity.div (rational p) (rational q) = rational (p / q) :=
  if_neg nonzero

@[simp] theorem less_rational (p q : ℚ) : Quantity.less (rational p) (rational q) = decide (p < q) := rfl

@[simp] theorem equal_rational (p q : ℚ) : Quantity.equal (rational p) (rational q) = (p == q) := rfl

@[simp] theorem equal_infinity (q : ℚ) (negative : Bool) : Quantity.equal (rational q) (infinity negative) = false := rfl

theorem neg_twice (x : Exact) : Quantity.neg (Quantity.neg x) = x := by
  cases x with
  | rational q => exact congrArg rational (InvolutiveNeg.neg_neg q)
  | infinity negative => exact congrArg infinity (Bool.not_not negative)
  | undefined => rfl

end Exact

namespace Prediction

open Exact

private theorem parse_percentage {N : Type} [Quantity N] {digits : String} {written : Decimal.Written}
    (read : Decimal.readWritten? digits = some written) (unmarked : '%' ∉ digits.toList) :
    parse (N := N) (digits ++ "%") =
      .ok (ofProbability (Quantity.div (Quantity.ofWritten written) (Quantity.ofInt 100))) := by
  have shape : (digits ++ "%").toList = digits.toList ++ '%' :: [] := String.toList_append
  unfold parse
  rw [if_pos (by simp [shape]), shape, Text.takeWhile_append unmarked, String.ofList_toList, readQuantity, read]
  rfl

theorem ofProbability_sure (happens : Bool) :
    ofProbability (rational (if happens then 1 else 0)) = ⟨infinity !happens⟩ := by
  have one : (ofProbability (rational 1)).wager = infinity false := by decide +kernel
  have zero : (ofProbability (rational 0)).wager = infinity true := by decide +kernel
  cases happens with
  | true => exact congrArg Prediction.mk one
  | false => exact congrArg Prediction.mk zero

theorem parse_sure (happens : Bool) :
    parse (if happens then "100%" else "0%") = .ok (⟨infinity !happens⟩ : Prediction Exact) := by
  have hundred : Decimal.readWritten? "100" = some (.finite false 100 0) := by decide +kernel
  have none : Decimal.readWritten? "0" = some (.finite false 0 0) := by decide +kernel
  rw [← ofProbability_sure happens]
  cases happens with
  | true =>
    have share : Quantity.div (Quantity.ofWritten (.finite false 100 0)) (Quantity.ofInt 100) = rational 1 := by
      decide +kernel
    exact share ▸ parse_percentage hundred (by decide)
  | false =>
    have share : Quantity.div (Quantity.ofWritten (.finite false 0 0)) (Quantity.ofInt 100) = rational 0 := by
      decide +kernel
    exact share ▸ parse_percentage none (by decide)

/-- Who is sure, and right, earns a point. -/
theorem score_sure (happens : Bool) : (⟨infinity !happens⟩ : Prediction Exact).score happens = .whole 1 := by
  cases happens <;> rfl

/-- Who is sure, and wrong, loses without a limit. -/
theorem score_mistaken (happens : Bool) :
    (⟨infinity happens⟩ : Prediction Exact).score happens = .quantity (infinity true) := by
  cases happens <;> rfl

end Prediction

theorem Amount.sum_points {N : Type} [Quantity N] {amounts : List (Amount N)} (points : ∀ a ∈ amounts, a = .whole 1) :
    Amount.sum amounts = .whole amounts.length := by
  have counted (start : Int) : amounts.foldl Amount.add (.whole start) = .whole (start + amounts.length) := by
    induction amounts generalizing start with
    | nil => simp
    | cons a amounts ih =>
      have own := points a List.mem_cons_self
      subst own
      rw [List.foldl_cons, Amount.add, ih (fun b member => points b (List.mem_cons_of_mem _ member))]
      simp only [List.length_cons, Nat.cast_add, Nat.cast_one, Amount.whole.injEq]
      omega
  rw [Amount.sum, counted 0, Int.zero_add]

end BytecodeBench
