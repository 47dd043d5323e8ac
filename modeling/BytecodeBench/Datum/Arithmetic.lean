import BytecodeBench.Datum.Access

/-!
Arithmetic on data. Integers are unbounded; texts and tuples can be joined and repeated; nothing else
takes part.
-/

namespace BytecodeBench.Datum

def toFloat? : Datum → Option Float
  | real x => some x
  | other => other.integer?.map fun n => if n < 0 then -(n.natAbs.toFloat) else n.natAbs.toFloat

/-- Whether a number is an integer beyond all floating-point numbers. -/
def isBeyondFloats (d : Datum) : Bool :=
  d.integer?.isSome && (d.toFloat?.map Float.isInf).getD false

/-- Applies an operation to two integers, else one to two numbers. -/
def onNumbers (ints : Int → Int → Int) (reals : Float → Float → Float) (a b : Datum) :
    Except Fault Datum :=
  match a.integer?, b.integer? with
  | some x, some y => .ok (int (ints x y))
  | _, _ =>
    match a.toFloat?, b.toFloat? with
    | some x, some y =>
      if a.isBeyondFloats || b.isBeyondFloats then .error .tooLarge else .ok (real (reals x y))
    | _, _ => .error .wrongNature

def add : Datum → Datum → Except Fault Datum
  | text a, text b => .ok (text (a ++ b))
  | tuple a, tuple b => .ok (tuple (a ++ b))
  | a, b => onNumbers (· + ·) (· + ·) a b

def sub : Datum → Datum → Except Fault Datum := onNumbers (· - ·) (· - ·)

/-- A text or tuple so many times in a row; none for a negative count. -/
def repeated (d : Datum) (count : Int) : Option Datum :=
  match d with
  | text s => some (text (Text.repeated count.toNat s))
  | tuple items => some (tuple (List.replicate count.toNat items).flatten)
  | _ => none

def mul (a b : Datum) : Except Fault Datum :=
  match b.integer?.bind (repeated a), a.integer?.bind (repeated b) with
  | some d, _ => .ok d
  | none, some d => .ok d
  | none, none => onNumbers (· * ·) (· * ·) a b

/-- What an exact division toward zero leaves of `x`; it has the sign of `x`. -/
def remainder (x y : Float) : Float :=
  match Decimal.Binary64.ofFloat x, Decimal.Binary64.ofFloat y with
  | .finite negative m e _, .finite _ n f _ =>
    let low := min e f
    let rest := m * Nat.pow 2 (e - low).toNat % (n * Nat.pow 2 (f - low).toNat)
    let magnitude := rest.toFloat.scaleB low
    if negative then -magnitude else magnitude
  | .finite .., .infinity _ => x
  | _, _ => 0.0 / 0.0

def signedZero (x : Float) : Float := if x.toBits.toNat / Nat.pow 2 63 = 1 then -0.0 else 0.0

/--
The quotient rounded down. It is taken of what the remainder leaves, so that it is whole but for the
error of one division, and goes to the whole number next to it.
-/
def floorQuotient (x y : Float) : Float :=
  let rest := remainder x y
  let whole := (x - rest) / y
  let quotient := if rest != 0.0 && (y < 0.0) != (rest < 0.0) then whole - 1.0 else whole
  if quotient == 0.0 then signedZero (x / y)
  else
    let below := quotient.floor
    if 0.5 < quotient - below then below + 1.0 else below

/-- The quotient rounded down, for a divisor that is not zero. -/
def quotient : Datum → Datum → Except Fault Datum := onNumbers Int.fdiv floorQuotient

/-- Whether a place lies in a sequence. The size matters only if the place is not negative. -/
def isWithin (size : Except Fault Nat) (d : Datum) : Except Fault Bool := do
  if ← d.relate .lt (int 0) then return false
  return !(← d.relate .ge (int (← size)))

/-- A place that is not negative, as a number of items before it. -/
def toPlace (d : Datum) : Except Fault Nat :=
  match d.integer? with
  | some i => .ok i.toNat
  | none => .error .wrongNature

/-- The number of a character, for a text that is one. -/
def charCode : Datum → Except Fault Int
  | text s =>
    match s.toList with
    | [c] => .ok c.toNat
    | _ => .error .wrongNature
  | _ => .error .wrongNature

end BytecodeBench.Datum
