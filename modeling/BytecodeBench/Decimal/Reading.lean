import BytecodeBench.Text.Blank
import BytecodeBench.Text.Numeral

/-!
Reading numbers. Digits of every script count, single underscores may stand between digits, and
blanks around the number are ignored, but for the four separators of information. Integers in base ten
are limited in their digits, leading zeros included; other numbers are not.
-/

namespace BytecodeBench.Decimal

open Text

/-- The double nearest to `digits * 10 ^ exponent`. -/
def toFloat (digits : Nat) (exponent : Int) : Float :=
  let size := (Nat.toDigits 10 digits).length
  if digits = 0 then 0.0
  else if 400 < exponent + size then 1.0 / 0.0
  else if exponent + size < -400 then 0.0
  else if exponent < 0 then Float.ofScientific digits true (-exponent).toNat
  else Float.ofScientific digits false exponent.toNat

/-- Whether the character may stand around a number: a blank that does not separate information. -/
def isPadding (c : Char) : Bool := isBlank c && !(0x1c ≤ c.toNat && c.toNat ≤ 0x1f)

/-- The characters of a number without what may stand around it. -/
def unpadded (s : String) : List Char :=
  ((s.toList.dropWhile isPadding).reverse.dropWhile isPadding).reverse

/-- Digit values with single underscores between them; `none` where anything else stands. -/
def digitRun? (value? : Char → Option Nat) : List Char → Option (List Nat)
  | [] => none
  | [c] => (value? c).map ([·])
  | c :: '_' :: rest => do return (← value? c) :: (← digitRun? value? rest)
  | c :: rest => do return (← value? c) :: (← digitRun? value? rest)

/-- The number that digits in the given base denote. -/
def ofDigits (base : Nat) (ds : List Nat) : Nat := ds.foldl (fun n d => n * base + d) 0

def takeSign : List Char → Bool × List Char
  | '-' :: rest => (true, rest)
  | '+' :: rest => (false, rest)
  | rest => (false, rest)

/-- The most digits of an integer that is read or written in base ten. -/
def digitLimit : Nat := 4300

/-- Whether an integer has few enough digits to be written. -/
def legible (n : Int) : Bool := (Nat.toDigits 10 n.natAbs).length ≤ digitLimit

/-- The number that digits in base ten denote, unless they are too many. -/
def limited? (ds : List Nat) : Option Nat := if ds.length ≤ digitLimit then some (ofDigits 10 ds) else none

/-- An integer in base ten. -/
def readInt? (s : String) : Option Int := do
  let (negative, body) := takeSign (unpadded s)
  let n ← limited? (← digitRun? digitValue? body)
  return if negative then -(n : Int) else n

def hexValue? (c : Char) : Option Nat :=
  match digitValue? c with
  | some d => some d
  | none =>
    if 'a' ≤ c ∧ c ≤ 'f' then some (c.toNat - 'a'.toNat + 10)
    else if 'A' ≤ c ∧ c ≤ 'F' then some (c.toNat - 'A'.toNat + 10)
    else none

/-- Puts the ASCII digit in place of a digit of another script. -/
def asciiDigit (c : Char) : Char :=
  match digitValue? c with
  | some d => Char.ofNat ('0'.toNat + d)
  | none => c

/-- An integer in base sixteen, with or without `0x` in front. -/
def readHex? (s : String) : Option Int := do
  let (negative, body) := takeSign ((unpadded s).map asciiDigit)
  let body := match body with
    | '0' :: 'x' :: '_' :: rest => rest
    | '0' :: 'X' :: '_' :: rest => rest
    | '0' :: 'x' :: rest => rest
    | '0' :: 'X' :: rest => rest
    | rest => rest
  let n := ofDigits 16 (← digitRun? hexValue? body)
  return if negative then -(n : Int) else n

/-- An ASCII digit run of a decimal number: possibly empty, underscores only between digits. -/
def optionalRun? (cs : List Char) : Option (List Nat) :=
  if cs.isEmpty then some [] else digitRun? digitValue? cs

/-- The exponent part after the `e`. -/
def exponent? (cs : List Char) : Option Int := do
  let (negative, body) := takeSign cs
  let n := ofDigits 10 (← digitRun? digitValue? body)
  return if negative then -(n : Int) else n

/-- A number as it is written: a word, or `mantissa * 10 ^ exponent`. -/
inductive Written
  | nan
  | infinity (negative : Bool)
  | finite (negative : Bool) (mantissa : Nat) (exponent : Int)
  deriving DecidableEq, Repr

/-- The double nearest to a written number. -/
def Written.toFloat : Written → Float
  | nan => 0.0 / 0.0
  | infinity negative => if negative then -1.0 / 0.0 else 1.0 / 0.0
  | finite negative mantissa exponent =>
    let magnitude := Decimal.toFloat mantissa exponent
    if negative then -magnitude else magnitude

/-- A decimal number without sign: digits, a point among them, an exponent. -/
def unsigned? (cs : List Char) : Option (Nat × Int) := do
  let (mantissa, tail) := cs.span fun c => c ≠ 'e' ∧ c ≠ 'E'
  let e ← match tail with
    | [] => some 0
    | _ :: rest => exponent? rest
  let (whole, rest) := mantissa.span (· ≠ '.')
  let whole ← optionalRun? whole
  let fraction ← match rest with
    | [] => some []
    | _ :: rest => optionalRun? rest
  if whole.isEmpty && fraction.isEmpty then none
  else return (ofDigits 10 (whole ++ fraction), e - fraction.length)

/-- A number, the words for infinity and "not a number" included. -/
def readWritten? (s : String) : Option Written := do
  let (negative, body) := takeSign ((unpadded s).map asciiDigit)
  let word := String.ofList (body.map Char.toLower)
  if word = "inf" || word = "infinity" then return .infinity negative
  if word = "nan" then return .nan
  let (mantissa, exponent) ← unsigned? body
  return .finite negative mantissa exponent

/-- A floating-point number. -/
def readFloat? (s : String) : Option Float := (readWritten? s).map Written.toFloat

end BytecodeBench.Decimal
