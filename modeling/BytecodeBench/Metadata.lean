import BytecodeBench.Datum.Access
import BytecodeBench.Decimal.Reading
import BytecodeBench.Text.Blank

/-! Flat metadata: lines `key: value`, where the spelling of a value decides what it is. -/

namespace BytecodeBench.Metadata

/-- The words for nothing and for truth values. -/
def word? : String → Option Datum
  | "" | "~" | "null" | "Null" | "NULL" => some .null
  | "true" | "True" | "TRUE" | "yes" | "Yes" | "YES" | "on" | "On" | "ON" => some (.flag true)
  | "false" | "False" | "FALSE" | "no" | "No" | "NO" | "off" | "Off" | "OFF" => some (.flag false)
  | _ => none

/-- A base with digits in it, underscores left out. -/
def digitsIn (base : Nat) (cs : List Char) : Option (Nat × List Nat) := do
  let ds ← (cs.filter (· ≠ '_')).mapM fun c =>
    (Decimal.hexValue? c).filter fun d => decide (d < base) && c.toNat < 128
  if ds.isEmpty then none else some (base, ds)

/-- The base and the digits of a whole number without sign: decimal, or with a leading `0` octal, `0b`
binary, `0x` hexadecimal. -/
def whole? : List Char → Option (Nat × List Nat)
  | ['0'] => some (10, [0])
  | '0' :: 'b' :: rest => digitsIn 2 rest
  | '0' :: 'x' :: rest => digitsIn 16 rest
  | '0' :: rest => digitsIn 8 rest
  | c :: rest => if c.isDigit then digitsIn 10 (c :: rest) else none
  | [] => none

/-- The number that digits denote; decimal ones are limited. -/
def number (base : Nat) (ds : List Nat) : Except Fault Nat :=
  if base ≠ 10 then .ok (Decimal.ofDigits base ds)
  else
    match Decimal.limited? ds with
    | some n => .ok n
    | none => .error (.tooManyDigits (some ds.length))

/-- A number with a point; an exponent must have its sign. -/
def real? (s : String) : Option Float :=
  let (negative, body) := Decimal.takeSign s.toList
  let word := String.ofList body
  if word = ".inf" ∨ word = ".Inf" ∨ word = ".INF" then
    some (if negative then -1.0 / 0.0 else 1.0 / 0.0)
  else if s = ".nan" ∨ s = ".NaN" ∨ s = ".NAN" then some (0.0 / 0.0)
  else
    let (mantissa, tail) := body.span fun c => c ≠ 'e' ∧ c ≠ 'E'
    let signed : Bool := match tail with
      | [] => true
      | _ :: '+' :: _ | _ :: '-' :: _ => true
      | _ => false
    let plain : Bool := body.all fun c => c.isDigit || "._eE+-".toList.contains c
    if mantissa.contains '.' && mantissa.any Char.isDigit && signed && plain then
      Decimal.readFloat? (String.ofList (s.toList.filter (· ≠ '_')))
    else none

def scalar (s : String) : Except Fault Datum :=
  match s.toList with
  | '"' :: rest =>
    .ok (if rest.getLast? = some '"' then .text (String.ofList rest.dropLast) else .text s)
  | '\'' :: rest =>
    .ok (if rest.getLast? = some '\'' then .text (String.ofList rest.dropLast) else .text s)
  | cs =>
    let (negative, body) := Decimal.takeSign cs
    match word? s, whole? body, real? s with
    | some d, _, _ => .ok d
    | none, some (base, ds), _ => do
      let n ← number base ds
      return .int (if negative then -(n : Int) else n)
    | none, none, some x => .ok (.real x)
    | none, none, none => .ok (.text s)

/-- A line without its comment. -/
def uncommented : List Char → List Char
  | '#' :: _ => []
  | ' ' :: '#' :: _ => []
  | c :: rest => c :: uncommented rest
  | [] => []

/-- The key and the value of a line. -/
def pair? (line : String) : Except Fault (Option (String × Datum)) :=
  match Text.breakOn? [':'] (uncommented line.toList) with
  | none => .ok none
  | some (key, value) => do
    let value ← scalar (Text.strip (String.ofList value))
    return some (Text.strip (String.ofList key), value)

/-- The pairs of a text; nothing if it has none. -/
def read (s : String) : Except Fault Datum := do
  match ← (Text.lines s).filterMapM pair? with
  | [] => return .null
  | pairs => return .record pairs.reverse

end BytecodeBench.Metadata
