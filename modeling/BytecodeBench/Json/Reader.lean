import BytecodeBench.Datum.Basic
import BytecodeBench.Decimal.Reading
import BytecodeBench.Fault

/-!
Reading JSON text. Integers stay exact and are limited in their digits, numbers with a point or an exponent become floating-point
numbers, and of two fields with one name the later value stands at the earlier place.
-/

namespace BytecodeBench.Json

/-- Drops the white space that JSON allows between tokens. -/
def dropSpace (cs : List Char) : List Char :=
  cs.dropWhile fun c => c = ' ' || c = '\t' || c = '\n' || c = '\r'

/-- The value of an ASCII hexadecimal digit. -/
def hexDigit? (c : Char) : Option Nat := if c.toNat < 0x80 then Decimal.hexValue? c else none

/-- Four hexadecimal digits. -/
def readUnit : List Char → Option (Nat × List Char)
  | a :: b :: c :: d :: rest => do
    return (((← hexDigit? a) * 16 + (← hexDigit? b)) * 256 + (← hexDigit? c) * 16 + (← hexDigit? d),
      rest)
  | _ => none

/-- The character an escape letter stands for. -/
def simpleEscape? : Char → Option Char
  | '"' => some '"'
  | '\\' => some '\\'
  | '/' => some '/'
  | 'b' => some (Char.ofNat 8)
  | 'f' => some (Char.ofNat 12)
  | 'n' => some '\n'
  | 'r' => some '\r'
  | 't' => some '\t'
  | _ => none

/-- The rest of a string after its opening quote; `acc` holds the characters read, reversed. -/
def readString : Nat → List Char → List Char → Option (String × List Char)
  | 0, _, _ => none
  | _ + 1, _, [] => none
  | _ + 1, acc, '"' :: rest => some (String.ofList acc.reverse, rest)
  | fuel + 1, acc, '\\' :: 'u' :: rest => do
    let (unit, rest) ← readUnit rest
    if 0xd800 ≤ unit && unit < 0xdc00 then
      match rest with
      | '\\' :: 'u' :: tail =>
        match readUnit tail with
        | some (low, tail) =>
          if 0xdc00 ≤ low && low < 0xe000 then
            let joined := 0x10000 + (unit - 0xd800) * 0x400 + (low - 0xdc00)
            readString fuel (Char.ofNat joined :: acc) tail
          else readString fuel (Char.ofNat 0xfffd :: acc) rest
        | none => none
      | _ => readString fuel (Char.ofNat 0xfffd :: acc) rest
    else if 0xdc00 ≤ unit && unit < 0xe000 then readString fuel (Char.ofNat 0xfffd :: acc) rest
    else readString fuel (Char.ofNat unit :: acc) rest
  | fuel + 1, acc, '\\' :: c :: rest => do readString fuel ((← simpleEscape? c) :: acc) rest
  | fuel + 1, acc, c :: rest => if c.toNat < 0x20 then none else readString fuel (c :: acc) rest

/-- Splits off a run of ASCII digits. -/
def spanDigits (cs : List Char) : List Char × List Char := cs.span Char.isDigit

/-- The decimals after the whole part, if a point and at least one digit follow. -/
def readFraction : List Char → Option (List Char × List Char)
  | '.' :: rest =>
    let (ds, rest) := spanDigits rest
    if ds.isEmpty then none else some (ds, rest)
  | _ => none

/-- The exponent, if one follows. -/
def readExponent : List Char → Option (Int × List Char)
  | c :: rest =>
    if c = 'e' || c = 'E' then
      let (negative, rest) := Decimal.takeSign rest
      let (ds, rest) := spanDigits rest
      if ds.isEmpty then none
      else
        let n : Int := Decimal.ofDigits 10 (ds.map fun d => d.toNat - '0'.toNat)
        some (if negative then -n else n, rest)
    else none
  | [] => none

def readNumber (cs : List Char) : Except Fault (Datum × List Char) :=
  let (negative, body) := match cs with
    | '-' :: rest => (true, rest)
    | rest => (false, rest)
  let (whole, rest) := match body with
    | '0' :: rest => (['0'], rest)
    | _ => spanDigits body
  if whole.isEmpty then .error .badJson
  else
    let fraction := readFraction rest
    let rest := (fraction.map Prod.snd).getD rest
    let power := readExponent rest
    let rest := (power.map Prod.snd).getD rest
    let decimals := (fraction.map Prod.fst).getD []
    let digits := (whole ++ decimals).map fun d => d.toNat - '0'.toNat
    if fraction.isNone && power.isNone then
      match Decimal.limited? digits with
      | some n => .ok (.int (if negative then -(n : Int) else n), rest)
      | none => .error (.tooManyDigits (some digits.length))
    else
      let x := Decimal.toFloat (Decimal.ofDigits 10 digits) ((power.map Prod.fst).getD 0 - decimals.length)
      .ok (.real (if negative then -x else x), rest)

def words : List (List Char × Datum) := [
  ("null".toList, .null), ("true".toList, .flag true), ("false".toList, .flag false),
  ("NaN".toList, .real (0.0 / 0.0)), ("Infinity".toList, .real (1.0 / 0.0)),
  ("-Infinity".toList, .real (-1.0 / 0.0))]

def readWord (cs : List Char) : Option (Datum × List Char) :=
  words.findSome? fun (word, value) => (Text.dropLead? word cs).map fun rest => (value, rest)

/-- Puts a field, replacing the value of an earlier one of the same name. -/
def putField (name : String) (value : Datum) : List (String × Datum) → List (String × Datum)
  | [] => [(name, value)]
  | (key, old) :: rest =>
    if key = name then (key, value) :: rest else (key, old) :: putField name value rest

/-- A string after its opening quote. -/
def readText (cs : List Char) : Except Fault (String × List Char) :=
  match readString (cs.length + 1) [] cs with
  | some found => .ok found
  | none => .error .badJson

mutual

/-- A value at the start of the text. -/
def readValue : Nat → List Char → Except Fault (Datum × List Char)
  | 0, _ => .error .badJson
  | fuel + 1, cs =>
    match cs with
    | '"' :: rest => do
      let (s, rest) ← readText rest
      return (.text s, rest)
    | '[' :: rest =>
      match dropSpace rest with
      | ']' :: rest => .ok (.list [], rest)
      | rest => readItems fuel [] rest
    | '\x7b' :: rest =>
      match dropSpace rest with
      | '\x7d' :: rest => .ok (.record [], rest)
      | rest => readFields fuel [] rest
    | _ =>
      match readWord cs with
      | some found => .ok found
      | none => readNumber cs

/-- Items up to the closing bracket; `acc` holds the earlier ones, reversed. -/
def readItems : Nat → List Datum → List Char → Except Fault (Datum × List Char)
  | 0, _, _ => .error .badJson
  | fuel + 1, acc, cs => do
    let (item, rest) ← readValue fuel cs
    match dropSpace rest with
    | ',' :: rest => readItems fuel (item :: acc) (dropSpace rest)
    | ']' :: rest => return (.list (item :: acc).reverse, rest)
    | _ => throw .badJson

/-- Fields up to the closing brace. -/
def readFields : Nat → List (String × Datum) → List Char → Except Fault (Datum × List Char)
  | 0, _, _ => .error .badJson
  | fuel + 1, acc, cs =>
    match cs with
    | '"' :: rest => do
      let (name, rest) ← readText rest
      match dropSpace rest with
      | ':' :: rest =>
        let (value, rest) ← readValue fuel (dropSpace rest)
        let acc := putField name value acc
        match dropSpace rest with
        | ',' :: rest => readFields fuel acc (dropSpace rest)
        | '\x7d' :: rest => return (.record acc, rest)
        | _ => throw .badJson
      | _ => throw .badJson
    | _ => .error .badJson

end

/-- The datum that a JSON text denotes. -/
def read (s : String) : Except Fault Datum := do
  let cs := s.toList
  let (value, rest) ← readValue (2 * cs.length + 2) (dropSpace cs)
  if (dropSpace rest).isEmpty then return value else throw .badJson

end BytecodeBench.Json
