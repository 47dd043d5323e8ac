import BytecodeBench.Datum.Basic

/-!
Writing JSON text in ASCII: on one line, or with every item and field on a line of its own.
-/

namespace BytecodeBench.Json

/-- The two UTF-16 units of a code point beyond the basic plane, or the one unit of any other. -/
def units16 (n : Nat) : List Nat :=
  if n < 0x10000 then [n]
  else [0xd800 + (n - 0x10000) / 0x400, 0xdc00 + (n - 0x10000) % 0x400]

/-- A character inside a JSON string. -/
def escape (c : Char) : String :=
  if c = '"' then "\\\""
  else if c = '\\' then "\\\\"
  else if c = '\n' then "\\n"
  else if c = '\r' then "\\r"
  else if c = '\t' then "\\t"
  else if c.toNat = 8 then "\\b"
  else if c.toNat = 12 then "\\f"
  else if 0x20 ≤ c.toNat && c.toNat < 0x7f then c.toString
  else String.join ((units16 c.toNat).map fun u => "\\u" ++ Text.hex 4 u)

/-- A JSON string. -/
def quote (s : String) : String := "\"" ++ String.join (s.toList.map escape) ++ "\""

/-- A JSON number, the words for infinities and NaN included. -/
def number (x : Float) : String :=
  match Decimal.Binary64.ofFloat x with
  | .nan => "NaN"
  | .infinity negative => if negative then "-Infinity" else "Infinity"
  | .finite .. => Decimal.shortest x

/-- How items are set: `none` keeps all on one line, `some n` indents by `n` per level. -/
abbrev Indent := Option Nat

/-- A bracketed sequence at nesting depth `depth`. -/
def bracket (indent : Indent) (depth : Nat) (opening closing : String) (items : List String) :
    String :=
  match items, indent with
  | [], _ => opening ++ closing
  | _, none => opening ++ Text.join ", " items ++ closing
  | _, some width =>
    let inner := "\n" ++ Text.repeated (width * (depth + 1)) " "
    opening ++ inner ++ Text.join ("," ++ inner) items ++ "\n" ++
      Text.repeated (width * depth) " " ++ closing

mutual

/-- A datum as JSON at nesting depth `depth`. -/
def render (indent : Indent) (depth : Nat) : Datum → String
  | .null => "null"
  | .flag b => if b then "true" else "false"
  | .int n => toString n
  | .real x => number x
  | .text s => quote s
  | .list items => bracket indent depth "[" "]" (renderItems indent (depth + 1) items)
  | .tuple items => bracket indent depth "[" "]" (renderItems indent (depth + 1) items)
  | .record fields => bracket indent depth "\x7b" "\x7d" (renderFields indent (depth + 1) fields)
  | .sign s => quote s.render
  | .array handle => toString handle
  | .cycle => "null"

def renderItems (indent : Indent) (depth : Nat) : List Datum → List String
  | [] => []
  | item :: items => render indent depth item :: renderItems indent depth items

def renderFields (indent : Indent) (depth : Nat) : List (String × Datum) → List String
  | [] => []
  | (name, value) :: fields =>
    (quote name ++ ": " ++ render indent depth value) :: renderFields indent depth fields

end

/-- JSON on one line. -/
def write (d : Datum) : String := render none 0 d

/-- JSON with `width` blanks of indentation per level. -/
def writeIndented (width : Nat) (d : Datum) : String := render (some width) 0 d

end BytecodeBench.Json
