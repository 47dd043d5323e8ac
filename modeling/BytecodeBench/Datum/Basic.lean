import BytecodeBench.StringSign.Basic
import BytecodeBench.Decimal.Reading
import BytecodeBench.Decimal.Shortest
import BytecodeBench.Text.Quoted

/-!
Data: what values, class files and reports are made of. A datum prints in two ways: `literal`
quotes texts, `display` shows a text as it is and everything else as its literal. Both spell integers
of any size; `legible` says which data can be printed where the number of digits is limited.
-/

namespace BytecodeBench

/-- A piece of data. -/
inductive Datum
  | null
  | flag (b : Bool)
  | int (n : Int)
  | real (x : Float)
  | text (s : String)
  /-- A sequence that can be written to. -/
  | list (items : List Datum)
  /-- A sequence that cannot. -/
  | tuple (items : List Datum)
  /-- Named fields in order. -/
  | record (fields : List (String × Datum))
  | sign (s : StringSign)
  /-- The sequence kept under a number in an array store. -/
  | array (handle : Nat)
  /-- A sequence that stands inside itself. -/
  | cycle

instance : Inhabited Datum := ⟨.null⟩

namespace Datum

/-- How a truth value is written. -/
def flagText (b : Bool) : String := if b then "True" else "False"

/-- Items of a tuple in parentheses; a single item is followed by a comma. -/
def tupleText : List String → String
  | [item] => "(" ++ item ++ ",)"
  | items => "(" ++ Text.join ", " items ++ ")"

mutual

/-- The literal that denotes a datum. -/
def literal : Datum → String
  | null => "None"
  | flag b => flagText b
  | int n => toString n
  | real x => Decimal.shortest x
  | text s => Text.quoted s
  | list items => "[" ++ Text.join ", " (literals items) ++ "]"
  | tuple items => tupleText (literals items)
  | record fields => "\x7b" ++ Text.join ", " (fieldLiterals fields) ++ "\x7d"
  | sign s => s.render
  | array handle => "array " ++ toString handle
  | cycle => "[...]"

def literals : List Datum → List String
  | [] => []
  | item :: items => literal item :: literals items

def fieldLiterals : List (String × Datum) → List String
  | [] => []
  | (name, value) :: fields => (Text.quoted name ++ ": " ++ literal value) :: fieldLiterals fields

end

/-- The datum as a reader sees it: a text stands without quotes, an integer with all its digits. -/
def display : Datum → String
  | text s => s
  | other => other.literal

mutual

/-- Whether every integer in a datum has few enough digits to be written. -/
def legible : Datum → Bool
  | int n => Decimal.legible n
  | list items => allLegible items
  | tuple items => allLegible items
  | record fields => fieldsLegible fields
  | _ => true

def allLegible : List Datum → Bool
  | [] => true
  | item :: items => legible item && allLegible items

def fieldsLegible : List (String × Datum) → Bool
  | [] => true
  | (_, value) :: fields => legible value && fieldsLegible fields

end

/-- Whether a datum counts as true: all but null, false, zero and whatever is empty. -/
def truthy : Datum → Bool
  | null => false
  | flag b => b
  | int n => n != 0
  | real x => x != 0.0
  | text s => s != ""
  | list items => !items.isEmpty
  | tuple items => !items.isEmpty
  | record fields => !fields.isEmpty
  | sign _ => true
  | array _ => true
  | cycle => true

/-- An integer, a truth value counting as 0 or 1. -/
def integer? : Datum → Option Int
  | int n => some n
  | flag b => some (if b then 1 else 0)
  | _ => none

def field? (name : String) : Datum → Option Datum
  | record fields => fields.lookup name
  | _ => none

end Datum

end BytecodeBench
