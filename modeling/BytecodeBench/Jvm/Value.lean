import BytecodeBench.Datum.Access
import BytecodeBench.Jvm.Identifier

/-! Values: a type with its content, and the texts they have in case files and traces. -/

namespace BytecodeBench

/-- A value of the virtual machine. The content need not fit the type. -/
structure Value where
  type : JvmType
  content : Datum

instance : Inhabited Value := ⟨⟨.reference, .null⟩⟩

/-- The type of string literals in case files. -/
def JvmType.stringObject : JvmType := .object ⟨"java/lang/String"⟩

namespace Value

def int (n : Int) : Value := ⟨.int, .int n⟩

def boolean (b : Bool) : Value := ⟨.boolean, .flag b⟩

def char (c : Char) : Value := ⟨.char, .text c.toString⟩

def string (s : String) : Value := ⟨.stringObject, .text s⟩

/-- An array that cannot be written to. -/
def array (contains : JvmType) (items : List Datum) : Value := ⟨.array contains, .tuple items⟩

/-- A character value of a text that must have exactly one. -/
def ofCharText (d : Datum) : Except Fault Value :=
  match d.size? with
  | none => .error .wrongNature
  | some 1 => .ok ⟨.char, d⟩
  | some _ => .error (.notOneChar d.literal)

/-- An array value of any sequence. -/
def ofItems (contains : JvmType) (d : Datum) : Except Fault Value :=
  match d.items? with
  | none => .error .wrongNature
  | some items => .ok (.array contains items)

/-- A datum between quotes. -/
def quotedBy (quote : String) (d : Datum) : Except Fault String :=
  return quote ++ (← d.shown) ++ quote

/-- The text of a value in a case file. -/
def encode (v : Value) : Except Fault String :=
  match v.type with
  | .boolean => .ok (if v.content.truthy then "true" else "false")
  | .int => v.content.shown
  | .char => quotedBy "'" v.content
  | .array contains =>
    match v.content.items? with
    | none => .error .notIterable
    | some items =>
      match contains with
      | .int => return "[I:" ++ Text.join ", " (← items.mapM Datum.shown) ++ "]"
      | .char => return "[C:" ++ Text.join ", " (← items.mapM (quotedBy "'")) ++ "]"
      | _ => .error .unencodableArray
  | type => if type = .stringObject then quotedBy "\"" v.content else .error (.unencodable type.encode)

/-- The value as it stands in a trace. -/
def math (v : Value) : String := "(" ++ v.type.math ++ " " ++ v.content.display ++ ")"

def literal (v : Value) : String :=
  "Value(type=" ++ v.type.literal ++ ", value=" ++ v.content.literal ++ ")"

/-- Equality of type and content. -/
def same (a b : Value) : Bool := a.type == b.type && a.content.same b.content

/-- The order of two values: by type, then content. -/
def relate (r : Relation) (a b : Value) : Verdict :=
  r.lexicographic [
    (a.type == b.type, a.type.relate r b.type),
    (a.content.same b.content, a.content.relate r b.content)]

end Value

end BytecodeBench
