import BytecodeBench.Datum.Access
import BytecodeBench.Jvm.Value

/-!
Types and constants as decompiled class files give them: a type is a word, a record with a base type,
an array of a type, or one of the two known classes.
-/

namespace BytecodeBench

namespace JvmType

def ofWord? : String → Option JvmType
  | "integer" => some int
  | "int" => some int
  | "char" => some char
  | "short" => some short
  | "ref" => some reference
  | "boolean" => some boolean
  | "string" => some reference
  | _ => none

/-- The type of a class; only strings and plain objects are known. -/
def ofClass (name whole : Datum) : Except Fault JvmType :=
  if name.isText "java/lang/String" then .ok (object ⟨"java/lang/String"⟩)
  else if name.isText "java/lang/Object" then .ok (object ⟨"java/lang/Object"⟩)
  else .error (.unknownClassData name.display whole.literal)

/-- A datum that is neither a word nor a record of a known form. -/
def ofOther (d : Datum) : Except Fault JvmType := do
  if ← d.mentions "base" then throw .wrongNature
  if ← d.mentions "kind" then throw .wrongNature
  throw (.unknownTypeData d.literal)

mutual

/-- The type that a datum describes. -/
def ofData : Datum → Except Fault JvmType
  | .text word =>
    match ofWord? word with
    | some t => .ok t
    | none => ofOther (.text word)
  | .record fields =>
    let whole := Datum.record fields
    let types := ofFields fields
    match types.lookup "base" with
    | some base => base
    | none =>
      match fields.lookup "kind" with
      | none => .error (.unknownTypeData whole.literal)
      | some kind =>
        if kind.isText "array" then
          match types.lookup "type" with
          | some contains => contains.map array
          | none => .error (.missingKey (Text.quoted "type"))
        else if kind.isText "class" then
          match fields.lookup "name" with
          | some name => ofClass name whole
          | none => .error (.missingKey (Text.quoted "name"))
        else .error (.unknownKindData kind.display whole.literal)
  | d => ofOther d

/-- Every field read as a type. -/
def ofFields : List (String × Datum) → List (String × Except Fault JvmType)
  | [] => []
  | (name, d) :: rest => (name, ofData d) :: ofFields rest

end

end JvmType

/-- The type of one parameter, which is annotated or plain. -/
def Parameters.itemOfData (annotated : Bool) (d : Datum) : Except Fault JvmType := do
  if annotated then
    if ← d.mentions "annotations" then JvmType.ofData (← d.fetch "type")
    else throw (.unannotated d.display)
  else JvmType.ofData d

/-- The parameter types that a sequence describes. -/
def Parameters.ofData (annotated : Bool) (d : Datum) : Except Fault Parameters :=
  match d.items? with
  | some items => items.mapM (itemOfData annotated)
  | none => .error .wrongNature

/-- The constant that a datum describes; null is the null reference. -/
def Value.ofData (d : Datum) : Except Fault Value :=
  match d with
  | .null => .ok ⟨.reference, .null⟩
  | _ => do
    let type ← match JvmType.ofData (← d.fetch "type") with
      | .ok t => pure t
      | .error e =>
        throw (if e.kind = .unsupported then .unknownConstant d.literal else e)
    return ⟨type, ← d.fetch "value"⟩

end BytecodeBench
