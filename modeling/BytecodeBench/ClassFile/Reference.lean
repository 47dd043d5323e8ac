import BytecodeBench.ClassFile.TypeData

/-!
References to methods and fields inside instructions. The names are kept as the class file has them,
which need not be texts.
-/

namespace BytecodeBench

/-- A class name as a term. -/
def classLiteral (name : Datum) : String := "ClassName(" ++ name.literal ++ ")"

/-- A class name with slashes for dots; only a text has parts. -/
def classSlashed : Datum → Except Fault String
  | .text s => .ok (ClassName.slashed ⟨s⟩)
  | _ => .error .noSuchPart

/-- A class name by itself; only a text shows as one. -/
def classDisplay : Datum → Except Fault String
  | .text s => .ok s
  | _ => .error .wrongNature

structure MethodRef where
  className : Datum
  name : Datum
  params : Parameters
  returns : Option JvmType

namespace MethodRef

/-- The method without its class. -/
def signature (m : MethodRef) : String :=
  m.name.display ++ ":(" ++ m.params.encode ++ ")" ++ encodeResult m.returns

def encode (m : MethodRef) : String := m.className.display ++ "." ++ m.signature

def literal (m : MethodRef) : String :=
  "AbsMethodID(classname=" ++ classLiteral m.className ++ ", extension=MethodID(name=" ++
    m.name.literal ++ ", params=" ++ m.params.literal ++ ", return_type=" ++
    resultLiteral m.returns ++ "))"

def same (a b : MethodRef) : Bool :=
  a.className.same b.className && a.name.same b.name && a.params == b.params &&
    a.returns == b.returns

/-- The order of two references: by class, name, parameters, result. -/
def relate (r : Relation) (a b : MethodRef) : Verdict :=
  r.lexicographic [
    (a.className.same b.className, a.className.relate r b.className),
    (a.name.same b.name, a.name.relate r b.name),
    (a.params == b.params, JvmType.relateAll r a.params b.params),
    (a.returns == b.returns, JvmType.relateOptional r a.returns b.returns)]

/-- The method that a datum describes. Without a class of its own it belongs to the class of its name. -/
def ofData (d : Datum) : Except Fault MethodRef := do
  let className ←
    if ← d.mentions "ref" then (← d.fetch "ref").fetch "name" else d.fetch "name"
  let name ← d.fetch "name"
  let params ← Parameters.ofData false (← d.fetch "args")
  let returns ← match ← d.fetch "returns" with
    | .null => pure none
    | type => some <$> JvmType.ofData type
  return { className, name, params, returns }

end MethodRef

structure FieldRef where
  className : Datum
  name : Datum
  type : JvmType

namespace FieldRef

def encode (f : FieldRef) : String :=
  f.className.display ++ "." ++ f.name.display ++ ":" ++ f.type.encode

def literal (f : FieldRef) : String :=
  "AbsFieldID(classname=" ++ classLiteral f.className ++ ", extension=FieldID(name=" ++
    f.name.literal ++ ", type=" ++ f.type.literal ++ "))"

def same (a b : FieldRef) : Bool :=
  a.className.same b.className && a.name.same b.name && a.type == b.type

/-- The order of two references: by class, name, type. -/
def relate (r : Relation) (a b : FieldRef) : Verdict :=
  r.lexicographic [
    (a.className.same b.className, a.className.relate r b.className),
    (a.name.same b.name, a.name.relate r b.name),
    (a.type == b.type, a.type.relate r b.type)]

def ofData (d : Datum) : Except Fault FieldRef := do
  let className ← d.fetch "class"
  let name ← d.fetch "name"
  return { className, name, type := ← JvmType.ofData (← d.fetch "type") }

end FieldRef

end BytecodeBench
