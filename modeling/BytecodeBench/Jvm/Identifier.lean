import BytecodeBench.Jvm.Type

/-!
Identifiers of methods and fields, alone and within their class, and their texts. Only the first line
of a text counts where a class or a method signature is cut out of it.
-/

namespace BytecodeBench

/-- A method by name, parameters and result; no result type means nothing is returned. -/
structure MethodId where
  name : String
  params : Parameters
  returns : Option JvmType
  deriving DecidableEq, Repr

/-- A field by name and type. -/
structure FieldId where
  name : String
  type : JvmType
  deriving DecidableEq, Repr

structure AbsMethodId where
  className : ClassName
  method : MethodId
  deriving DecidableEq, Repr

structure AbsFieldId where
  className : ClassName
  field : FieldId
  deriving DecidableEq, Repr

def encodeResult : Option JvmType → String
  | some t => t.encode
  | none => "V"

/-- A result type as a term. -/
def resultLiteral : Option JvmType → String
  | some t => t.literal
  | none => "None"

namespace MethodId

def encode (m : MethodId) : String :=
  m.name ++ ":(" ++ m.params.encode ++ ")" ++ encodeResult m.returns

/--
The name, parameters and result of a signature: the last `)` of the line ends the parameters, and the
last `:(` before it begins them.
-/
def cut (cs : List Char) : Option (List Char × List Char × List Char) := do
  let (front, result) ← Text.breakOnLast? [')'] (Text.firstLine cs)
  let (name, params) ← Text.breakOnLast? [':', '('] front
  return (name, params, result)

/-- The result type that a descriptor stands for. -/
def decodeResult (result : List Char) : Except Fault (Option JvmType) :=
  if result = ['V'] then .ok none
  else do
    let (t, rest) ← JvmType.read result
    if rest.isEmpty then return some t
    else throw (.badReturnType (Text.quoted (String.ofList result)))

def read (cs : List Char) : Except Fault MethodId :=
  match cut cs with
  | none => .error (.invalidMethodName (Text.quoted (String.ofList cs)))
  | some (name, params, result) => do
    let returns ← decodeResult result
    return { name := String.ofList name, params := ← JvmType.readAll params, returns }

def decode (s : String) : Except Fault MethodId := read s.toList

def literal (m : MethodId) : String :=
  "MethodID(name=" ++ Text.quoted m.name ++ ", params=" ++ m.params.literal ++ ", return_type=" ++
    resultLiteral m.returns ++ ")"

/-- The order of two methods: by name, then parameters, then result. -/
def relate (r : Relation) (a b : MethodId) : Verdict :=
  r.lexicographic [
    (a.name == b.name, .ok (r.holds (compare a.name b.name))),
    (a.params == b.params, JvmType.relateAll r a.params b.params),
    (a.returns == b.returns, JvmType.relateOptional r a.returns b.returns)]

end MethodId

namespace FieldId

def encode (f : FieldId) : String := f.name ++ ":" ++ f.type.encode

def read (cs : List Char) : Except Fault FieldId :=
  match cs.dropWhile (· ≠ ':') with
  | [] => .error (.invalidFieldFormat (String.ofList cs))
  | _ :: descriptor => do
    let (type, rest) ← JvmType.read descriptor
    if rest.isEmpty then return { name := String.ofList (cs.takeWhile (· ≠ ':')), type }
    else throw (.extraFieldText (String.ofList rest))

def decode (s : String) : Except Fault FieldId := read s.toList

def literal (f : FieldId) : String :=
  "FieldID(name=" ++ Text.quoted f.name ++ ", type=" ++ f.type.literal ++ ")"

/-- The order of two fields: by name, then type. -/
def relate (r : Relation) (a b : FieldId) : Verdict :=
  r.lexicographic [
    (a.name == b.name, .ok (r.holds (compare a.name b.name))),
    (a.type == b.type, JvmType.relate r a.type b.type)]

end FieldId

/-- The class and the rest of an absolute name: the last dot of the line that has a character before it. -/
def cutAbsolute (cs : List Char) : Except Fault (ClassName × List Char) :=
  match Text.breakOnLast? ['.'] (Text.firstLine cs) with
  | some (c :: name, rest) => .ok (⟨String.ofList (c :: name)⟩, rest)
  | _ => .error (.invalidAbsoluteName (Text.quoted (String.ofList cs)))

namespace AbsMethodId

def encode (m : AbsMethodId) : String := m.className.text ++ "." ++ m.method.encode

def decode (s : String) : Except Fault AbsMethodId := do
  let (className, rest) ← cutAbsolute s.toList
  return { className, method := ← MethodId.read rest }

def literal (m : AbsMethodId) : String :=
  "AbsMethodID(classname=" ++ m.className.literal ++ ", extension=" ++ m.method.literal ++ ")"

/-- The order of two methods of classes: by class, then method. -/
def relate (r : Relation) (a b : AbsMethodId) : Verdict :=
  r.lexicographic [
    (a.className == b.className, .ok (r.holds (compare a.className.text b.className.text))),
    (a.method == b.method, a.method.relate r b.method)]

end AbsMethodId

namespace AbsFieldId

def encode (f : AbsFieldId) : String := f.className.text ++ "." ++ f.field.encode

def decode (s : String) : Except Fault AbsFieldId := do
  let (className, rest) ← cutAbsolute s.toList
  return { className, field := ← FieldId.read rest }

def literal (f : AbsFieldId) : String :=
  "AbsFieldID(classname=" ++ f.className.literal ++ ", extension=" ++ f.field.literal ++ ")"

/-- The order of two fields of classes: by class, then field. -/
def relate (r : Relation) (a b : AbsFieldId) : Verdict :=
  r.lexicographic [
    (a.className == b.className, .ok (r.holds (compare a.className.text b.className.text))),
    (a.field == b.field, a.field.relate r b.field)]

end AbsFieldId

/-- An absolute name that is neither a method nor a field is refused once it is well formed. -/
def decodeBareAbsolute (s : String) : Except Fault AbsMethodId := do
  let _ ← AbsMethodId.decode s
  throw .bareAbsolute

end BytecodeBench
