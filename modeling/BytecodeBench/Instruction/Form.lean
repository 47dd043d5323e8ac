import BytecodeBench.Instruction.Basic

/-!
The form of an instruction: its name and named fields. The form gives an instruction its term, its
order and the checks on its fields, and an instruction is made from a form that passes them.
-/

namespace BytecodeBench

inductive FieldContent
  | data (d : Datum)
  | type (t : JvmType)
  | value (v : Value)
  | operator (o : Operator)
  | method (m : MethodRef)
  | field (f : FieldRef)
  | className (name : Datum)

namespace FieldContent

def literal : FieldContent → String
  | data d => d.literal
  | type t => t.literal
  | value v => v.literal
  | operator o => o.literal
  | method m => m.literal
  | field f => f.literal
  | className name => classLiteral name

def same : FieldContent → FieldContent → Bool
  | data a, data b => a.same b
  | type a, type b => a == b
  | value a, value b => a.same b
  | operator a, operator b => a == b
  | method a, method b => a.same b
  | field a, field b => a.same b
  | className a, className b => a.same b
  | _, _ => false

/-- The order of two contents. An absent type has no order with a present one. -/
def relate (r : Relation) : FieldContent → FieldContent → Verdict
  | data a, data b => a.relate r b
  | type a, type b => a.relate r b
  | type t, data _ | data _, type t => JvmType.relateOptional r none (some t)
  | value a, value b => a.relate r b
  | method a, method b => a.relate r b
  | field a, field b => a.relate r b
  | className a, className b => a.relate r b
  | _, _ => .error .noOrder

end FieldContent

inductive FieldRule
  | int
  | bool
  | text
  | type
  | value
  | operator
  | method
  | field
  | className
  /-- Anything. -/
  | free
  /-- Nothing, or a type whose values lie on the stack. -/
  | stackType
  deriving DecidableEq, Repr

namespace FieldRule

def name : FieldRule → String
  | int => "<class 'int'>"
  | bool => "<class 'bool'>"
  | text => "<class 'str'>"
  | type => "<class 'jpamb.jvm.base.Type'>"
  | value => "<class 'jpamb.jvm.base.Value'>"
  | operator => "<class 'jpamb.jvm.opcode.BinaryOpr'>"
  | method => "<class 'jpamb.jvm.base.AbsMethodID'>"
  | field => "<class 'jpamb.jvm.base.AbsFieldID'>"
  | className => "<class 'jpamb.jvm.base.ClassName'>"
  | free => ""
  | stackType => ""

def admits : FieldRule → FieldContent → Bool
  | int, .data (.int _) => true
  | int, .data (.flag _) => true
  | bool, .data (.flag _) => true
  | text, .data (.text _) => true
  | type, .type _ => true
  | value, .value _ => true
  | operator, .operator _ => true
  | method, .method _ => true
  | field, .field _ => true
  | className, .className _ => true
  | free, _ => true
  | stackType, .type t => t.isStackType
  | stackType, .data .null => true
  | _, _ => false

end FieldRule

/-- The name of an instruction with its fields. -/
structure Form where
  name : String
  fields : List (String × FieldRule × FieldContent)

namespace Form

def literal (f : Form) : String :=
  f.name ++ "(" ++
    Text.join ", " (f.fields.map fun (name, _, content) => name ++ "=" ++ content.literal) ++ ")"

/-- The fault of a field that breaks its rule. -/
def fieldFault (f : Form) (name : String) (rule : FieldRule) (content : FieldContent) : Fault :=
  match rule, content with
  | .stackType, .type _ => .notStackType
  | .stackType, _ => .noSuchPart
  | _, _ => .illTypedField (Text.quoted name) rule.name content.literal f.literal

/-- Finds the first field that breaks its rule. -/
def check (f : Form) : Except Fault Unit :=
  f.fields.forM fun (name, rule, content) =>
    if rule.admits content then .ok () else .error (f.fieldFault name rule content)

/-- Equality of name and fields. -/
def same (a b : Form) : Bool :=
  a.name == b.name && a.fields.length == b.fields.length &&
    (a.fields.zip b.fields).all fun ((_, _, x), (_, _, y)) => x.same y

/-- The order of two forms of one name: by the first unequal field. -/
def relate (r : Relation) (a b : Form) : Verdict :=
  if a.name == b.name then
    r.lexicographic ((a.fields.zip b.fields).map fun ((_, _, x), (_, _, y)) =>
      (x.same y, x.relate r y))
  else .error .noOrder

/-- The names and rules of an instruction's fields. -/
def schema : String → Option (List (String × FieldRule))
  | "Push" => some [("offset", .int), ("value", .value)]
  | "NewArray" => some [("offset", .int), ("type", .type), ("dim", .int)]
  | "Dup" => some [("offset", .int), ("words", .int)]
  | "Pop" => some [("offset", .int)]
  | "ArrayStore" => some [("offset", .int), ("type", .type)]
  | "ArrayLoad" => some [("offset", .int), ("type", .type)]
  | "ArrayLength" => some [("offset", .int)]
  | "Cast" => some [("offset", .int), ("from_", .type), ("to_", .type)]
  | "Binary" => some [("offset", .int), ("type", .type), ("operant", .operator)]
  | "Store" => some [("offset", .int), ("type", .type), ("index", .int)]
  | "Load" => some [("offset", .int), ("type", .type), ("index", .int)]
  | "If" => some [("offset", .int), ("condition", .text), ("target", .int)]
  | "Ifz" => some [("offset", .int), ("condition", .text), ("target", .int)]
  | "Get" => some [("offset", .int), ("static", .bool), ("field", .field)]
  | "New" => some [("offset", .int), ("classname", .className)]
  | "Throw" => some [("offset", .int)]
  | "Incr" => some [("offset", .int), ("index", .int), ("amount", .int)]
  | "Goto" => some [("offset", .int), ("target", .int)]
  | "Return" => some [("offset", .free), ("type", .stackType)]
  | "InvokeVirtual" => some [("offset", .int), ("method", .method)]
  | "InvokeStatic" => some [("offset", .int), ("method", .method)]
  | "InvokeInterface" => some [("offset", .int), ("method", .method), ("stack_size", .int)]
  | "InvokeSpecial" => some [("offset", .int), ("method", .method), ("is_interface", .bool)]
  | _ => none

/-- The form of an instruction whose fields are given in order. What all instructions have in common is
itself none. -/
def make (name : String) (contents : List FieldContent) : Except Fault Form :=
  match schema name with
  | none => .error (if name = "Opcode" then .wrongNature else .noSuchPart)
  | some rules =>
    if rules.length = contents.length then
      .ok { name, fields := rules.zipWith (fun (field, rule) content => (field, rule, content)) contents }
    else .error .wrongNature

end Form

namespace Instruction

/-- The form's name and the contents of its fields. -/
def fields (i : Instruction) : String × List FieldContent :=
  let offset := FieldContent.data i.offset
  let number (n : Operand) := FieldContent.data n.datum
  match i.operation with
  | .push value => ("Push", [offset, .value value])
  | .newArray type dim => ("NewArray", [offset, .type type, number dim])
  | .dup words => ("Dup", [offset, number words])
  | .pop => ("Pop", [offset])
  | .arrayStore type => ("ArrayStore", [offset, .type type])
  | .arrayLoad type => ("ArrayLoad", [offset, .type type])
  | .arrayLength => ("ArrayLength", [offset])
  | .cast source target => ("Cast", [offset, .type source, .type target])
  | .binary type operator => ("Binary", [offset, .type type, .operator operator])
  | .store type index => ("Store", [offset, .type type, number index])
  | .load type index => ("Load", [offset, .type type, number index])
  | .compareJump condition target => ("If", [offset, .data (.text condition), number target])
  | .zeroJump condition target => ("Ifz", [offset, .data (.text condition), number target])
  | .get static field => ("Get", [offset, .data (.flag static), .field field])
  | .new className => ("New", [offset, .className className])
  | .throw => ("Throw", [offset])
  | .increment index amount => ("Incr", [offset, number index, number amount])
  | .goto target => ("Goto", [offset, number target])
  | .return none => ("Return", [offset, .data .null])
  | .return (some type) => ("Return", [offset, .type type])
  | .invokeVirtual method => ("InvokeVirtual", [offset, .method method])
  | .invokeStatic method => ("InvokeStatic", [offset, .method method])
  | .invokeInterface method stackSize => ("InvokeInterface", [offset, .method method, number stackSize])
  | .invokeSpecial method isInterface =>
    ("InvokeSpecial", [offset, .method method, .data (.flag isInterface)])

def form (i : Instruction) : Form :=
  let (name, contents) := i.fields
  { name
    fields := ((Form.schema name).getD []).zipWith
      (fun (field, rule) content => (field, rule, content)) contents }

/-- The instruction as a term. -/
def literal (i : Instruction) : String := i.form.literal

def same (a b : Instruction) : Bool := a.form.same b.form

def relate (r : Relation) (a b : Instruction) : Verdict := a.form.relate r b.form

/-- An integer field as an operand. -/
def operand? : FieldContent → Option Operand
  | .data d => Operand.ofDatum? d
  | _ => none

/-- What the checked fields after the offset make of a name. -/
def operation? (name : String) (contents : List FieldContent) : Option Operation :=
  match name, contents with
  | "Push", [.value v] => some (.push v)
  | "NewArray", [.type t, n] => (operand? n).map (.newArray t)
  | "Dup", [n] => (operand? n).map .dup
  | "Pop", [] => some .pop
  | "ArrayStore", [.type t] => some (.arrayStore t)
  | "ArrayLoad", [.type t] => some (.arrayLoad t)
  | "ArrayLength", [] => some .arrayLength
  | "Cast", [.type s, .type t] => some (.cast s t)
  | "Binary", [.type t, .operator o] => some (.binary t o)
  | "Store", [.type t, n] => (operand? n).map (.store t)
  | "Load", [.type t, n] => (operand? n).map (.load t)
  | "If", [.data (.text c), n] => (operand? n).map (.compareJump c)
  | "Ifz", [.data (.text c), n] => (operand? n).map (.zeroJump c)
  | "Get", [.data (.flag s), .field f] => some (.get s f)
  | "New", [.className c] => some (.new c)
  | "Throw", [] => some .throw
  | "Incr", [i, n] => do return .increment (← operand? i) (← operand? n)
  | "Goto", [n] => (operand? n).map .goto
  | "Return", [.type t] => some (.return (some t))
  | "Return", [.data .null] => some (.return none)
  | "InvokeVirtual", [.method m] => some (.invokeVirtual m)
  | "InvokeStatic", [.method m] => some (.invokeStatic m)
  | "InvokeInterface", [.method m, n] => (operand? n).map (.invokeInterface m)
  | "InvokeSpecial", [.method m, .data (.flag b)] => some (.invokeSpecial m b)
  | _, _ => none

/-- The instruction of a name and its field contents in order. -/
def make (name : String) (contents : List FieldContent) : Except Fault Instruction := do
  let form ← Form.make name contents
  form.check
  match contents with
  | .data offset :: rest =>
    match operation? name rest with
    | some operation => return { offset, operation }
    | none => throw .wrongNature
  | _ => throw .wrongNature

end Instruction

end BytecodeBench
