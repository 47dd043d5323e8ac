import BytecodeBench.Instruction.Form

/-!
Instructions as decompiled class files give them: a record with an `opr`, an offset, and the operands
that the instruction takes.
-/

namespace BytecodeBench

/-- The operator that a word stands for. -/
def Operator.ofData (d : Datum) : Except Fault Operator :=
  match d with
  | .text "add" => .ok .add
  | .text "sub" => .ok .sub
  | .text "mul" => .ok .mul
  | .text "div" => .ok .div
  | .text "rem" => .ok .rem
  | _ => .error .unknownOperator

namespace Instruction

/-- The field under a name, as it stands. -/
def dataField (d : Datum) (name : String) : Except Fault FieldContent :=
  .data <$> d.fetch name

/-- The field under a name, read as a type. -/
def typeField (d : Datum) (name : String) : Except Fault FieldContent := do
  return .type (← JvmType.ofData (← d.fetch name))

def methodField (d : Datum) : Except Fault FieldContent := do
  return .method (← MethodRef.ofData (← d.fetch "method"))

/-- The form's name behind an `opr`. -/
def formName (d : Datum) : Except Fault String := do
  match ← d.fetch "opr" with
  | .text "push" => return "Push"
  | .text "newarray" => return "NewArray"
  | .text "dup" => return "Dup"
  | .text "pop" => return "Pop"
  | .text "array_store" => return "ArrayStore"
  | .text "array_load" => return "ArrayLoad"
  | .text "binary" => return "Binary"
  | .text "store" => return "Store"
  | .text "load" => return "Load"
  | .text "arraylength" => return "ArrayLength"
  | .text "if" => return "If"
  | .text "get" => return "Get"
  | .text "ifz" => return "Ifz"
  | .text "cast" => return "Cast"
  | .text "new" => return "New"
  | .text "throw" => return "Throw"
  | .text "incr" => return "Incr"
  | .text "goto" => return "Goto"
  | .text "return" => return "Return"
  | .text "invoke" =>
    match ← d.fetch "access" with
    | .text "virtual" => return "InvokeVirtual"
    | .text "static" => return "InvokeStatic"
    | .text "interface" => return "InvokeInterface"
    | .text "special" => return "InvokeSpecial"
    | access => throw (.unknownAccess access.literal)
  | opr => throw (.unknownInstruction opr.literal)

/-- The result type of a return; a missing or null type means nothing is returned. -/
def returnField (d : Datum) : Except Fault FieldContent :=
  match d.field? "type" with
  | none | some .null => .ok (.data .null)
  | some type => .type <$> JvmType.ofData type

/-- The contents of the fields, read in the order in which faults are reported. -/
def contents (name : String) (d : Datum) : Except Fault (List FieldContent) :=
  match name with
  | "Return" => do
    let type ← returnField d
    return [← dataField d "offset", type]
  | "Get" => do
    let field ← d.fetch "field"
    let field ← FieldRef.ofData field
    let offset ← dataField d "offset"
    return [offset, ← dataField d "static", .field field]
  | _ => do
    let offset ← dataField d "offset"
    match name with
    | "Push" => return [offset, .value (← Value.ofData (← d.fetch "value"))]
    | "NewArray" =>
      let type ← typeField d "type"
      return [offset, type, ← dataField d "dim"]
    | "Dup" => return [offset, ← dataField d "words"]
    | "ArrayStore" | "ArrayLoad" => return [offset, ← typeField d "type"]
    | "Cast" =>
      let source ← typeField d "from"
      return [offset, source, ← typeField d "to"]
    | "Binary" =>
      let type ← typeField d "type"
      return [offset, type, .operator (← Operator.ofData (← d.fetch "operant"))]
    | "Store" | "Load" =>
      let type ← typeField d "type"
      return [offset, type, ← dataField d "index"]
    | "If" | "Ifz" =>
      let condition ← dataField d "condition"
      return [offset, condition, ← dataField d "target"]
    | "New" => return [offset, .className (← d.fetch "class")]
    | "Incr" =>
      let index ← dataField d "index"
      return [offset, index, ← dataField d "amount"]
    | "Goto" => return [offset, ← dataField d "target"]
    | "InvokeVirtual" | "InvokeStatic" => return [offset, ← methodField d]
    | "InvokeInterface" =>
      let method ← methodField d
      return [offset, method, ← dataField d "stack_size"]
    | "InvokeSpecial" =>
      let method ← methodField d
      return [offset, method, .data (← (← d.fetch "method").fetch "is_interface")]
    | _ => return [offset]

/-- The instruction that a datum describes. -/
def ofData (d : Datum) : Except Fault Instruction := do
  let name ← formName d
  match contents name d >>= make name with
  | .ok i => return i
  | .error e => throw (if e.kind = .unsupported then .unreadableInstruction d.literal else e)

end Instruction

end BytecodeBench
