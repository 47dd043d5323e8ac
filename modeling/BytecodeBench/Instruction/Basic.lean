import BytecodeBench.ClassFile.Reference

/-! Instructions of the virtual machine with their operands. -/

namespace BytecodeBench

/-- An integer operand; a truth value counts as 0 or 1 and keeps its spelling. -/
inductive Operand
  | number (n : Int)
  | flag (b : Bool)
  deriving Repr

namespace Operand

def toInt : Operand → Int
  | number n => n
  | flag b => if b then 1 else 0

def datum : Operand → Datum
  | number n => .int n
  | flag b => .flag b

def display (n : Operand) : String := n.datum.display

/-- A datum as an operand, if it is an integer or a truth value. -/
def ofDatum? : Datum → Option Operand
  | .int n => some (number n)
  | .flag b => some (flag b)
  | _ => none

def next (n : Operand) : Operand := number (n.toInt + 1)

end Operand

/-- Operands are equal when they count the same, however they are spelt. -/
instance : BEq Operand := ⟨fun a b => a.toInt == b.toInt⟩

/-- A binary operator on numbers. -/
inductive Operator
  | add
  | sub
  | mul
  | div
  | rem
  deriving DecidableEq, Repr

namespace Operator

def name : Operator → String
  | add => "add"
  | sub => "sub"
  | mul => "mul"
  | div => "div"
  | rem => "rem"

def literal : Operator → String
  | add => "<BinaryOpr.Add: 1>"
  | sub => "<BinaryOpr.Sub: 2>"
  | mul => "<BinaryOpr.Mul: 3>"
  | div => "<BinaryOpr.Div: 4>"
  | rem => "<BinaryOpr.Rem: 5>"

end Operator

inductive Operation
  | push (value : Value)
  | newArray (type : JvmType) (dim : Operand)
  | dup (words : Operand)
  | pop
  | arrayStore (type : JvmType)
  | arrayLoad (type : JvmType)
  | arrayLength
  | cast (source target : JvmType)
  | binary (type : JvmType) (operator : Operator)
  | store (type : JvmType) (index : Operand)
  | load (type : JvmType) (index : Operand)
  /-- Jumps by comparing two values. -/
  | compareJump (condition : String) (target : Operand)
  /-- Jumps by comparing a value with zero. -/
  | zeroJump (condition : String) (target : Operand)
  | get (static : Bool) (field : FieldRef)
  | new (className : Datum)
  | throw
  | increment (index amount : Operand)
  | goto (target : Operand)
  | return (type : Option JvmType)
  | invokeVirtual (method : MethodRef)
  | invokeStatic (method : MethodRef)
  | invokeInterface (method : MethodRef) (stackSize : Operand)
  | invokeSpecial (method : MethodRef) (isInterface : Bool)

/-- An instruction: where it stands in its method and what it does. -/
structure Instruction where
  /-- An integer for all instructions but returns, which take anything. -/
  offset : Datum
  operation : Operation

instance : Inhabited Instruction := ⟨⟨.int 0, .pop⟩⟩

end BytecodeBench
