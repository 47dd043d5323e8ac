import BytecodeBench.Machine.State

/-! Programs: the code of each method, and the string methods that machines carry out themselves. -/

namespace BytecodeBench

namespace Instruction

/-- Moves the lists within the constant that an instruction pushes to the store. -/
def load (store : ArrayStore) (i : Instruction) : Instruction × ArrayStore :=
  match i.operation with
  | .push v =>
    let (content, store) := store.load v.content
    ({ i with operation := .push { v with content } }, store)
  | _ => (i, store)

def loadAll (store : ArrayStore) : List Instruction → List Instruction × ArrayStore
  | [] => ([], store)
  | i :: rest =>
    let (i, store) := load store i
    let (rest, store) := loadAll store rest
    (i :: rest, store)

/-- The instruction with the constant that it pushes as it is now. -/
def resolve (store : ArrayStore) (i : Instruction) : Instruction :=
  match i.operation with
  | .push v => { i with operation := .push { v with content := store.resolve v.content } }
  | _ => i

end Instruction

/-- The code of methods; a method without code says why. -/
structure Program where
  code : AbsMethodId → Except Fault (Array Instruction)
  /-- The lists among the constants of the code. Whoever pushes one shares it, so a run starts with
  them. -/
  constants : ArrayStore := {}

namespace Program

/-- Moves the lists among the constants of a table of code to the store. -/
def loadTable (store : ArrayStore) :
    Table AbsMethodId (List Instruction) → Table AbsMethodId (List Instruction) × ArrayStore
  | [] => ([], store)
  | (method, code) :: rest =>
    let (code, store) := Instruction.loadAll store code
    let (rest, store) := loadTable store rest
    ((method, code) :: rest, store)

/-- The methods of a table; others have no code. -/
def ofTable (table : Table AbsMethodId (List Instruction)) : Program :=
  let (loaded, constants) := loadTable {} table
  let codes : Table AbsMethodId (Array Instruction) := loaded.map fun (m, code) => (m, code.toArray)
  { constants
    code := fun method =>
      match codes.find? method with
      | some code => .ok code
      | none => .error .noSuchPart }

/-- A single method with its code, or with the reason why it has none. -/
def single (method : AbsMethodId) (code : Except Fault (List Instruction)) : Program :=
  match code with
  | .ok code => ofTable [(method, code)]
  | .error e => { code := fun other => .error (if other = method then e else .noSuchPart) }

/-- The instruction at a place. Negative offsets count from the end; what cannot be shown is refused. -/
def fetch (program : Program) (pc : PC) : Except Fault Instruction := do
  let code ← program.code pc.method
  match (Position.fromEitherEnd code.size pc.offset.toInt).bind (code[·]?) with
  | some i =>
    let _ ← i.display
    return i
  | none => throw .badIndex

end Program

inductive StringCall
  | length
  | concat
  | equals
  | equalsIgnoreCase
  | charAt
  | substring
  | other (name : String)
  deriving DecidableEq, Repr

namespace StringCall

def ofName : String → StringCall
  | "length" => length
  | "concat" => concat
  | "equals" => equals
  | "equalsIgnoreCase" => equalsIgnoreCase
  | "charAt" => charAt
  | "substring" => substring
  | name => other name

/-- The string method that a reference names, if it names one. -/
def of? (m : MethodRef) : Option StringCall :=
  let text := m.encode.toList
  if Text.leads "java/lang/String.".toList text then
    let place := text.takeWhile (· ≠ ':')
    let name := (Text.breakOnLast? ['.'] place).elim place Prod.snd
    some (ofName (String.ofList name))
  else none

/-- How many operands a call takes. -/
def arity : StringCall → Nat
  | length => 1
  | concat | equals | equalsIgnoreCase | charAt => 2
  | substring => 3
  | other _ => 0

end StringCall

/-- A way to set up a new string. -/
inductive StringSetup
  /-- From another string. -/
  | copying
  | empty
  /-- From an array of characters. -/
  | chars
  | other (method descriptor : String)
  deriving DecidableEq, Repr

namespace StringSetup

/-- The setup that a reference names, if it names one. -/
def of? (m : MethodRef) : Option StringSetup :=
  let text := m.encode.toList
  if Text.leads "java/lang/String.<init>:".toList text then
    let descriptor := (text.dropWhile (· ≠ ':')).drop 1
    some <|
      if Text.leads "(Ljava/lang/String;)".toList descriptor then copying
      else if Text.leads "()".toList descriptor then empty
      else if Text.leads "([C)".toList descriptor then chars
      else other m.encode (String.ofList descriptor)
  else none

def arity : StringSetup → Nat
  | copying | chars => 2
  | empty => 1
  | other .. => 0

end StringSetup

end BytecodeBench
