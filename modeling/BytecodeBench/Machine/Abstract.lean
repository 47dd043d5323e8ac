import BytecodeBench.Machine.Plain

/-!
The machine that runs on signs of strings. It follows a single path: a string comparison always
answers no. Lengths and new strings lie on the stack without a type.
-/

namespace BytecodeBench.Abstract

/-- The integer behind a slot; one without a type stands for itself. -/
def toInteger (s : State StringSign) : Slot → Except Halt Datum
  | .value v => s.integerOf (.value v) v
  | .bare d =>
    match d.integer? with
    | some _ => .ok d
    | none => .error (.fault .noSuchPart)

/-- The sign behind a slot; null for none. -/
def signOf (s : State StringSign) (slot : Slot) : Except Halt Datum := do
  match slot with
  | .bare (.sign sign) => return .sign sign
  | .bare _ => throw (.fault .noSuchPart)
  | .value v =>
    match v.content with
    | .null => return .null
    | .sign sign => return .sign sign
    | ref =>
      match Operand.ofDatum? ref with
      | some ref => s.entry ref
      | none => s.unexpected .stringRef [slot]

/-- A sign where nothing else will do. -/
def receiver (s : State StringSign) (slot : Slot) : Except Halt StringSign := do
  match ← signOf s slot with
  | .sign sign => return sign
  | _ => s.unexpected .stringReceiver [slot]

/-- Sum, difference or product; operands of which one has a type and one has none give nothing. -/
def combined (s : State StringSign)
    (op : ArrayStore → Datum → Datum → Except Fault (Datum × ArrayStore)) (a b : Slot) :
    Except Halt (List Slot × State StringSign) := do
  match a, b with
  | .value _, .value _ =>
    let (result, s) ← s.combined op a b
    return ([result], s)
  | .bare x, .bare y =>
    match x.integer?, y.integer? with
    | some _, some _ =>
      let (d, arrays) ← op s.arrays x y
      return ([.value ⟨.int, d⟩], { s with arrays })
    | _, _ => return ([], s)
  | _, _ => return ([], s)

/-- Whether a jump by comparison with zero is taken. A bare truth value counts as zero. -/
def zeroJump (s : State StringSign) (condition : String) (slot : Slot) : Except Halt Bool :=
  match slot with
  | .value v => State.zeroCondition condition (s.arrays.resolve v.content)
  | .bare (.flag _) => State.zeroCondition condition (.int 0)
  | .bare (.int n) => State.zeroCondition condition (.int n)
  | .bare _ => s.unexpected .truthLike [slot]

/-- Whether a jump by comparison of two values is taken. -/
def pairJump (s : State StringSign) (condition : String) (a b : Slot) : Except Halt Bool := do
  if condition = "is" then
    match a, b with
    | .value v, .value w => return s.sameValues v w
    | .bare x, .bare y => return (s.arrays.resolve x).same (s.arrays.resolve y)
    | _, _ => return false
  let x ← toInteger s a
  let y ← toInteger s b
  State.pairCondition condition x y

/-- Stops with an outcome if a reference is null. -/
def refuseNull (outcome : Query) (slot : Slot) : Except Halt Unit := do
  if let .null := ← slot.content then throw (.ended outcome)

/-- The answer to a comparison of strings: no, whatever the signs are. -/
def equals (s : State StringSign) (other recv : Slot) : Except Halt Slot := do
  let a ← signOf s other
  let b ← signOf s recv
  match a, b with
  | .null, _ | _, .null | .sign _, .sign _ => return .value (.boolean false)
  | _, _ => throw (.fault .noSuchPart)

/-- The result of a string call with its operands, the last one first. -/
def call (s : State StringSign) (c : StringCall) (operands : List Slot) :
    Except Halt (Slot × State StringSign) := do
  match c, operands with
  | .length, [recv] =>
    if let .bare .null := recv then throw (.ended .nullPointer)
    match ← signOf s recv with
    | .null => throw (.ended .nullPointer)
    | .sign sign => return (.bare (.int sign.length), s)
    | _ => throw (.fault .noSuchPart)
  | .concat, [arg, recv] =>
    refuseNull .nullPointer recv
    refuseNull .nullPointer arg
    let a ← signOf s arg
    let b ← signOf s recv
    match a, b with
    | .sign a, .sign b => return s.alloc (.sign (a.concat b))
    | _, _ =>
      throw (.fault (.unexpectedOperand .signArguments
        ("1. " ++ s.shown arg ++ ", 2. " ++ s.shown recv)))
  | .equals, [other, recv] => return (← equals s other recv, s)
  | .equalsIgnoreCase, [other, recv] => return (← equals s other recv, s)
  | .charAt, [index, recv] =>
    if (← index.type) ≠ .int then s.unexpected .intIndex [index]
    match (← index.content).integer? with
    | none => s.unexpected .intReceiver [recv]
    | some i =>
      refuseNull .outOfBounds recv
      match (← receiver s recv).charAt i with
      | some sign => return s.alloc (.sign sign)
      | none => throw (.ended .outOfBounds)
  | .substring, [last, first, recv] =>
    let i ← first.content
    let j ← last.content
    match i.integer?, j.integer? with
    | some i, some j =>
      refuseNull .outOfBounds recv
      match (← receiver s recv).substring i j with
      | some sign => return s.alloc (.sign sign)
      | none => throw (.ended .outOfBounds)
    | _, _ => s.unexpected .intIndices [first, last]
  | .other name, _ => throw (.fault (.unhandledStep name))
  | _, _ => throw (.fault .badIndex)

/-- How many operands an instruction takes off the stack. -/
def arity : Operation → Nat
  | .pop | .store .. | .zeroJump .. => 1
  | .compareJump .. => 2
  | .binary .int operator => (State.combine? operator).elim 0 fun _ => 2
  | .invokeVirtual m => (StringCall.of? m).elim 0 (·.arity)
  | _ => 0

/-- The effect of an instruction other than a return, if nothing stops it. -/
def effect (s : State StringSign) (f : Frame) (i : Instruction) :
    Except Halt (State StringSign) := do
  let operands := f.stack.take (arity i.operation)
  let rest := f.stack.drop (arity i.operation)
  if operands.length < arity i.operation then throw (.fault .badIndex)
  match i.operation, operands with
  | .push v, _ => return s.pushConstant .abstract .sign f v
  | .increment index amount, _ => s.increment f index amount
  | .pop, _ => s.pop f
  | .load _ index, _ => s.load f index
  | .store _ index, _ => s.store f index
  | .dup _, _ => s.duplicate f
  | .goto target, _ => return s.branch f f.stack target true
  | .get _ _, _ => return s.proceedWith f (.int 0 :: f.stack)
  | .new className, _ => return s.create (.sign (.abstract "")) f className
  | .zeroJump condition target, [v] =>
    return s.branch f rest target (← zeroJump s condition v)
  | .compareJump condition target, [b, a] =>
    return s.branch f rest target (← pairJump s condition a b)
  | .binary .int operator, [b, a] =>
    match State.combine? operator with
    | some op =>
      let (result, s) ← combined s op a b
      return s.proceedWith f (result ++ rest)
    | none => throw (.fault (.unhandledStep i.literal))
  | .invokeSpecial m _, _ =>
    if m.name.isText "<init>" then
      let sign := Datum.sign (.abstract "")
      let (_, s) := s.alloc sign
      return s.proceedWith f (.bare sign :: f.stack)
    else return s.proceed f
  | .invokeVirtual m, operands =>
    match StringCall.of? m with
    | none => return s.proceed f
    | some c =>
      let (result, s) ← call s c operands
      return s.proceedWith f (result :: rest)
  | .throw, _ => throw (.ended .assertionError)
  | _, _ => throw (.fault (.unhandledStep i.literal))

/-- Executes an instruction of the top frame. -/
def execute (s : State StringSign) (f : Frame) (i : Instruction) :
    State StringSign × Option Halt :=
  match i.operation with
  | .return _ => s.leave []
  | _ =>
    match effect s f i with
    | .ok after => (after, none)
    | .error halt =>
      (s.withTop { f with stack := f.stack.drop (arity i.operation) }, some halt)

def step (program : Program) (s : State StringSign) : State StringSign × Option Halt :=
  match s.frames with
  | [] => (s, some (.fault .badIndex))
  | f :: _ =>
    match program.fetch f.pc with
    | .error e => (s, some (.fault e))
    | .ok i => execute s f i

end BytecodeBench.Abstract
