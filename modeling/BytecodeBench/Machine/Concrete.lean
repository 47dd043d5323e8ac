import BytecodeBench.Coverage
import BytecodeBench.Machine.Plain

/-!
The machine that runs on strings themselves. A step takes its operands off the stack and has an
effect; when it stops, by an outcome or a fault, the operands are gone and nothing else has changed.
A coverage map may watch the steps and never changes what they do.
-/

namespace BytecodeBench.Concrete

/-- The integer behind a slot. -/
def toInteger (s : State String) : Slot → Except Halt Datum
  | .value v => s.integerOf (.value v) v
  | .bare _ => .error (.fault .noSuchPart)

/-- The string behind a reference; null for none. -/
def stringOf (s : State String) (slot : Slot) : Except Halt Datum := do
  match ← slot.content with
  | .null => return .null
  | .text text => return .text text
  | ref =>
    match Operand.ofDatum? ref with
    | some ref => s.entry ref
    | none => s.unexpected .stringRef [slot]

/-- The array behind a reference; null for none. -/
def arrayOf (s : State String) (slot : Slot) : Except Halt Datum := do
  match ← slot.content with
  | .null => return .null
  | .array handle => return .array handle
  | ref =>
    match Operand.ofDatum? ref with
    | some ref => s.entry ref
    | none => s.unexpected .arrayRef [slot]

/-- A string where nothing else will do. -/
def textOf (s : State String) (expected : Expectation) (slot : Slot) : Except Halt String := do
  match ← stringOf s slot with
  | .text text => return text
  | _ => s.unexpected expected [slot]

/-- The array and the place in it that an access is about. -/
def access (s : State String) (index ref : Slot) : Except Halt (Datum × Datum) := do
  if (← index.type) ≠ .int then s.unexpected .intIndex [index]
  let array ← arrayOf s ref
  if let .null := array then throw (.ended .nullPointer)
  let size := List.length <$> s.arrays.sequence array
  let place ← index.content
  if ← place.isWithin size then return (array, place) else throw (.ended .outOfBounds)

def arrayLoad (s : State String) (type : JvmType) (index ref : Slot) : Except Halt Slot := do
  let (array, place) ← access s index ref
  match (← s.arrays.sequence array)[← place.toPlace]? with
  | some item => return .value ⟨type, item⟩
  | none => throw (.fault .badIndex)

def arrayLength (s : State String) (ref : Slot) : Except Halt Slot := do
  let array ← arrayOf s ref
  if let .null := array then throw (.ended .nullPointer)
  return .int (← s.arrays.sequence array).length

def arrayStore (s : State String) (item index ref : Slot) : Except Halt (State String) := do
  let (array, place) ← access s index ref
  let d ← item.content
  match array with
  | .array handle => return { s with arrays := s.arrays.write handle (← place.toPlace) d }
  | _ => throw (.fault .wrongNature)

/-- The quotient of two integers, rounded down. -/
def divide (s : State String) (a b : Slot) : Except Halt Slot := do
  if (← a.type) ≠ .int then s.unexpected .int [a]
  if (← b.type) ≠ .int then s.unexpected .int [b]
  if (← b.content).same (.int 0) then throw (.ended .divideByZero)
  return .value ⟨.int, ← Datum.quotient (← a.content) (← b.content)⟩

/-- Whether a jump by comparison with zero is taken. -/
def zeroJump (s : State String) (condition : String) (slot : Slot) : Except Halt Bool := do
  match (← slot.content).integer? with
  | some n => State.zeroCondition condition (.int n)
  | none => s.unexpected .truthLike [slot]

/-- Whether a jump by comparison of two values is taken. -/
def pairJump (s : State String) (condition : String) (a b : Slot) : Except Halt Bool := do
  if condition = "is" then
    match a, b with
    | .value v, .value w => return s.sameValues v w
    | _, _ => throw (.fault .noSuchPart)
  let x ← toInteger s a
  let y ← toInteger s b
  State.pairCondition condition x y

/-- Sets up a new string; the heap entry of the object takes the text. -/
def setUp (s : State String) (setup : StringSetup) (operands : List Slot) :
    Except Halt (State String) := do
  let put (this : Slot) (d : Datum) : Except Halt (State String) := do
    match Operand.ofDatum? (← this.content) with
    | some ref => return { s with heap := s.heap.insert ref d }
    | none => s.unexpected .thisRef [this]
  match setup, operands with
  | .copying, [arg, this] =>
    match ← stringOf s arg with
    | .null => put this (.text "")
    | d => put this d
  | .empty, [this] => put this (.text "")
  | .chars, [arg, this] =>
    if (← arg.type) ≠ .reference then s.unexpected .charArray [arg]
    match Operand.ofDatum? (← arg.content) with
    | none => s.unexpected .charArrayRef [arg]
    | some ref =>
      match (s.heap.find? ref).getD .null with
      | .null => put this (.text "")
      | array =>
        let parts ← (← s.arrays.sequence array).mapM fun d =>
          match d with
          | .text part => .ok part
          | _ => .error (.fault .wrongNature)
        put this (.text (Text.join "" parts))
  | .other method descriptor, _ =>
    throw (.fault (.unhandledStep (method ++ " with desc " ++ descriptor)))
  | _, _ => throw (.fault .badIndex)

/-- Whether two strings are equal; null equals nothing. -/
def equalStrings (s : State String) (a b : Datum) : Bool :=
  match a, b with
  | .null, _ | _, .null => false
  | a, b => (s.arrays.resolve a).same (s.arrays.resolve b)

/-- Whether two strings are equal but for case; null equals nothing. -/
def equalIgnoringCase (a b : Datum) : Except Fault Bool :=
  match a, b with
  | .null, _ | _, .null => .ok false
  | .text a, .text b => .ok (Text.lower a == Text.lower b)
  | _, _ => .error .noSuchPart

/-- Stops with an outcome if a reference is null. -/
def refuseNull (outcome : Query) (slot : Slot) : Except Halt Unit := do
  if let .null := ← slot.content then throw (.ended outcome)

/-- The result of a string call with its operands, the last one first. -/
def call (s : State String) (c : StringCall) (operands : List Slot) :
    Except Halt (Slot × State String) := do
  match c, operands with
  | .length, [recv] =>
    refuseNull .nullPointer recv
    let text ← textOf s .stringReceiver recv
    return (.int text.length, s)
  | .concat, [arg, recv] =>
    refuseNull .nullPointer recv
    let text ← textOf s .stringReceiver recv
    let more ← match ← arg.content with
      | .null => pure "null"
      | _ => textOf s .stringArgument arg
    return s.alloc (.text (text ++ more))
  | .equals, [other, recv] =>
    let a ← stringOf s recv
    let b ← stringOf s other
    return (.value (.boolean (equalStrings s a b)), s)
  | .equalsIgnoreCase, [other, recv] =>
    let a ← stringOf s recv
    let b ← stringOf s other
    return (.value (.boolean (← equalIgnoringCase a b)), s)
  | .charAt, [index, recv] =>
    if (← index.type) ≠ .int then s.unexpected .intIndex [index]
    refuseNull .outOfBounds recv
    let text ← textOf s .stringReceiver recv
    if text.isEmpty then throw (.ended .assertionError)
    let place ← index.content
    if ← place.isWithin (.ok text.length) then
      match text.toList[← place.toPlace]? with
      | some c => return (.value (.char c), s)
      | none => throw (.fault .badIndex)
    else throw (.ended .outOfBounds)
  | .substring, [last, first, recv] =>
    if (← first.type) ≠ .int then s.unexpected .intIndices [first, last]
    if (← last.type) ≠ .int then s.unexpected .intIndices [first, last]
    refuseNull .outOfBounds recv
    let text ← textOf s .stringReceiver recv
    let i ← first.content
    let j ← last.content
    if ← i.relate .lt (.int 0) then throw (.ended .outOfBounds)
    if ← j.relate .lt i then throw (.ended .outOfBounds)
    if ← j.relate .gt (.int text.length) then throw (.ended .outOfBounds)
    match i.integer?, j.integer? with
    | some i, some j =>
      return s.alloc (.text (String.ofList ((text.toList.take j.toNat).drop i.toNat)))
    | _, _ => throw (.fault .wrongNature)
  | .other name, _ => throw (.fault (.unhandledStep name))
  | _, _ => throw (.fault .badIndex)

/-- How many operands an instruction takes off the stack. -/
def arity : Operation → Nat
  | .pop | .store .. | .arrayLength | .zeroJump .. | .throw | .return (some .int) => 1
  | .arrayLoad _ | .compareJump .. => 2
  | .arrayStore _ => 3
  | .binary .int .rem => 0
  | .binary .int _ => 2
  | .invokeVirtual m => (StringCall.of? m).elim 0 (·.arity)
  | .invokeSpecial m _ => (StringSetup.of? m).elim 0 (·.arity)
  | _ => 0

/-- The effect of an instruction other than a return, if nothing stops it. -/
def effect (s : State String) (f : Frame) (i : Instruction) : Except Halt (State String) := do
  let operands := f.stack.take (arity i.operation)
  let rest := f.stack.drop (arity i.operation)
  if operands.length < arity i.operation then throw (.fault .badIndex)
  match i.operation, operands with
  | .push v, _ => return s.pushConstant id .text f v
  | .increment index amount, _ => s.increment f index amount
  | .pop, _ => s.pop f
  | .load _ index, _ => s.load f index
  | .store _ index, _ => s.store f index
  | .dup _, _ => s.duplicate f
  | .goto target, _ => return s.branch f f.stack target true
  | .get true _, _ => return s.proceedWith f (.int 0 :: f.stack)
  | .new className, _ => return s.create (.text "") f className
  | .arrayLoad type, [index, ref] =>
    let item ← arrayLoad s type index ref
    return s.proceedWith f (item :: rest)
  | .arrayLength, [ref] =>
    let size ← arrayLength s ref
    return s.proceedWith f (size :: rest)
  | .arrayStore _, [item, index, ref] =>
    let s ← arrayStore s item index ref
    return s.proceedWith f rest
  | .binary .int operator, [b, a] =>
    let (result, s) ← match State.combine? operator with
      | some op => s.combined op a b
      | none => do pure (← divide s a b, s)
    return s.proceedWith f (result :: rest)
  | .zeroJump condition target, [v] =>
    return s.branch f rest target (← zeroJump s condition v)
  | .compareJump condition target, [b, a] =>
    return s.branch f rest target (← pairJump s condition a b)
  | .throw, [thrown] =>
    refuseNull .nullPointer thrown
    throw (.ended .assertionError)
  | .invokeStatic _, _ => return s.proceed f
  | .invokeVirtual m, operands =>
    match StringCall.of? m with
    | none => return s.proceed f
    | some c =>
      let (result, s) ← call s c operands
      return s.proceedWith f (result :: rest)
  | .invokeSpecial m _, operands =>
    match StringSetup.of? m with
    | none => return s.proceed f
    | some setup =>
      let s ← setUp s setup operands
      return s.proceedWith f rest
  | _, _ => throw (.fault (.unhandledStep i.literal))

/-- Executes an instruction of the top frame. -/
def execute (s : State String) (f : Frame) (i : Instruction) : State String × Option Halt :=
  match i.operation, f.stack with
  | .return (some .int), v :: _ => s.leave [v]
  | .return none, _ => s.leave []
  | _, _ =>
    match effect s f i with
    | .ok after => (after, none)
    | .error halt =>
      (s.withTop { f with stack := f.stack.drop (arity i.operation) }, some halt)

/-- What a coverage map learns from the operands of a comparison. -/
def observe (c : Coverage) (place : Int) (s : State String) (f : Frame) :
    Operation → Coverage × Option Fault
  | .compareJump condition _ =>
    match f.stack with
    | b :: a :: _ =>
      if condition = "eq" ∨ condition = "ne" then
        match toInteger s a, toInteger s b with
        | .ok x, .ok y => c.compareIntegers place x y
        | _, _ => (c, none)
      else (c, none)
    | _ => (c, none)
  | .invokeVirtual m =>
    match f.stack with
    | other :: recv :: _ =>
      match stringOf s recv, stringOf s other with
      | .ok a, .ok b =>
        let a := s.arrays.resolve a
        let b := s.arrays.resolve b
        match StringCall.of? m with
        | some .equals => c.compareTexts place a b
        | some .equalsIgnoreCase => c.compareTextsIgnoringCase place a b
        | _ => (c, none)
      | _, _ => (c, none)
    | _ => (c, none)
  | _ => (c, none)

/-- A state with the coverage map that watches it, if any. -/
structure Watched where
  state : State String
  coverage : Option Coverage := none

/-- Where a place in the code is counted, in a map of a given size. -/
abbrev Locate := PC → Nat → Int

def step (program : Program) (locate : Locate) (w : Watched) : Watched × Option Halt :=
  match w.state.frames with
  | [] => (w, some (.fault .badIndex))
  | f :: _ =>
    match program.fetch f.pc with
    | .error e => (w, some (.fault e))
    | .ok i =>
      match w.coverage with
      | none =>
        let (after, halt) := execute w.state f i
        ({ w with state := after }, halt)
      | some c =>
        let place := locate f.pc c.size
        match c.hit place with
        | .error e => (w, some (.fault e))
        | .ok c =>
          match observe c place w.state f i.operation with
          | (c, some e) =>
            let f := { f with stack := f.stack.drop (arity i.operation) }
            (⟨w.state.withTop f, some c⟩, some (.fault e))
          | (c, none) =>
            let (after, halt) := execute w.state f i
            (⟨after, some c⟩, halt)

end BytecodeBench.Concrete
