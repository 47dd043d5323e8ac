import BytecodeBench.Datum.Arithmetic
import BytecodeBench.Machine.Program

/-! Effects that do not depend on how strings are kept. -/

namespace BytecodeBench.State

variable {L : Type}

/-- Pushes a constant: a string literal becomes its heap entry. -/
def pushConstant [BEq L] (keep : String → L) (content : L → Datum) (s : State L) (f : Frame)
    (v : Value) : State L :=
  match v.type, v.content with
  | .reference, .text text =>
    let (slot, s) := s.intern (keep text) (content (keep text))
    s.proceedWith f (slot :: f.stack)
  | _, _ => s.proceedWith f (.value v :: f.stack)

/-- Adds to a local variable, which is zero if it is not set. -/
def increment (s : State L) (f : Frame) (index amount : Operand) : Except Halt (State L) := do
  let before := (f.locals.find? index).getD (.int 0)
  if (← before.type) = .int then
    let sum ← Datum.add (← before.content) amount.datum
    return s.proceed { f with locals := f.locals.insert index (.value ⟨.int, sum⟩) }
  else s.unexpected .intLocal [before]

def pop (s : State L) (f : Frame) : Except Halt (State L) :=
  match f.stack with
  | _ :: rest => .ok (s.proceedWith f rest)
  | [] => .error (.fault .badIndex)

def load (s : State L) (f : Frame) (index : Operand) : Except Halt (State L) :=
  match f.locals.find? index with
  | some v => .ok (s.proceedWith f (v :: f.stack))
  | none => .error (.fault (.missingKey index.display))

def store (s : State L) (f : Frame) (index : Operand) : Except Halt (State L) :=
  match f.stack with
  | v :: rest =>
    .ok (s.proceed { f with stack := rest, locals := f.locals.insert index v })
  | [] => .error (.fault .badIndex)

/-- Repeats the top of the stack. -/
def duplicate (s : State L) (f : Frame) : Except Halt (State L) :=
  match f.stack with
  | v :: rest => .ok (s.proceedWith f (v :: v :: rest))
  | [] => .error (.fault .badIndex)

/-- A new object: strings start empty, of other objects nothing is kept. -/
def create (emptyString : Datum) (s : State L) (f : Frame) (className : Datum) : State L :=
  if className.isText "java/lang/String" then
    let (slot, s) := s.alloc emptyString
    s.proceedWith f (slot :: f.stack)
  else s.proceedWith f (.int 0 :: f.stack)

/-- Leaves the top method; the run is over when it was the last one. -/
def leave (s : State L) (result : List Slot) : State L × Option Halt :=
  match s.frames.drop 1 with
  | [] => ({ s with frames := [] }, some (.ended .ok))
  | caller :: below =>
    let caller := { caller with stack := result ++ caller.stack, pc := caller.pc.next }
    ({ s with frames := caller :: below }, none)

/-- Whether a datum compares with zero as a condition asks. -/
def zeroCondition (condition : String) (d : Datum) : Except Fault Bool :=
  match condition with
  | "eq" | "z" => .ok (d.same (.int 0))
  | "ne" | "nz" => .ok !(d.same (.int 0))
  | "gt" => d.relate .gt (.int 0)
  | "ge" => d.relate .ge (.int 0)
  | "lt" => d.relate .lt (.int 0)
  | "le" => d.relate .le (.int 0)
  | other => .error (.unknownZeroCondition other)

/-- Whether two data compare as a condition asks; an unknown condition never holds. -/
def pairCondition (condition : String) (a b : Datum) : Except Fault Bool :=
  match condition with
  | "gt" => a.relate .gt b
  | "ge" => a.relate .ge b
  | "lt" => a.relate .lt b
  | "le" => a.relate .le b
  | "eq" => .ok (a.same b)
  | "ne" => .ok !(a.same b)
  | _ => .ok false

/-- The integer behind a value: characters by number, truth values as 0 or 1. -/
def integerOf (s : State L) (slot : Slot) (v : Value) : Except Halt Datum :=
  match v.type with
  | .int => .ok (s.arrays.resolve v.content)
  | .char => Datum.int <$> v.content.charCode
  | .boolean => .ok (.int (if (s.arrays.resolve v.content).truthy then 1 else 0))
  | _ => s.unexpected .intLike [slot]

/-- Whether two values have equal types and contents. -/
def sameValues (s : State L) (a b : Value) : Bool :=
  a.type == b.type && (s.arrays.resolve a.content).same (s.arrays.resolve b.content)

/-- Sum, difference or product of data, by operator. -/
def combine? : Operator →
    Option (ArrayStore → Datum → Datum → Except Fault (Datum × ArrayStore))
  | .add => some ArrayStore.add
  | .sub => some ArrayStore.sub
  | .mul => some ArrayStore.mul
  | .div | .rem => none

/-- The sum, difference or product of two integer values. -/
def combined (s : State L) (op : ArrayStore → Datum → Datum → Except Fault (Datum × ArrayStore))
    (a b : Slot) : Except Halt (Slot × State L) := do
  if (← a.type) = .int then
    if (← b.type) = .int then
      let (d, arrays) ← op s.arrays (← a.content) (← b.content)
      return (.value ⟨.int, d⟩, { s with arrays })
  s.unexpected .ints [a, b]

end BytecodeBench.State
