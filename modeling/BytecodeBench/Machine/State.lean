import BytecodeBench.Instruction.Spelling
import BytecodeBench.Machine.Arrays
import BytecodeBench.Position
import BytecodeBench.Query
import BytecodeBench.Table

/-!
States of a stack machine: frames with local variables and an operand stack, and a heap of strings
and arrays. What a string is on the heap is left open, so that a machine on strings and one on signs
share their states. Stacks and frames have their top first.
-/

namespace BytecodeBench

/-- What lies on the stack or in a local variable: a typed value, or a datum without a type. -/
inductive Slot
  | value (v : Value)
  | bare (d : Datum)

instance : Inhabited Slot := ⟨.bare .null⟩

namespace Slot

/-- A reference to an entry of the heap, or to nothing. -/
def reference (target : Datum) : Slot := .value ⟨.reference, target⟩

def int (n : Int) : Slot := .value (.int n)

def type : Slot → Except Fault JvmType
  | value v => .ok v.type
  | bare _ => .error .noSuchPart

def content : Slot → Except Fault Datum
  | value v => .ok v.content
  | bare _ => .error .noSuchPart

/-- The slot as it stands in a trace. -/
def display (arrays : ArrayStore) : Slot → String
  | value v => Value.math ⟨v.type, arrays.resolve v.content⟩
  | bare d => (arrays.resolve d).display

end Slot

/-- A place in a method. -/
structure PC where
  method : AbsMethodId
  offset : Operand

namespace PC

def next (pc : PC) : PC := { pc with offset := pc.offset.next }

def display (pc : PC) : String := pc.method.encode ++ ":" ++ pc.offset.display

end PC

/-- A method in execution. -/
structure Frame where
  locals : Table Operand Slot
  stack : List Slot
  pc : PC

namespace Frame

/-- The frame of a call: arguments are the first local variables. -/
def ofCall (method : AbsMethodId) (args : List Value) : Frame where
  locals := args.zipIdx.map fun (v, i) => (.number i, .value v)
  stack := []
  pc := ⟨method, .number 0⟩

/-- A stack in writing, bottom first. -/
def displayStack (arrays : ArrayStore) : List Slot → String
  | [] => "ϵ"
  | stack => Text.join "" (stack.reverse.map (·.display arrays))

def display (arrays : ArrayStore) (f : Frame) : String :=
  let locals := f.locals.mergeSort fun a b => decide (a.1.toInt ≤ b.1.toInt)
  "<\x7b" ++ Text.join ", " (locals.map fun (i, v) => i.display ++ ":" ++ v.display arrays) ++
    "\x7d, " ++ displayStack arrays f.stack ++ ", " ++ f.pc.display ++ ">"

end Frame

/-- A state of a machine whose string literals are kept as `L`. -/
structure State (L : Type) where
  heap : Table Operand Datum
  frames : List Frame
  /-- The reference that the next allocation gets. -/
  next : Int
  /-- The references of string literals. -/
  pool : Table L Int
  arrays : ArrayStore

/-- Why a machine stops: the run ends in an outcome, or a step meets a fault. -/
inductive Halt
  | ended (outcome : Query)
  | fault (cause : Fault)
  deriving DecidableEq, Repr

/-- A fault as a reason to stop. -/
def Halt.ofExcept {α : Type} : Except Fault α → Except Halt α
  | .ok a => .ok a
  | .error e => .error (.fault e)

instance : MonadLift (Except Fault) (Except Halt) := ⟨Halt.ofExcept⟩

namespace State

variable {L : Type}

def ofCall (method : AbsMethodId) (args : List Value) (arrays : ArrayStore) : State L where
  heap := []
  frames := [.ofCall method args]
  next := 0
  pool := []
  arrays := arrays

/-- Replaces the top frame. -/
def withTop (s : State L) (f : Frame) : State L := { s with frames := f :: s.frames.drop 1 }

/-- Moves the top frame to the next instruction. -/
def proceed (s : State L) (f : Frame) : State L := s.withTop { f with pc := f.pc.next }

/-- Replaces the stack of the top frame and moves on. -/
def proceedWith (s : State L) (f : Frame) (stack : List Slot) : State L :=
  s.proceed { f with stack }

/-- Moves the top frame to a place of its method, or to the next instruction. -/
def branch (s : State L) (f : Frame) (stack : List Slot) (target : Operand) (taken : Bool) : State L :=
  if taken then s.withTop { f with stack, pc := ⟨f.pc.method, target⟩ }
  else s.proceedWith f stack

/-- A new entry of the heap. -/
def alloc (s : State L) (content : Datum) : Slot × State L :=
  (.reference (.int s.next),
    { s with next := s.next + 1, heap := s.heap.insert (.number s.next) content })

/-- The entry of a string literal, which is new only for a new literal. -/
def intern [BEq L] (s : State L) (literal : L) (content : Datum) : Slot × State L :=
  match s.pool.find? literal with
  | some ref => (.reference (.int ref), s)
  | none =>
    let (slot, after) := s.alloc content
    (slot, { after with pool := after.pool.insert literal s.next })

/-- The heap entry under a reference. -/
def entry (s : State L) (ref : Operand) : Except Fault Datum :=
  match s.heap.find? ref with
  | some d => .ok d
  | none => .error (.missingKey ref.display)

/-- A slot as a message shows it. -/
def shown (s : State L) (slot : Slot) : String := slot.display s.arrays

/-- Refuses operands that are not as expected. -/
def unexpected {α : Type} (s : State L) (expected : Expectation) (found : List Slot) :
    Except Halt α :=
  .error (.fault (.unexpectedOperand expected (Text.join ", " (found.map s.shown))))

def displayHeap (s : State L) : String :=
  "\x7b" ++ Text.join ", " (s.heap.map fun (ref, d) =>
    ref.display ++ ": " ++ (s.arrays.resolve d).literal) ++ "\x7d"

/-- The frames in writing, bottom first. -/
def displayFrames (s : State L) : List String :=
  (s.frames.map (·.display s.arrays)).reverse

def display (s : State L) : String :=
  s.displayHeap ++ " " ++ (if s.frames.isEmpty then "ϵ" else Text.join "" s.displayFrames)

/-- The heap and frames alone, with nothing allocated yet. -/
def copy (s : State L) : State L := { s with next := 0, pool := [] }

end State

end BytecodeBench
