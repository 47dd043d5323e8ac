import BytecodeBench.Proofs.StringParts
import BytecodeBench.Proofs.Watching

/-! How string calls end on the machine on texts. A call on null is due to end the run as a use of null, and
places outside of a string as out of bounds. Only the length and the concatenation refuse null so; comparisons
answer no, and the calls with places take null for a string without them. The first character of the empty
string counts as a failed assertion. -/

namespace BytecodeBench

/-- A string call and what is asked of the receiver; null is no string. -/
inductive StringRequest
  | length
  | concat (more : Option String)
  | equals (other : Option String)
  | equalsIgnoreCase (other : Option String)
  | charAt (place : Int)
  | substring (first last : Int)

/-- What a call gives: a value, or a string of its own on the heap. -/
inductive Answer
  | value (v : Value)
  | string (text : String)

namespace StringRequest

def call : StringRequest → StringCall
  | length => .length
  | concat _ => .concat
  | equals _ => .equals
  | equalsIgnoreCase _ => .equalsIgnoreCase
  | charAt _ => .charAt
  | substring .. => .substring

/-- What a request to a receiver is due to come to: an answer, or the outcome of the run. -/
def due : Option String → StringRequest → Except Query Answer
  | none, _ => .error .nullPointer
  | some text, length => .ok (.value (.int text.length))
  | some text, concat more => .ok (.string (text ++ more.getD "null"))
  | some text, equals other => .ok (.value (.boolean (some text == other)))
  | some text, equalsIgnoreCase other => .ok (.value (.boolean (some (Text.lower text) == other.map Text.lower)))
  | some text, charAt place => (Text.charAt? text place).elim (.error .outOfBounds) fun c => .ok (.value (.char c))
  | some text, substring first last =>
    (Text.part? text first last).elim (.error .outOfBounds) fun part => .ok (.string part)

def reply : Option String → StringRequest → Except Query Answer
  | none, length | none, concat _ => .error .nullPointer
  | none, equals _ | none, equalsIgnoreCase _ => .ok (.value (.boolean false))
  | none, charAt _ | none, substring .. => .error .outOfBounds
  | some text, charAt place => if text = "" then .error .assertionError else due (some text) (charAt place)
  | some text, request => due (some text) request

variable {recv : Option String} {request : StringRequest}

end StringRequest

def Answer.given (s : State String) : Answer → Slot × State String
  | value v => (.value v, s)
  | string text => s.alloc (.text text)

namespace Concrete

open StringRequest (reply due)

inductive RefersTo (s : State String) : Slot → Option String → Prop
  | null (type : JvmType) : RefersTo s (.value ⟨type, .null⟩) none
  | own (type : JvmType) (text : String) : RefersTo s (.value ⟨type, .text text⟩) (some text)
  | entry (type : JvmType) {ref : Datum} {place : Operand} {text : String} : Operand.ofDatum? ref = some place →
    s.heap.find? place = some (.text text) → RefersTo s (.value ⟨type, ref⟩) (some text)

/-- The operands of a request but for the receiver, the last one first. -/
inductive Asks (s : State String) : StringRequest → List Slot → Prop
  | length : Asks s .length []
  | concat {x : Slot} {more : Option String} : RefersTo s x more → Asks s (.concat more) [x]
  | equals {x : Slot} {other : Option String} : RefersTo s x other → Asks s (.equals other) [x]
  | equalsIgnoreCase {x : Slot} {other : Option String} : RefersTo s x other → Asks s (.equalsIgnoreCase other) [x]
  | charAt (place : Int) : Asks s (.charAt place) [.int place]
  | substring (first last : Int) : Asks s (.substring first last) [.int last, .int first]

def settled (s : State String) (f : Frame) (rest : List Slot) : Except Query Answer → Watched × Option Halt
  | .ok answer => (⟨(answer.given s).2.proceedWith f ((answer.given s).1 :: rest), none⟩, none)
  | .error outcome => (⟨s.withTop { f with stack := rest }, none⟩, some (.ended outcome))

variable {s : State String} {x : Slot} {recv other : Option String} {text : String}

namespace RefersTo

theorem string (refers : RefersTo s x recv) : stringOf s x = .ok (recv.elim .null .text) := by
  cases refers with
  | null type => rfl
  | own type text => rfl
  | @entry type ref place text is held =>
    have looked : stringOf s (.value ⟨type, ref⟩) = liftM (s.entry place) := by
      cases ref <;> cases is <;> rfl
    rw [looked, State.entry_eq held]
    rfl

theorem refused (refers : RefersTo s x none) (outcome : Query) : refuseNull outcome x = .error (.ended outcome) := by
  cases refers
  rfl

theorem isText (refers : RefersTo s x (some text)) : IsText s x text := by
  constructor
  · intro outcome
    cases refers with
    | own type => rfl
    | @entry type ref place _ is held => cases ref <;> cases is <;> rfl
  · intro expected
    unfold textOf
    rw [refers.string]
    rfl

end RefersTo

section Calls

variable (refers : RefersTo s x recv)

include refers

end Calls

theorem Asks.arity {request : StringRequest} {operands : List Slot} (asks : Asks s request operands) :
    request.call.arity = operands.length + 1 := by
  cases asks <;> rfl

section Steps

variable {program : Program} {f : Frame} {request : StringRequest} {rest : List Slot}

def readyFrame (stack : List Slot) : Frame := ⟨[], stack, ⟨⟨⟨"Sample"⟩, ⟨"run", [], none⟩⟩, .number 0⟩⟩

def ready (stack : List Slot) : State String where
  heap := []
  frames := [readyFrame stack]
  next := 0
  pool := []
  arrays := {}

end Steps

end Concrete

end BytecodeBench
