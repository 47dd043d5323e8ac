import BytecodeBench.Fault
import BytecodeBench.Query
import BytecodeBench.StringSign.Basic

/-!
Operations on signs either of which may be absent, as a null reference has none. An absent sign has
no parts, and it takes no part in operators.
-/

namespace BytecodeBench.StringSign.Optional

/-- An operator: the left side must be a sign, and the right side must have the parts of one. -/
def operator {α : Type} (op : StringSign → StringSign → α) :
    Option StringSign → Option StringSign → Except Fault α
  | none, _ => .error .wrongNature
  | some _, none => .error .noSuchPart
  | some a, some b => .ok (op a b)

def display : Option StringSign → String
  | none => "None"
  | some sign => sign.render

def contains (s : String) : Option StringSign → Except Fault Bool
  | none => .error .wrongNature
  | some sign => .ok (sign.admits s)

def length : Option StringSign → Except Fault Int
  | none => .error .noSuchPart
  | some sign => .ok sign.length

/-- The sign of one character, or the outcome of asking for it. -/
def charAt (place : Int) : Option StringSign → Except Fault (Except Query StringSign)
  | none => if place ≤ 0 then .ok (.error .outOfBounds) else .error .noSuchPart
  | some sign => .ok ((sign.charAt place).elim (.error .outOfBounds) .ok)

/-- The sign of a part, or the outcome of asking for it. -/
def substring (first last : Int) : Option StringSign → Except Fault (Except Query StringSign)
  | none => if first < -1 then .ok (.error .outOfBounds) else .error .noSuchPart
  | some sign => .ok ((sign.substring first last).elim (.error .outOfBounds) .ok)

/-- Whether strings of two signs can be equal: with different signs they cannot. -/
def mayEqual : Option StringSign → Option StringSign → Except Fault Bool
  | some a, some b => .ok (a == b)
  | _, _ => .error .noSuchPart

/-- The sign of two strings in a row, or the outcome of asking for it. -/
def concat : Option StringSign → Option StringSign → Except Query StringSign
  | some a, some b => .ok (a.concat b)
  | _, _ => .error .nullPointer

end BytecodeBench.StringSign.Optional
