import BytecodeBench.Datum.Arithmetic
import BytecodeBench.Fuzz.Literals
import BytecodeBench.Machine.Arrays
import BytecodeBench.Jvm.Value
import BytecodeBench.Randomness

/-!
Generating and mutating the values that a method is called with. New arrays are plain lists until they
are put into a store; arrays of a parent are read from the store and never written.
-/

namespace BytecodeBench.Fuzz

variable {σ : Type} (r : Randomness σ)

/-! Generation -/

def generateInt : Drawing σ Int := r.between (-100) 100

def generateChar : Drawing σ Char := do return Char.ofNat (← r.between 32 126).toNat

/-- An item for an array of the given type. -/
def generateItem (refuse : String → Fault) : JvmType → Drawing σ Datum
  | .int => do return .int (← generateInt r)
  | .char => do return .text (← generateChar r).toString
  | type => throw (refuse type.encode)

def generateItems (type : JvmType) : Nat → Drawing σ (List Datum)
  | 0 => return []
  | count + 1 => do
    let item ← generateItem r .ungeneratableItem type
    return item :: (← generateItems type count)

def generateArray (type : JvmType) (length : Nat) : Drawing σ Value := do
  return ⟨.array type, .list (← generateItems r type length)⟩

def generateString (length : Nat) : Drawing σ Value := do
  let chars ← (List.replicate length ()).mapM fun _ => generateChar r
  return .string (String.ofList chars)

def generateValue (type : JvmType) : Drawing σ Value := do
  match type with
  | .int => return .int (← generateInt r)
  | .char => return .char (← generateChar r)
  | .array contains =>
    let length ← r.between 0 20
    generateArray r contains length.toNat
  | type =>
    if type = .stringObject then
      let length ← r.between 0 30
      generateString r length.toNat
    else throw (.ungeneratableParameter type.encode)

/-! Mutation -/

/-- An integer where nothing else will do. -/
def integer (d : Datum) : Drawing σ Int :=
  match d.integer? with
  | some n => return n
  | none => throw .wrongNature

/-- Replaces the byte of an integer that stands above the given number of bits. -/
def replaceByte (n : Int) (shift : Nat) (byte : Int) : Int :=
  n / Nat.pow 2 (shift + 8) * Nat.pow 2 (shift + 8) + byte * Nat.pow 2 shift + n % Nat.pow 2 shift

/-- Takes a literal, or a step towards one. -/
def aimInt (d : Datum) (first : Int) (rest : List Int) : Drawing σ Int := do
  let target ← r.choose first rest
  if ← r.yes 0.5 then return target
  let n ← integer d
  let divisor ← r.between 2 6
  let step := max 1 ((target - n).natAbs / divisor)
  return if target - n > 0 then n + step else n - step

/-- Changes an integer a little, replaces one of its bytes, or changes its sign. -/
def perturbInt (d : Datum) : Drawing σ Int := do
  if ← r.yes 0.2 then
    let change ← r.choose (-10) [-1, 1, 10, 42, -42]
    return (← integer d) + change
  if ← r.yes 0.8 then
    let byte ← r.between 0 255
    let shift ← r.choose 0 [8, 16, 24]
    return replaceByte (← integer d) shift byte
  return -(← integer d)

def mutateInt (table : LiteralTable) (d : Datum) : Drawing σ Int := do
  match ← ExceptT.mk (pure table.intsOrFault) with
  | [] => perturbInt r d
  | first :: rest => if ← r.yes 0.35 then aimInt r d first rest else perturbInt r d

/-- Moves a character by a few places and keeps it printable. -/
def perturbChar (d : Datum) : Drawing σ Datum := do
  let change ← r.choose (-1 : Int) [1, 5, -5]
  let code ← ExceptT.mk (pure d.charCode)
  return .text (Char.ofNat (max 32 (min 126 (code + change))).toNat).toString

def mutateChar (table : LiteralTable) (d : Datum) : Drawing σ Datum := do
  match table.chars.getD [] with
  | [] => perturbChar r d
  | first :: rest =>
    if ← r.yes 0.5 then
      let literal ← r.choose first rest
      match literal.toList with
      | c :: _ => return .text c.toString
      | [] => return d
    else perturbChar r d

/-- A text where nothing else will do. -/
def text (d : Datum) : Drawing σ (List Char) :=
  match d with
  | .text s => return s.toList
  | _ => throw .wrongNature

/-- Puts characters in the place of `skipped` ones at a position. -/
def splice (cs : List Char) (position skipped : Nat) (middle : List Char) : String :=
  String.ofList (cs.take position ++ middle ++ cs.drop (position + skipped))

/-- Inserts, replaces or deletes a character. -/
def perturbString (d : Datum) : Drawing σ String := do
  let size ← match d.size? with
    | some size => pure size
    | none => throw .wrongNature
  let inserts ← if size = 0 then pure true else r.yes 0.3
  if inserts then
    let position ← r.between 0 size
    let c ← generateChar r
    return splice (← text d) position.toNat 0 [c]
  if ← r.yes 0.9 then
    let position ← r.between 0 (size - 1)
    let c ← generateChar r
    return splice (← text d) position.toNat 1 [c]
  let position ← r.between 0 (size - 1)
  return splice (← text d) position.toNat 1 []

def mutateString (table : LiteralTable) (d : Datum) : Drawing σ String := do
  match table.strings.getD [] with
  | [] => perturbString r d
  | first :: rest =>
    if ← r.yes 0.4 then
      let literal ← r.choose first rest
      let whole ← r.yes 0.7
      if whole || !d.truthy then return literal
      let size ← match d.size? with
        | some size => pure size
        | none => throw .wrongNature
      let position ← r.between 0 size
      return splice (← text d) position.toNat 0 literal.toList
    else perturbString r d

/-- Inserts an item into an array or mutates one. -/
def mutateArray (table : LiteralTable) (type : JvmType) (d : Datum) : Drawing σ (List Datum) := do
  let items ← match d.items? with
    | some items => pure items
    | none => throw .wrongNature
  let writable : Drawing σ Unit := match d with
    | .list _ => pure ()
    | _ => throw .wrongNature
  let inserts ← if items.isEmpty then pure true else r.yes 0.5
  if inserts then
    let position ← r.between 0 items.length
    let item ← generateItem r .unmutatableItem type
    writable
    return items.take position.toNat ++ item :: items.drop position.toNat
  let position ← r.between 0 (items.length - 1)
  let old := items[position.toNat]?.getD .null
  let item ← match type with
    | .int => Datum.int <$> mutateInt r table old
    | .char => mutateChar r table old
    | type => throw (.unmutatableItem type.encode)
  writable
  return items.set position.toNat item

/-- Mutates a value whose array, if it is one, is a plain list. -/
def mutateValue (table : LiteralTable) (v : Value) : Drawing σ Value := do
  match v.type with
  | .int => return .int (← mutateInt r table v.content)
  | .char => return ⟨.char, ← mutateChar r table v.content⟩
  | .array contains => return ⟨.array contains, .list (← mutateArray r table contains v.content)⟩
  | type =>
    if type = .stringObject then return .string (← mutateString r table v.content)
    else throw (.unmutatable type.encode)

end BytecodeBench.Fuzz
