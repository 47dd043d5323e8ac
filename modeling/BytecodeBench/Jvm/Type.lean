import BytecodeBench.Datum.Order
import BytecodeBench.Jvm.ClassName
import BytecodeBench.Position

/-!
Types of the virtual machine, their descriptors, and the reading of descriptors. A descriptor is any
number of `[` before a letter for a primitive type or before `L`, a class name and `;`. Descriptors
follow each other without separators, so reading returns what is left over.
-/

namespace BytecodeBench

/-- A type of the virtual machine. -/
inductive JvmType
  | boolean
  | int
  | byte
  | char
  | short
  | long
  | float
  | double
  /-- A reference to anything. -/
  | reference
  /-- The library's string type. -/
  | string
  | object (name : ClassName)
  | array (contains : JvmType)
  deriving DecidableEq, Repr

namespace JvmType

def encode : JvmType → String
  | boolean => "Z"
  | int => "I"
  | byte => "B"
  | char => "C"
  | short => "S"
  | long => "J"
  | float => "F"
  | double => "D"
  | reference => "A"
  | string => "Ljava/lang/String;"
  | object name => "L" ++ name.slashed ++ ";"
  | array contains => "[" ++ contains.encode

/-- The type as it stands before a value. -/
def math : JvmType → String
  | boolean => "bool"
  | int => "int"
  | byte => "byte"
  | char => "char"
  | short => "short"
  | long => "long"
  | float => "float"
  | double => "double"
  | reference => "ref"
  | string => "string"
  | object name => "object " ++ name.text
  | array contains => "array " ++ contains.math

/-- The type as a term. -/
def literal : JvmType → String
  | boolean => "Boolean()"
  | int => "Int()"
  | byte => "Byte()"
  | char => "Char()"
  | short => "Short()"
  | long => "Long()"
  | float => "Float()"
  | double => "Double()"
  | reference => "Reference()"
  | string => "String()"
  | object name => "Object(name=" ++ name.literal ++ ")"
  | array contains => "Array(contains=" ++ contains.literal ++ ")"

/-- Whether values of the type lie on an operand stack as they are. -/
def isStackType : JvmType → Bool
  | int | long | double | reference => true
  | _ => false

/-- The primitive type behind a letter. -/
def primitive? : Char → Option JvmType
  | 'Z' => some boolean
  | 'I' => some int
  | 'B' => some byte
  | 'C' => some char
  | 'S' => some short
  | 'J' => some long
  | 'F' => some float
  | 'D' => some double
  | _ => none

/-- Reads one descriptor; `whole` is the text a failure at the end reports. -/
def readFrom (whole : List Char) : List Char → Except Fault (JvmType × List Char)
  | [] => .error (.undecodableType (String.ofList whole))
  | '[' :: rest => do
    let (contains, rest) ← readFrom whole rest
    return (array contains, rest)
  | 'L' :: rest =>
    match rest.dropWhile (· ≠ ';') with
    | [] => .error .unterminatedClassName
    | _ :: after => .ok (object ⟨String.ofList (rest.takeWhile (· ≠ ';'))⟩, after)
  | c :: rest =>
    match primitive? c with
    | some t => .ok (t, rest)
    | none => .error (.unknownType c.toString)

/-- Reads one descriptor and returns what follows it. -/
def read (cs : List Char) : Except Fault (JvmType × List Char) := readFrom cs cs

theorem readFrom_shorter {whole cs rest : List Char} {t : JvmType}
    (done : readFrom whole cs = .ok (t, rest)) : rest.length < cs.length := by
  induction cs generalizing t rest with
  | nil => simp [readFrom] at done
  | cons c cs ih =>
    unfold readFrom at done
    split at done
    · simp at done
    · rename_i tail eq
      cases eq
      cases sub : readFrom whole cs with
      | error e => simp [sub, bind, Except.bind] at done
      | ok found =>
        obtain ⟨inner, after⟩ := found
        simp only [sub, bind, Except.bind, pure, Except.pure, Except.ok.injEq, Prod.mk.injEq] at done
        have := ih sub
        obtain ⟨-, rfl⟩ := done
        simp only [List.length_cons]
        omega
    · rename_i tail eq
      cases eq
      split at done
      · simp at done
      · rename_i mark after dropped
        simp only [Except.ok.injEq, Prod.mk.injEq] at done
        obtain ⟨-, rfl⟩ := done
        have bound := (List.dropWhile_sublist (fun d => decide (d ≠ ';')) (l := cs)).length_le
        rw [dropped] at bound
        simp only [List.length_cons] at bound ⊢
        omega
    · rename_i first tail _ _ eq
      cases eq
      split at done
      · simp only [Except.ok.injEq, Prod.mk.injEq] at done
        obtain ⟨-, rfl⟩ := done
        simp
      · simp at done

theorem read_shorter {cs rest : List Char} {t : JvmType} (done : read cs = .ok (t, rest)) :
    rest.length < cs.length :=
  readFrom_shorter done

/-- Reads one descriptor of a text. -/
def decode (s : String) : Except Fault (JvmType × String) := do
  let (t, rest) ← read s.toList
  return (t, String.ofList rest)

/-- Reads descriptors up to the end. -/
def readAll (cs : List Char) : Except Fault (List JvmType) :=
  match cs with
  | [] => .ok []
  | c :: tail =>
    match _step : read (c :: tail) with
    | .error e => .error e
    | .ok (t, rest) => do return t :: (← readAll rest)
termination_by cs.length
decreasing_by exact read_shorter _step

/-! Order -/

/-- Whether the type is ordered only among types of its own form. -/
def ordersAlone : JvmType → Bool
  | reference | string | object _ | array _ => true
  | _ => false

/--
The order that a primitive type takes part in: by descriptors, a type counting as less than itself.
-/
def relateByDescriptor (r : Relation) (a b : JvmType) : Bool :=
  let less := decide (a.encode ≤ b.encode)
  match r with
  | .lt => less
  | .le => less || a == b
  | .gt => !less && a != b
  | .ge => !less

/-- The order of two types. Two types that order alone and have different forms have none. -/
def relate (r : Relation) : JvmType → JvmType → Verdict
  | reference, reference => .ok (r.holds .eq)
  | string, string => .ok (r.holds .eq)
  | object a, object b => .ok (r.holds (compare a.text b.text))
  | array a, array b => if a = b then .ok (r.holds .eq) else relate r a b
  | a, b =>
    if !a.ordersAlone then .ok (relateByDescriptor r a b)
    else if b.ordersAlone then .error .noOrder
    else .ok (relateByDescriptor r.swap b a)

/-- The order of two types either of which may be absent. -/
def relateOptional (r : Relation) : Option JvmType → Option JvmType → Verdict
  | none, none => .error .noOrder
  | some a, some b => relate r a b
  | some t, none | none, some t => .error (if t.ordersAlone then .noOrder else .noSuchPart)

/-- The order of two lists of types: by the first unequal type, else by length. -/
def relateAll (r : Relation) : List JvmType → List JvmType → Verdict
  | [], bs => .ok (r.holds (compare 0 bs.length))
  | as, [] => .ok (r.holds (compare as.length 0))
  | a :: as, b :: bs => if a = b then relateAll r as bs else relate r a b

end JvmType

/-- The types of a method's parameters. -/
abbrev Parameters := List JvmType

namespace Parameters

def encode (ps : Parameters) : String := String.join (ps.map JvmType.encode)

def decode (s : String) : Except Fault Parameters := JvmType.readAll s.toList

/-- The parameter at a position; a negative one counts from the end. -/
def item (ps : Parameters) (i : Int) : Except Fault JvmType :=
  match (Position.fromEitherEnd ps.length i).bind (ps[·]?) with
  | some type => .ok type
  | none => .error .badIndex

/-- The word that stands for parameters before a value. -/
def math (_ : Parameters) : String := "double"

def literal (ps : Parameters) : String :=
  "ParameterType(_elements=" ++ Datum.tupleText (ps.map JvmType.literal) ++ ")"

end Parameters

end BytecodeBench
