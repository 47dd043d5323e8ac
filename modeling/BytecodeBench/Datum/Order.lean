import BytecodeBench.Datum.Basic
import BytecodeBench.Fault

/-!
Equality and order of data. Numbers compare by value whatever their form; sequences compare item by
item; data of different nature are unequal and have no order.
-/

namespace BytecodeBench

/-- One of the four order questions. -/
inductive Relation
  | lt
  | le
  | gt
  | ge
  deriving DecidableEq, Repr

namespace Relation

/-- The answer when the two sides are in the given order. -/
def holds : Relation → Ordering → Bool
  | lt, o => o.isLT
  | le, o => o.isLE
  | gt, o => o.isGT
  | ge, o => o.isGE

/-- The same question asked from the other side. -/
def swap : Relation → Relation
  | lt => gt
  | le => ge
  | gt => lt
  | ge => le

end Relation

/-- The answer to an order question, or why there is none. -/
abbrev Verdict := Except Fault Bool

/-- The first unequal component decides; equal components leave the question to equality. -/
def Relation.lexicographic (r : Relation) : List (Bool × Verdict) → Verdict
  | [] => .ok (r.holds .eq)
  | (equal, verdict) :: rest => if equal then r.lexicographic rest else verdict

namespace Datum

/-- The exact value of a number as `mantissa * 2 ^ exponent`, infinities and NaN apart. -/
inductive Magnitude
  | nan
  | infinity (negative : Bool)
  | finite (mantissa exponent : Int)

def magnitude? : Datum → Option Magnitude
  | flag b => some (.finite (if b then 1 else 0) 0)
  | int n => some (.finite n 0)
  | real x =>
    some <| match Decimal.Binary64.ofFloat x with
      | .nan => .nan
      | .infinity negative => .infinity negative
      | .finite negative significand exponent _ =>
        .finite (if negative then -(significand : Int) else significand) exponent
  | _ => none

/-- The order of two numbers; there is none if either is not a number. -/
def Magnitude.compare? : Magnitude → Magnitude → Option Ordering
  | .nan, _ => none
  | _, .nan => none
  | .infinity a, .infinity b => some (compare b a)
  | .infinity a, .finite _ _ => some (if a then .lt else .gt)
  | .finite _ _, .infinity b => some (if b then .gt else .lt)
  | .finite m e, .finite n f =>
    let low := min e f
    some (compare (m * Nat.pow 2 (e - low).toNat) (n * Nat.pow 2 (f - low).toNat))

mutual

/-- Equality of data. -/
def same : Datum → Datum → Bool
  | null, null => true
  | text a, text b => a == b
  | sign a, sign b => a == b
  | array a, array b => a == b
  | cycle, cycle => true
  | list a, list b => sameItems a b
  | tuple a, tuple b => sameItems a b
  | record a, record b => a.length == b.length && sameFields a b
  | a, b =>
    match a.magnitude?, b.magnitude? with
    | some x, some y => x.compare? y == some .eq
    | _, _ => false

def sameItems : List Datum → List Datum → Bool
  | [], [] => true
  | a :: as, b :: bs => same a b && sameItems as bs
  | _, _ => false

/-- Whether each field has an equal one of the same name on the other side. -/
def sameFields : List (String × Datum) → List (String × Datum) → Bool
  | [], _ => true
  | (name, value) :: rest, other =>
    (match other.lookup name with
      | some found => same value found
      | none => false) && sameFields rest other

end

mutual

/-- The order of two data. A sign is only ever below another one, and what it is asked to be below must
have the parts of a sign. -/
def relate (r : Relation) : Datum → Datum → Verdict
  | text a, text b => .ok (r.holds (compare a b))
  | sign a, b =>
    match r, b with
    | .le, sign b => .ok (a.below b)
    | .le, _ => .error .noSuchPart
    | .ge, sign b => .ok (b.below a)
    | _, _ => .error .noOrder
  | _, sign _ => .error (if r = .ge then .noSuchPart else .noOrder)
  | list a, list b => relateItems r a b
  | tuple a, tuple b => relateItems r a b
  | a, b =>
    match a.magnitude?, b.magnitude? with
    | some x, some y => .ok (match x.compare? y with
      | some o => r.holds o
      | none => false)
    | _, _ => .error .noOrder

/-- The order of two sequences: by the first unequal item, else by length. -/
def relateItems (r : Relation) : List Datum → List Datum → Verdict
  | [], bs => .ok (r.holds (compare 0 bs.length))
  | as, [] => .ok (r.holds (compare as.length 0))
  | a :: as, b :: bs => if same a b then relateItems r as bs else relate r a b

end

end Datum

end BytecodeBench
