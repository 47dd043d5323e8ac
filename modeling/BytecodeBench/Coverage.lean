import BytecodeBench.Datum.Access
import BytecodeBench.Position
import BytecodeBench.Text.Lowercase

/-!
Coverage of a run: a map of counters that saturate at 255. A run hits the cell of each instruction it
executes, and a comparison also hits the cells behind it, one for each leading part on which the two
sides agree.
-/

namespace BytecodeBench

/-- Counters of a run and the place that was hit last. -/
structure Coverage where
  cells : Array Nat
  last : Int
  deriving DecidableEq, Repr

namespace Coverage

def empty (size : Nat) : Coverage := ⟨Array.replicate size 0, 0⟩

def size (c : Coverage) : Nat := c.cells.size

/-- Counts one more hit of a cell. -/
def hit (c : Coverage) (place : Int) : Except Fault Coverage :=
  match Position.fromEitherEnd c.size place with
  | none => .error .badIndex
  | some i => .ok ⟨c.cells.modify i fun n => min (n + 1) 255, place⟩

/-- Hits one cell after the other, up to the first that is not there. -/
def hitAll (c : Coverage) : List Int → Coverage × Option Fault
  | [] => (c, none)
  | place :: rest =>
    match c.hit place with
    | .error e => (c, some e)
    | .ok c => c.hitAll rest

/-- The byte of a number that stands above the given number of bits. -/
def byteAt (n shift : Nat) : Nat := n / Nat.pow 2 shift % 256

/--
The cells behind a comparison of two integers, relative to its own: the fourth when both are not
negative, and then one for each of the three upper bytes up to the first that differs.
-/
def integerMarks (a b : Int) : List Int :=
  if 0 ≤ a ∧ 0 ≤ b then
    let agree := [24, 16, 8].takeWhile fun shift => byteAt a.toNat shift == byteAt b.toNat shift
    4 :: (List.range agree.length).map fun i : Nat => (i : Int) + 1
  else []

/-- Whether two data are numbers that are not negative. A negative left side settles it. -/
def bothNonNegative (a b : Datum) : Verdict := do
  if ← a.relate .lt (.int 0) then return false
  if ← a.relate .ge (.int 0) then b.relate .ge (.int 0) else return false

/-- Records the comparison of two integers at a place. Numbers that are not whole have no bytes to go
on with. -/
def compareIntegers (c : Coverage) (place : Int) (a b : Datum) : Coverage × Option Fault :=
  match bothNonNegative a b with
  | .error e => (c, some e)
  | .ok false => (c, none)
  | .ok true =>
    match a.integer?, b.integer? with
    | some a, some b => c.hitAll ((integerMarks a b).map (place + ·))
    | _, _ =>
      match c.hit (place + 4) with
      | .error e => (c, some e)
      | .ok c => (c, some .wrongNature)

/-- The length of the longest common beginning. -/
def commonLead {α : Type} (same : α → α → Bool) : List α → List α → Nat
  | a :: as, b :: bs => if same a b then commonLead same as bs + 1 else 0
  | _, _ => 0

/-- Records the comparison of two sequences at a place: one cell for each agreeing leading item. -/
def compareItems {α : Type} (same : α → α → Bool) (c : Coverage) (place : Int) (as bs : List α) :
    Coverage × Option Fault :=
  c.hitAll ((List.range (commonLead same as bs)).map fun i : Nat => place + 1 + i)

/-- Records the comparison of two texts at a place; other sequences count by their items, and a record
has none under a number. -/
def compareTexts (c : Coverage) (place : Int) (a b : Datum) : Coverage × Option Fault :=
  match a, b with
  | .text a, .text b => c.compareItems (· == ·) place a.toList b.toList
  | a, b =>
    match a.items?, b.items? with
    | some as, some bs =>
      match a, b with
      | .record _, _ | _, .record _ =>
        (c, if as.isEmpty || bs.isEmpty then none else some (.missingKey "0"))
      | _, _ => c.compareItems Datum.same place as bs
    | _, _ => (c, some .wrongNature)

/-- Records the comparison of two texts without regard to case. -/
def compareTextsIgnoringCase (c : Coverage) (place : Int) (a b : Datum) :
    Coverage × Option Fault :=
  match a, b with
  | .text a, .text b => c.compareTexts place (.text (Text.lower a)) (.text (Text.lower b))
  | _, _ => (c, some .noSuchPart)

/-- Forgets all hits. -/
def reset (c : Coverage) : Coverage := empty c.size

/-- The number of cells that were hit. -/
def score (c : Coverage) : Nat := (c.cells.filter (· ≠ 0)).size

/-- The cells that were hit with their counts. -/
def hits (c : Coverage) : List (Nat × Nat) :=
  (c.cells.toList.zipIdx.filter fun (n, _) => n ≠ 0).map fun (n, i) => (i, n)

/-- The class of a hit count. -/
def bucket (n : Int) : Nat :=
  if n ≤ 0 then 0
  else if n ≤ 1 then 1
  else if n ≤ 2 then 2
  else if n ≤ 4 then 3
  else if n ≤ 8 then 4
  else if n ≤ 16 then 5
  else if n ≤ 32 then 6
  else if n ≤ 128 then 7
  else 8

/-- The class of a number that need not be whole. -/
def bucketOf (d : Datum) : Except Fault Nat := do
  let above ← [0, 1, 2, 4, 8, 16, 32, 128].filterM fun bound =>
    (fun atMost => !atMost) <$> d.relate .le (.int bound)
  return above.length

/-- Whether a count adds something to what is known of its cell. -/
def exceeds (known count : Nat) : Bool :=
  count ≠ 0 && (known == 0 || bucket known < bucket count)

/-- Whether a run covers anything that is not yet known. -/
def isInteresting (run total : Coverage) : Bool :=
  (total.cells.toList.zip run.cells.toList).any fun (known, count) => exceeds known count

/-- What is known after a run: each cell takes the run's count where that adds something. -/
def merge (run total : Coverage) : Coverage :=
  { total with cells := total.cells.zipWith (fun known count =>
      if exceeds known count then count else known) run.cells }

/--
The place of an instruction offset in a map whose size is a power of two: the offset's lower bits.
For any other size it is the offset masked by one less than the size.
-/
def placeOf (offset : Int) (size : Nat) : Int :=
  if size = 0 then offset
  else
    let mask := size - 1
    if 0 ≤ offset then ((offset.toNat &&& mask : Nat) : Int)
    else ((mask ^^^ (((-offset - 1).toNat) &&& mask) : Nat) : Int)

end Coverage

end BytecodeBench
