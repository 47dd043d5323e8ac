import BytecodeBench.Fault

/-!
Sorting by a comparison that can fail. Sorting fails if two items are compared that cannot be, and which
ones are compared is left to the procedure. `sort` is one such procedure: it finds the longest sorted
beginning, then puts each further item in its place by bisection.
-/

namespace BytecodeBench.Sorting

/-- A way to sort by any comparison. -/
abbrev Procedure (α : Type) := (α → α → Except Fault Bool) → List α → Except Fault (List α)

variable {α : Type}

/-- Where an item goes among sorted items: behind all that are not greater. -/
def place (less : α → α → Except Fault Bool) (items : List α) (item : α) (low high : Nat) :
    Except Fault Nat :=
  if _open : low < high then
    let middle := low + (high - low) / 2
    match items[middle]? with
    | none => .ok low
    | some other => do
      if ← less item other then place less items item low middle
      else place less items item (middle + 1) high
  else .ok low
termination_by high - low

/-- Puts an item in its place among sorted items. -/
def insert (less : α → α → Except Fault Bool) (items : List α) (item : α) :
    Except Fault (List α) := do
  let i ← place less items item 0 items.length
  return items.take i ++ item :: items.drop i

def insertAll (less : α → α → Except Fault Bool) (sorted : List α) :
    List α → Except Fault (List α)
  | [] => .ok sorted
  | item :: rest => do insertAll less (← insert less sorted item) rest

/--
Splits off the longest beginning in which each item is less than the one before (`falling`), or in
which none is, and returns it with its last item first.
-/
def run (less : α → α → Except Fault Bool) (falling : Bool) (last : α) (before : List α) :
    List α → Except Fault (List α × List α)
  | [] => .ok (last :: before, [])
  | item :: rest => do
    if (← less item last) = falling then run less falling item (last :: before) rest
    else return (last :: before, item :: rest)

/-- Sorts, keeping the order of items of which neither is less. -/
def sort (less : α → α → Except Fault Bool) : List α → Except Fault (List α)
  | [] => .ok []
  | [item] => .ok [item]
  | first :: second :: rest => do
    let falling ← less second first
    let (reversed, rest) ← run less falling second [first] rest
    insertAll less (if falling then reversed else reversed.reverse) rest

end BytecodeBench.Sorting
