import BytecodeBench.Datum.Arithmetic

/-!
Arrays that can be written to. A store keeps their items under handles, so that every holder of a
handle sees what is written; `resolve` replaces handles by what they stand for.
-/

namespace BytecodeBench

/-- The items of each array by handle. -/
structure ArrayStore where
  cells : Array (List Datum) := #[]

instance : Inhabited ArrayStore := ⟨{}⟩

namespace ArrayStore

/-- A new array. -/
def alloc (store : ArrayStore) (items : List Datum) : Datum × ArrayStore :=
  (.array store.cells.size, ⟨store.cells.push items⟩)

def items? (store : ArrayStore) (handle : Nat) : Option (List Datum) := store.cells[handle]?

def write (store : ArrayStore) (handle place : Nat) (item : Datum) : ArrayStore :=
  ⟨store.cells.modify handle fun items => items.set place item⟩

mutual

/-- Moves the lists within a datum to the store. -/
def load (store : ArrayStore) : Datum → Datum × ArrayStore
  | .list items =>
    let (items, store) := loadItems store items
    store.alloc items
  | .tuple items =>
    let (items, store) := loadItems store items
    (.tuple items, store)
  | d => (d, store)

def loadItems (store : ArrayStore) : List Datum → List Datum × ArrayStore
  | [] => ([], store)
  | item :: rest =>
    let (item, store) := load store item
    let (rest, store) := loadItems store rest
    (item :: rest, store)

end

end ArrayStore

mutual

/-- Replaces the handles within a datum. -/
def Datum.mapArrays (f : Nat → Datum) : Datum → Datum
  | .array handle => f handle
  | .list items => .list (Datum.mapArrayItems f items)
  | .tuple items => .tuple (Datum.mapArrayItems f items)
  | d => d

def Datum.mapArrayItems (f : Nat → Datum) : List Datum → List Datum
  | [] => []
  | item :: rest => Datum.mapArrays f item :: Datum.mapArrayItems f rest

end

namespace ArrayStore

/-- Resolves handles to a depth, those that are being resolved already being cycles. -/
def resolveTo (store : ArrayStore) : Nat → List Nat → Datum → Datum
  | 0, _, d => d.mapArrays fun _ => .cycle
  | depth + 1, enclosing, d =>
    d.mapArrays fun handle =>
      if handle ∈ enclosing then .cycle
      else
        match store.items? handle with
        | some items => .list (items.map (resolveTo store depth (handle :: enclosing)))
        | none => .cycle

/-- A datum without handles. The number of arrays bounds how deep they can stand in each other. -/
def resolve (store : ArrayStore) (d : Datum) : Datum :=
  match d with
  | .array _ | .list _ | .tuple _ => store.resolveTo (store.cells.size + 1) [] d
  | d => d

/-- The items of a sequence, which may be an array. -/
def sequence (store : ArrayStore) (d : Datum) : Except Fault (List Datum) :=
  match d with
  | .array handle => .ok ((store.items? handle).getD [])
  | d =>
    match d.items? with
    | some items => .ok items
    | none => .error .wrongNature

/-! Arithmetic, in which arrays take part: the result is a new array. -/

/-- Two arrays joined, or the sum of other data. -/
def add (store : ArrayStore) (a b : Datum) : Except Fault (Datum × ArrayStore) := do
  match a, b with
  | .array _, .array _ => return store.alloc ((← store.sequence a) ++ (← store.sequence b))
  | a, b => return (← Datum.add a b, store)

def sub (store : ArrayStore) (a b : Datum) : Except Fault (Datum × ArrayStore) := do
  return (← Datum.sub a b, store)

/-- An array so many times in a row, or the product of other data. -/
def mul (store : ArrayStore) (a b : Datum) : Except Fault (Datum × ArrayStore) := do
  let repeated (array count : Datum) : Except Fault (Datum × ArrayStore) := do
    match count.integer? with
    | some n => return store.alloc (List.replicate n.toNat (← store.sequence array)).flatten
    | none => throw .wrongNature
  match a, b with
  | .array _, count => repeated a count
  | count, .array _ => repeated b count
  | a, b => return (← Datum.mul a b, store)

end ArrayStore

end BytecodeBench
