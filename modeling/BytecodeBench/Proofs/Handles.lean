import BytecodeBench.Machine.Plain
import BytecodeBench.Proofs.Computations
import Mathlib.Data.Finset.Card

/-! Handles of arrays. The numbers under which a store keeps its arrays mean nothing: when a store gets more
arrays and later handles move up, everything that is read through the handles stays the same. -/

namespace BytecodeBench

namespace Datum

def IsAtom : Datum → Prop
  | .array _ | .list _ | .tuple _ => False
  | _ => True

/-- Induction over the sequences within a datum. -/
@[elab_as_elim]
theorem inItems {motive : Datum → Prop} (array : ∀ handle, motive (.array handle))
    (list : ∀ items, (∀ d ∈ items, motive d) → motive (.list items))
    (tuple : ∀ items, (∀ d ∈ items, motive d) → motive (.tuple items))
    (atom : ∀ d, d.IsAtom → motive d) (d : Datum) : motive d :=
  match d with
  | .array handle => array handle
  | .list items => list items fun d _ => inItems array list tuple atom d
  | .tuple items => tuple items fun d _ => inItems array list tuple atom d
  | .null => atom _ trivial
  | .flag _ => atom _ trivial
  | .int _ => atom _ trivial
  | .real _ => atom _ trivial
  | .text _ => atom _ trivial
  | .record _ => atom _ trivial
  | .sign _ => atom _ trivial
  | .cycle => atom _ trivial

mutual

def Below (bound : Nat) : Datum → Prop
  | .array handle => handle < bound
  | .list items => AllBelow bound items
  | .tuple items => AllBelow bound items
  | _ => True

def AllBelow (bound : Nat) : List Datum → Prop
  | [] => True
  | item :: rest => item.Below bound ∧ AllBelow bound rest

end

def rename (name : Nat → Nat) (d : Datum) : Datum := d.mapArrays fun handle => .array (name handle)

variable {d : Datum} {bound : Nat} {name : Nat → Nat} {f g : Nat → Datum}

private theorem mapArrayItems_eq (f : Nat → Datum) (items : List Datum) :
    mapArrayItems f items = items.map (mapArrays f) := by
  induction items with
  | nil => rfl
  | cons item rest ih => rw [mapArrayItems, ih, List.map_cons]

private theorem allBelow_iff {items : List Datum} : AllBelow bound items ↔ ∀ d ∈ items, d.Below bound := by
  induction items with
  | nil => simp [AllBelow]
  | cons item rest ih => rw [AllBelow, ih, List.forall_mem_cons]

theorem IsAtom.mapArrays (atom : d.IsAtom) (f : Nat → Datum) : d.mapArrays f = d := by
  cases d <;> first | rfl | exact atom.elim

theorem IsAtom.below (atom : d.IsAtom) (bound : Nat) : d.Below bound := by
  cases d <;> trivial

theorem IsAtom.rename (atom : d.IsAtom) (name : Nat → Nat) : d.rename name = d := atom.mapArrays _

@[simp] theorem mapArrays_list (f : Nat → Datum) (items : List Datum) :
    mapArrays f (.list items) = .list (items.map (mapArrays f)) := by
  rw [mapArrays, mapArrayItems_eq]

@[simp] theorem mapArrays_tuple (f : Nat → Datum) (items : List Datum) :
    mapArrays f (.tuple items) = .tuple (items.map (mapArrays f)) := by
  rw [mapArrays, mapArrayItems_eq]

theorem below_list {items : List Datum} : (Datum.list items).Below bound ↔ ∀ d ∈ items, d.Below bound := allBelow_iff

theorem below_tuple {items : List Datum} : (Datum.tuple items).Below bound ↔ ∀ d ∈ items, d.Below bound := allBelow_iff

private theorem mapArrays_congr (same : ∀ handle < bound, f handle = g handle) (below : d.Below bound) :
    d.mapArrays f = d.mapArrays g := by
  induction d using inItems with
  | array handle => exact same handle below
  | list items ih =>
    rw [mapArrays_list, mapArrays_list]
    exact congrArg list (List.map_congr_left fun d member => ih d member (below_list.mp below d member))
  | tuple items ih =>
    rw [mapArrays_tuple, mapArrays_tuple]
    exact congrArg tuple (List.map_congr_left fun d member => ih d member (below_tuple.mp below d member))
  | atom d atom => rw [atom.mapArrays, atom.mapArrays]

theorem mapArrays_rename (f : Nat → Datum) (d : Datum) :
    (d.rename name).mapArrays f = d.mapArrays fun handle => f (name handle) := by
  unfold rename
  induction d using inItems with
  | array handle => rfl
  | list items ih =>
    simp only [mapArrays_list, List.map_map, list.injEq]
    exact List.map_congr_left ih
  | tuple items ih =>
    simp only [mapArrays_tuple, List.map_map, tuple.injEq]
    exact List.map_congr_left ih
  | atom d atom => simp only [atom.mapArrays]

theorem mapArrays_array (d : Datum) : d.mapArrays .array = d := by
  induction d using inItems with
  | array handle => rfl
  | list items ih =>
    rw [mapArrays_list, List.map_congr_left ih, List.map_id']
  | tuple items ih =>
    rw [mapArrays_tuple, List.map_congr_left ih, List.map_id']
  | atom d atom => exact atom.mapArrays _

theorem Below.rename (below : d.Below bound) (fixes : ∀ handle < bound, name handle = handle) : d.rename name = d :=
  (mapArrays_congr (fun handle inside => congrArg array (fixes handle inside)) below).trans (mapArrays_array d)

theorem Below.mono {larger : Nat} (below : d.Below bound) (le : bound ≤ larger) : d.Below larger := by
  induction d using inItems with
  | array handle => exact Nat.lt_of_lt_of_le below le
  | list items ih => exact below_list.mpr fun d member => ih d member (below_list.mp below d member)
  | tuple items ih => exact below_tuple.mpr fun d member => ih d member (below_tuple.mp below d member)
  | atom d atom => exact atom.below larger

theorem Below.items? {items : List Datum} (below : d.Below bound) (found : d.items? = some items) :
    ∀ item ∈ items, item.Below bound := by
  cases d with
  | list held =>
    cases found
    exact below_list.mp below
  | tuple held =>
    cases found
    exact below_tuple.mp below
  | text text =>
    cases found
    intro item member
    obtain ⟨c, -, rfl⟩ := List.mem_map.mp member
    trivial
  | record fields =>
    cases found
    intro item member
    obtain ⟨field, -, rfl⟩ := List.mem_map.mp member
    trivial
  | _ => cases found

/-! Arithmetic on data. -/

@[simp] theorem integer?_rename (name : Nat → Nat) (d : Datum) : (d.rename name).integer? = d.integer? := by
  cases d <;> rfl

@[simp] theorem toFloat?_rename (name : Nat → Nat) (d : Datum) : (d.rename name).toFloat? = d.toFloat? := by
  cases d <;> rfl

theorem onNumbers_atom (ints : Int → Int → Int) (reals : Float → Float → Float) (x y : Datum) :
    Yields IsAtom (onNumbers ints reals x y) := by
  unfold onNumbers
  split
  · exact .pure trivial
  · split
    · split
      · exact .throw
      · exact .pure trivial
    · exact .throw

theorem onNumbers_rename (ints : Int → Int → Int) (reals : Float → Float → Float) (x y : Datum) :
    onNumbers ints reals (x.rename name) (y.rename name) = (onNumbers ints reals x y).map (rename name) := by
  have same : onNumbers ints reals (x.rename name) (y.rename name) = onNumbers ints reals x y := by
    simp only [onNumbers, isBeyondFloats, integer?_rename, toFloat?_rename]
    rfl
  rw [same]
  cases done : onNumbers ints reals x y with
  | error e => rfl
  | ok d => exact congrArg Except.ok ((onNumbers_atom ints reals x y d done).rename name).symm

theorem add_rename (x y : Datum) : (x.rename name).add (y.rename name) = (x.add y).map (rename name) := by
  have numbers : onNumbers (· + ·) (· + ·) (x.rename name) (y.rename name) =
      (onNumbers (· + ·) (· + ·) x y).map (rename name) := onNumbers_rename _ _ x y
  cases x with
  | text => cases y <;> rfl
  | tuple items =>
    cases y with
    | tuple others => simp [rename, add, Except.map]
    | _ => rfl
  | _ => exact numbers

private theorem repeated_rename (d : Datum) (count : Int) :
    (d.rename name).repeated count = (d.repeated count).map (rename name) := by
  cases d with
  | tuple items => simp [rename, repeated, List.map_flatten]
  | _ => rfl

theorem mul_rename (x y : Datum) : (x.rename name).mul (y.rename name) = (x.mul y).map (rename name) := by
  have left : y.integer?.bind (x.rename name).repeated = (y.integer?.bind x.repeated).map (rename name) := by
    cases y.integer? with
    | none => rfl
    | some n => exact repeated_rename x n
  have right : x.integer?.bind (y.rename name).repeated = (x.integer?.bind y.repeated).map (rename name) := by
    cases x.integer? with
    | none => rfl
    | some n => exact repeated_rename y n
  unfold mul
  rw [integer?_rename, integer?_rename, left, right]
  cases y.integer?.bind x.repeated with
  | some d => rfl
  | none =>
    cases x.integer?.bind y.repeated with
    | some d => rfl
    | none => exact onNumbers_rename _ _ x y

theorem add_below {x y : Datum} (left : x.Below bound) (right : y.Below bound) : Yields (Below bound) (x.add y) := by
  unfold add
  split
  · exact .pure trivial
  · refine .pure (below_tuple.mpr ?_)
    rw [List.forall_mem_append]
    exact ⟨below_tuple.mp left, below_tuple.mp right⟩
  · exact (onNumbers_atom _ _ _ _).weaken fun d atom => atom.below bound

private theorem repeated_below {count : Int} {result : Datum} (below : d.Below bound)
    (done : d.repeated count = some result) :
    result.Below bound := by
  cases d <;> cases done
  · trivial
  · apply below_tuple.mpr
    intro item member
    obtain ⟨copy, copies, inside⟩ := List.mem_flatten.mp member
    obtain rfl := List.eq_of_mem_replicate copies
    exact below_tuple.mp below item inside

theorem mul_below {x y : Datum} (left : x.Below bound) (right : y.Below bound) : Yields (Below bound) (x.mul y) := by
  unfold mul
  split
  next found =>
    obtain ⟨n, -, done⟩ := Option.bind_eq_some_iff.mp found
    exact .pure (repeated_below left done)
  next found =>
    obtain ⟨n, -, done⟩ := Option.bind_eq_some_iff.mp found
    exact .pure (repeated_below right done)
  · exact (onNumbers_atom _ _ _ _).weaken fun d atom => atom.below bound

end Datum

/-- The handles from the first one on move up to leave a gap. -/
def shift (first gap handle : Nat) : Nat := if handle < first then handle else handle + gap

theorem shift_inj {first gap a b : Nat} : shift first gap a = shift first gap b ↔ a = b := by
  unfold shift
  split <;> split <;> omega

theorem shift_zero (first : Nat) : shift first 0 = id := by
  funext handle
  unfold shift
  split <;> rfl

namespace ArrayStore

variable {first gap : Nat} {a b : ArrayStore}

/-- The arrays of a store mention no handles but those of the store. -/
def Sealed (store : ArrayStore) : Prop :=
  ∀ handle items, store.items? handle = some items → ∀ d ∈ items, d.Below store.cells.size

/-- The second store has the arrays of the first one with a gap between them. -/
structure Shifted (first gap : Nat) (a b : ArrayStore) : Prop where
  room : first ≤ a.cells.size
  size : b.cells.size = a.cells.size + gap
  items : ∀ handle, b.items? (shift first gap handle) = (a.items? handle).map (List.map (Datum.rename (shift first gap)))

theorem items?_bound {store : ArrayStore} {handle : Nat} {items : List Datum} (found : store.items? handle = some items) :
    handle < store.cells.size :=
  (Array.getElem?_eq_some_iff.mp found).1

theorem Shifted.refl (room : first ≤ a.cells.size) : Shifted first 0 a a where
  room := room
  size := rfl
  items := by
    intro handle
    have same : Datum.rename id = id := funext Datum.mapArrays_array
    rw [shift_zero, same, List.map_id_fun, Option.map_id]
    rfl

/-- A store that all arrays of another one begin is that store shifted by nothing but the gap at its end. -/
theorem Shifted.of_extends (sealed : a.Sealed) (size : b.cells.size = a.cells.size + gap)
    (begins : ∀ handle < a.cells.size, b.items? handle = a.items? handle) : Shifted a.cells.size gap a b where
  room := Nat.le_refl _
  size := size
  items := by
    intro handle
    by_cases inside : handle < a.cells.size
    · rw [show shift a.cells.size gap handle = handle from if_pos inside, begins handle inside]
      cases found : a.items? handle with
      | none => rfl
      | some items =>
        have fixed : items.map (Datum.rename (shift a.cells.size gap)) = items := by
          refine (List.map_congr_left fun d member => ?_).trans (List.map_id' items)
          exact (sealed handle items found d member).rename fun handle inside => if_pos inside
        rw [Option.map_some, fixed]
    · have missing : a.items? handle = none := Array.getElem?_eq_none (Nat.le_of_not_lt inside)
      have beyond : b.items? (handle + gap) = none := Array.getElem?_eq_none (by omega)
      rw [show shift a.cells.size gap handle = handle + gap from if_neg inside, missing, beyond, Option.map_none]

/-! Reading. -/

theorem resolve_eq (store : ArrayStore) (d : Datum) : store.resolve d = store.resolveTo (store.cells.size + 1) [] d := by
  unfold resolve
  split
  · rfl
  · rfl
  · rfl
  next array list tuple =>
    have atom : d.IsAtom := by
      cases d <;> first | trivial | exact (array _ rfl).elim | exact (list _ rfl).elim | exact (tuple _ rfl).elim
    unfold resolveTo
    exact (atom.mapArrays _).symm

private theorem resolveTo_shifted (shifted : Shifted first gap a b) (depth : Nat) (enclosing : List Nat) (d : Datum) :
    b.resolveTo depth (enclosing.map (shift first gap)) (d.rename (shift first gap)) = a.resolveTo depth enclosing d := by
  induction depth generalizing enclosing d with
  | zero => exact Datum.mapArrays_rename _ d
  | succ depth ih =>
    unfold resolveTo
    rw [Datum.mapArrays_rename]
    congr 1
    funext handle
    have cycles : shift first gap handle ∈ enclosing.map (shift first gap) ↔ handle ∈ enclosing := by
      simp [shift_inj]
    rw [shifted.items]
    cases a.items? handle with
    | none => simp only [Option.map_none, cycles]
    | some items =>
      simp only [Option.map_some, cycles, List.map_map]
      refine if_congr Iff.rfl rfl (congrArg Datum.list (List.map_congr_left fun d _ => ?_))
      exact ih (handle :: enclosing) d

/-- Handles that are all taken leave none to follow. -/
theorem mem_of_full {size : Nat} {enclosing : List Nat} (distinct : enclosing.Nodup) (inside : ∀ handle ∈ enclosing, handle < size)
    (full : size ≤ enclosing.length) {handle : Nat} (bound : handle < size) : handle ∈ enclosing := by
  have within : enclosing.toFinset ⊆ Finset.range size := by
    intro handle member
    exact Finset.mem_range.mpr (inside handle (List.mem_toFinset.mp member))
  have all : enclosing.toFinset = Finset.range size := by
    apply Finset.eq_of_subset_of_card_le within
    rw [Finset.card_range, List.toFinset_card_of_nodup distinct]
    exact full
  exact List.mem_toFinset.mp (all ▸ Finset.mem_range.mpr bound)

/-- As deep as there are arrays is deep enough. -/
theorem resolveTo_deeper (store : ArrayStore) (depth : Nat) (enclosing : List Nat) (d : Datum) (distinct : enclosing.Nodup)
    (inside : ∀ handle ∈ enclosing, handle < store.cells.size) (enough : store.cells.size ≤ depth + enclosing.length) :
    store.resolveTo (depth + 1) enclosing d = store.resolveTo depth enclosing d := by
  induction depth generalizing enclosing d with
  | zero =>
    unfold resolveTo
    congr 1
    funext handle
    split
    · rfl
    next fresh =>
      cases found : store.items? handle with
      | none => rfl
      | some items =>
        exact (fresh (mem_of_full distinct inside (by omega) (items?_bound found))).elim
  | succ depth ih =>
    rw [resolveTo, resolveTo]
    congr 1
    funext handle
    split
    · rfl
    next fresh =>
      cases found : store.items? handle with
      | none => rfl
      | some items =>
        refine congrArg Datum.list (List.map_congr_left fun d _ => ?_)
        apply ih
        · exact List.nodup_cons.mpr ⟨fresh, distinct⟩
        · exact List.forall_mem_cons.mpr ⟨items?_bound found, inside⟩
        · rw [List.length_cons]
          omega

private theorem resolveTo_enough (store : ArrayStore) (more : Nat) (d : Datum) :
    store.resolveTo (store.cells.size + 1 + more) [] d = store.resolve d := by
  rw [resolve_eq]
  induction more with
  | zero => rfl
  | succ more ih =>
    rw [← ih]
    exact resolveTo_deeper store _ [] d List.nodup_nil (by simp) (by simp; omega)

/-- What data stand for does not depend on the numbers of handles. -/
theorem Shifted.resolve (shifted : Shifted first gap a b) (d : Datum) :
    b.resolve (d.rename (shift first gap)) = a.resolve d := by
  rw [resolve_eq, shifted.size, ← resolveTo_enough a gap d, Nat.add_right_comm]
  exact resolveTo_shifted shifted _ [] d

theorem Shifted.sequence (shifted : Shifted first gap a b) (d : Datum) :
    b.sequence (d.rename (shift first gap)) = (a.sequence d).map (List.map (Datum.rename (shift first gap))) := by
  cases d with
  | array handle =>
    change Except.ok ((b.items? (shift first gap handle)).getD []) = Except.ok (((a.items? handle).getD []).map _)
    rw [shifted.items]
    cases a.items? handle <;> rfl
  | list items => simp [Datum.rename, ArrayStore.sequence, Datum.items?, Except.map]
  | tuple items => simp [Datum.rename, ArrayStore.sequence, Datum.items?, Except.map]
  | text text =>
    change Except.ok (text.toList.map _) = Except.ok ((text.toList.map _).map _)
    rw [List.map_map]
    rfl
  | record fields =>
    change Except.ok (fields.map _) = Except.ok ((fields.map _).map _)
    rw [List.map_map]
    rfl
  | _ => rfl

theorem sequence_below (sealed : a.Sealed) {d : Datum} (below : d.Below a.cells.size) :
    Yields (fun items => ∀ item ∈ items, item.Below a.cells.size) (a.sequence d) := by
  intro items done
  cases d with
  | array handle =>
    cases done
    cases found : a.items? handle with
    | none => simp
    | some items => exact sealed handle items found
  | list items | tuple items | text text | record fields =>
    cases done
    exact below.items? rfl
  | _ => cases done

/-! Writing. -/

structure Extends (a b : ArrayStore) : Prop where
  size : a.cells.size ≤ b.cells.size
  items : ∀ handle < a.cells.size, b.items? handle = a.items? handle

theorem Extends.refl (a : ArrayStore) : a.Extends a := ⟨Nat.le_refl _, fun _ _ => rfl⟩

theorem Extends.trans {c : ArrayStore} (first : a.Extends b) (second : b.Extends c) : a.Extends c where
  size := Nat.le_trans first.size second.size
  items := by
    intro handle inside
    rw [second.items handle (Nat.lt_of_lt_of_le inside first.size), first.items handle inside]

/-- How a store changes over time: no array is taken away, and if nothing is written all arrays stay as they are. -/
structure Evolves (readOnly : Prop) (a b : ArrayStore) : Prop where
  size : a.cells.size ≤ b.cells.size
  kept : readOnly → a.Extends b

theorem Extends.evolves (grown : a.Extends b) (readOnly : Prop) : a.Evolves readOnly b := ⟨grown.size, fun _ => grown⟩

theorem Evolves.refl (readOnly : Prop) (a : ArrayStore) : a.Evolves readOnly a := (Extends.refl a).evolves readOnly

theorem Evolves.weaken {readOnly other : Prop} (evolves : a.Evolves readOnly b) (implies : other → readOnly) :
    a.Evolves other b :=
  ⟨evolves.size, fun reads => evolves.kept (implies reads)⟩

theorem Evolves.trans {readOnly : Prop} {c : ArrayStore} (first : a.Evolves readOnly b) (second : b.Evolves readOnly c) :
    a.Evolves readOnly c :=
  ⟨Nat.le_trans first.size second.size, fun reads => (first.kept reads).trans (second.kept reads)⟩

/-- The result of an operation and the store it leaves, next to those of the operation on a shifted store. -/
structure Produced (first gap : Nat) (before : ArrayStore) (result other : Datum × ArrayStore) : Prop where
  value : other.1 = result.1.rename (shift first gap)
  below : result.1.Below result.2.cells.size
  shifted : Shifted first gap result.2 other.2
  sealed : result.2.Sealed
  grown : before.Extends result.2

theorem items?_alloc (store : ArrayStore) (items : List Datum) (handle : Nat) :
    (store.alloc items).2.items? handle = if handle = store.cells.size then some items else store.items? handle :=
  Array.getElem?_push

theorem size_alloc (store : ArrayStore) (items : List Datum) : (store.alloc items).2.cells.size = store.cells.size + 1 :=
  Array.size_push items

theorem extends_alloc (store : ArrayStore) (items : List Datum) : store.Extends (store.alloc items).2 where
  size := by
    rw [size_alloc]
    exact Nat.le_succ _
  items := by
    intro handle inside
    rw [items?_alloc, if_neg (Nat.ne_of_lt inside)]

theorem Sealed.alloc (sealed : a.Sealed) {items : List Datum} (below : ∀ item ∈ items, item.Below a.cells.size) :
    (a.alloc items).2.Sealed := by
  intro handle found there d member
  rw [items?_alloc] at there
  rw [size_alloc]
  split at there
  · cases there
    exact (below d member).mono (Nat.le_succ _)
  · exact (sealed handle found there d member).mono (Nat.le_succ _)

theorem Shifted.alloc (shifted : Shifted first gap a b) (items : List Datum) :
    Shifted first gap (a.alloc items).2 (b.alloc (items.map (Datum.rename (shift first gap)))).2 where
  room := by
    rw [size_alloc]
    exact Nat.le_succ_of_le shifted.room
  size := by
    rw [size_alloc, size_alloc, shifted.size, Nat.add_right_comm]
  items := by
    intro handle
    have last : shift first gap handle = b.cells.size ↔ handle = a.cells.size := by
      have moved : shift first gap a.cells.size = b.cells.size := by
        rw [shifted.size]
        exact if_neg (Nat.not_lt.mpr shifted.room)
      rw [← moved, shift_inj]
    rw [items?_alloc, items?_alloc, shifted.items]
    simp only [last]
    split <;> rfl

theorem items?_write (store : ArrayStore) (handle place : Nat) (item : Datum) (other : Nat) :
    (store.write handle place item).items? other =
      if handle = other then (store.items? other).map (·.set place item) else store.items? other :=
  Array.getElem?_modify

theorem size_write (store : ArrayStore) (handle place : Nat) (item : Datum) :
    (store.write handle place item).cells.size = store.cells.size :=
  Array.size_modify

theorem Sealed.write (sealed : a.Sealed) (handle place : Nat) {item : Datum} (below : item.Below a.cells.size) :
    (a.write handle place item).Sealed := by
  intro other items found d member
  rw [size_write]
  rw [items?_write] at found
  split at found
  · obtain ⟨old, there, rfl⟩ := Option.map_eq_some_iff.mp found
    rcases List.mem_or_eq_of_mem_set member with before | rfl
    · exact sealed other old there d before
    · exact below
  · exact sealed other items found d member

theorem Shifted.write (shifted : Shifted first gap a b) (handle place : Nat) (item : Datum) :
    Shifted first gap (a.write handle place item)
      (b.write (shift first gap handle) place (item.rename (shift first gap))) where
  room := by
    rw [size_write]
    exact shifted.room
  size := by
    rw [size_write, size_write]
    exact shifted.size
  items := by
    intro other
    rw [items?_write, items?_write, shifted.items]
    simp only [shift_inj]
    split
    · cases a.items? other with
      | none => rfl
      | some items => exact congrArg some List.map_set.symm
    · rfl

section Operations

variable (shifted : Shifted first gap a b) (sealed : a.Sealed)
include shifted sealed

private theorem alloc_produced {items : List Datum} (below : ∀ item ∈ items, item.Below a.cells.size) :
    Produced first gap a (a.alloc items) (b.alloc (items.map (Datum.rename (shift first gap)))) where
  value := by
    change Datum.array b.cells.size = .array (shift first gap a.cells.size)
    rw [shifted.size]
    exact congrArg Datum.array (if_neg (Nat.not_lt.mpr shifted.room)).symm
  below := by
    rw [size_alloc]
    exact Nat.lt_succ_self _
  shifted := shifted.alloc items
  sealed := sealed.alloc below
  grown := extends_alloc a items

private theorem unchanged_produced {d : Datum} (below : d.Below a.cells.size) :
    Produced first gap a (d, a) (d.rename (shift first gap), b) :=
  ⟨rfl, below, shifted, sealed, .refl a⟩

theorem lifted_produced {x y : Except Fault Datum} (same : y = x.map (Datum.rename (shift first gap)))
    (below : Yields (Datum.Below a.cells.size) x) (result : Datum × ArrayStore)
    (done : (do return (← x, a) : Except Fault (Datum × ArrayStore)) = .ok result) :
    ∃ other, (do return (← y, b) : Except Fault (Datum × ArrayStore)) = .ok other ∧ Produced first gap a result other := by
  obtain ⟨d, given, last⟩ := bind_eq_ok.mp done
  cases last
  rw [same, given]
  exact ⟨_, rfl, unchanged_produced shifted sealed (below d given)⟩

private theorem add_produced {x y : Datum} (left : x.Below a.cells.size) (right : y.Below a.cells.size)
    {result : Datum × ArrayStore} (done : a.add x y = .ok result) :
    ∃ other, b.add (x.rename (shift first gap)) (y.rename (shift first gap)) = .ok other ∧
      Produced first gap a result other := by
  have plain := lifted_produced shifted sealed (Datum.add_rename x y) (Datum.add_below left right) result
  cases x with
  | array i =>
    cases y with
    | array j =>
      obtain ⟨xs, ahead, rest⟩ := bind_eq_ok.mp done
      obtain ⟨ys, behind, last⟩ := bind_eq_ok.mp rest
      cases last
      have below := List.forall_mem_append.mpr
        ⟨sequence_below sealed left xs ahead, sequence_below sealed right ys behind⟩
      refine ⟨_, ?_, alloc_produced shifted sealed below⟩
      change (do return b.alloc ((← b.sequence ((Datum.array i).rename _)) ++ (← b.sequence ((Datum.array j).rename _)))) = _
      rw [shifted.sequence, shifted.sequence, ahead, behind, List.map_append]
      rfl
    | _ => exact plain done
  | _ => exact plain done

private theorem sub_produced {x y : Datum} {result : Datum × ArrayStore} (done : a.sub x y = .ok result) :
    ∃ other, b.sub (x.rename (shift first gap)) (y.rename (shift first gap)) = .ok other ∧
      Produced first gap a result other :=
  lifted_produced shifted sealed (Datum.onNumbers_rename _ _ x y)
    ((Datum.onNumbers_atom _ _ x y).weaken fun _ atom => atom.below _) result done

private theorem repeated_produced (handle : Nat) (count : Datum) (result : Datum × ArrayStore)
    (below : (Datum.array handle).Below a.cells.size)
    (done : (match count.integer? with
      | some n => do return a.alloc (List.replicate n.toNat (← a.sequence (.array handle))).flatten
      | none => throw .wrongNature : Except Fault (Datum × ArrayStore)) = .ok result) :
    ∃ other, (match (count.rename (shift first gap)).integer? with
      | some n => do return b.alloc (List.replicate n.toNat (← b.sequence ((Datum.array handle).rename (shift first gap)))).flatten
      | none => throw .wrongNature : Except Fault (Datum × ArrayStore)) = .ok other ∧ Produced first gap a result other := by
  rw [Datum.integer?_rename]
  cases counted : count.integer? with
  | none =>
    rw [counted] at done
    cases done
  | some n =>
    rw [counted] at done
    obtain ⟨items, found, last⟩ := bind_eq_ok.mp done
    cases last
    have copies : ∀ item ∈ (List.replicate n.toNat items).flatten, item.Below a.cells.size := by
      intro item member
      obtain ⟨copy, copies, inside⟩ := List.mem_flatten.mp member
      obtain rfl := List.eq_of_mem_replicate copies
      exact sequence_below sealed below copy found item inside
    refine ⟨_, ?_, alloc_produced shifted sealed copies⟩
    simp only [shifted.sequence, found, List.map_flatten, List.map_replicate]
    rfl

private theorem mul_produced {x y : Datum} (left : x.Below a.cells.size) (right : y.Below a.cells.size)
    {result : Datum × ArrayStore} (done : a.mul x y = .ok result) :
    ∃ other, b.mul (x.rename (shift first gap)) (y.rename (shift first gap)) = .ok other ∧
      Produced first gap a result other := by
  have plain := lifted_produced shifted sealed (Datum.mul_rename x y) (Datum.mul_below left right) result
  have counted (handle : Nat) := repeated_produced shifted sealed handle x result
  cases x with
  | array i => exact repeated_produced shifted sealed i y result left done
  | _ =>
    cases y with
    | array j => exact counted j right done
    | _ => exact plain done

theorem combine?_produced {operator : Operator} {op : ArrayStore → Datum → Datum → Except Fault (Datum × ArrayStore)}
    (combines : State.combine? operator = some op) {x y : Datum} (left : x.Below a.cells.size)
    (right : y.Below a.cells.size) {result : Datum × ArrayStore} (done : op a x y = .ok result) :
    ∃ other, op b (x.rename (shift first gap)) (y.rename (shift first gap)) = .ok other ∧
      Produced first gap a result other := by
  cases operator <;> cases combines
  · exact add_produced shifted sealed left right done
  · exact sub_produced shifted sealed done
  · exact mul_produced shifted sealed left right done

end Operations

/-! Loading. -/

theorem load_atom {d : Datum} (atom : d.IsAtom) (store : ArrayStore) : store.load d = (d, store) := by
  cases d <;> first | rfl | exact atom.elim

theorem loadItems_atoms {items : List Datum} (atoms : ∀ d ∈ items, d.IsAtom) (store : ArrayStore) :
    store.loadItems items = (items, store) := by
  induction items with
  | nil => rfl
  | cons d items ih =>
    obtain ⟨own, others⟩ := List.forall_mem_cons.mp atoms
    rw [loadItems, load_atom own]
    dsimp only
    rw [ih others]

structure Receives (store after : ArrayStore) (held : List Datum) : Prop where
  sealed : after.Sealed
  grown : store.Extends after
  below : ∀ d ∈ held, d.Below after.cells.size

theorem Receives.append {store middle after : ArrayStore} {held more : List Datum} (first : Receives store middle held)
    (rest : Receives middle after more) : Receives store after (held ++ more) where
  sealed := rest.sealed
  grown := first.grown.trans rest.grown
  below := List.forall_mem_append.mpr ⟨fun d member => (first.below d member).mono rest.grown.size, rest.below⟩

theorem Receives.unchanged {store : ArrayStore} {held : List Datum} (sealed : store.Sealed)
    (below : ∀ d ∈ held, d.Below store.cells.size) : Receives store store held :=
  ⟨sealed, .refl store, below⟩

private theorem loadItems_receives {items : List Datum}
    (loads : ∀ d ∈ items, ∀ store : ArrayStore, store.Sealed → d.Below store.cells.size →
      Receives store (store.load d).2 [(store.load d).1])
    {store : ArrayStore} (sealed : store.Sealed) (below : ∀ d ∈ items, d.Below store.cells.size) :
    Receives store (store.loadItems items).2 (store.loadItems items).1 := by
  induction items generalizing store with
  | nil => exact .unchanged sealed (List.forall_mem_nil _)
  | cons item rest ih =>
    obtain ⟨loadsItem, loadsRest⟩ := List.forall_mem_cons.mp loads
    obtain ⟨belowItem, belowRest⟩ := List.forall_mem_cons.mp below
    have first := loadsItem store sealed belowItem
    exact first.append (ih loadsRest first.sealed fun d member => (belowRest d member).mono first.grown.size)

theorem load_receives (d : Datum) (store : ArrayStore) (sealed : store.Sealed) (below : d.Below store.cells.size) :
    Receives store (store.load d).2 [(store.load d).1] := by
  induction d using Datum.inItems generalizing store with
  | array handle => exact .unchanged sealed (List.forall_mem_singleton.mpr below)
  | list items ih =>
    have inner := loadItems_receives ih sealed (Datum.below_list.mp below)
    rw [load]
    refine ⟨inner.sealed.alloc inner.below, inner.grown.trans (extends_alloc _ _), List.forall_mem_singleton.mpr ?_⟩
    rw [size_alloc]
    exact Nat.lt_succ_self _
  | tuple items ih =>
    have inner := loadItems_receives ih sealed (Datum.below_tuple.mp below)
    rw [load]
    exact ⟨inner.sealed, inner.grown, List.forall_mem_singleton.mpr (Datum.below_tuple.mpr inner.below)⟩
  | atom d atom =>
    rw [load_atom atom]
    exact .unchanged sealed (List.forall_mem_singleton.mpr below)

end ArrayStore
end BytecodeBench
