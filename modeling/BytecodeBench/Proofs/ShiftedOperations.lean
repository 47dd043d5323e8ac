import BytecodeBench.Proofs.Handles
import BytecodeBench.Proofs.Watching

/-! Operations on a store with more arrays. They give what they give on the store itself, up to the numbers of
arrays. -/

namespace BytecodeBench

/-! Slots and frames under new handles. -/

def Slot.rename (name : Nat → Nat) : Slot → Slot
  | .value v => .value ⟨v.type, v.content.rename name⟩
  | .bare d => .bare (d.rename name)

def Slot.Below (bound : Nat) : Slot → Prop
  | .value v => v.content.Below bound
  | .bare d => d.Below bound

/-- A datum below a bound, and the same datum under shifted handles. -/
def Datum.ShiftsTo (first gap bound : Nat) (d other : Datum) : Prop := other = d.rename (shift first gap) ∧ d.Below bound

def Slot.ShiftsTo (first gap bound : Nat) (x y : Slot) : Prop := y = x.rename (shift first gap) ∧ x.Below bound

def Frame.rename (name : Nat → Nat) (f : Frame) : Frame where
  locals := f.locals.mapValues (Slot.rename name)
  stack := f.stack.map (Slot.rename name)
  pc := f.pc

theorem Slot.rename_id (x : Slot) : x.rename id = x := by
  cases x with
  | value v => exact congrArg (fun d => Slot.value ⟨v.type, d⟩) (Datum.mapArrays_array v.content)
  | bare d => exact congrArg Slot.bare (Datum.mapArrays_array d)

theorem Frame.rename_id (f : Frame) : f.rename id = f := by
  obtain ⟨locals, stack, pc⟩ := f
  have slots : Slot.rename id = id := funext Slot.rename_id
  have same : Table.mapValues (id : Slot → Slot) locals = locals := List.map_id' locals
  rw [Frame.rename, slots, same, List.map_id]

theorem Frame.find?_rename (f : Frame) (name : Nat → Nat) (index : Operand) :
    (f.rename name).locals.find? index = (f.locals.find? index).map (Slot.rename name) :=
  Table.find?_mapValues _ index f.locals

structure Frame.Below (bound : Nat) (f : Frame) : Prop where
  locals : ∀ index x, f.locals.find? index = some x → x.Below bound
  stack : ∀ x ∈ f.stack, x.Below bound

theorem Slot.Below.mono {x : Slot} {bound larger : Nat} (below : x.Below bound) (le : bound ≤ larger) : x.Below larger := by
  cases x with
  | value v => exact Datum.Below.mono below le
  | bare d => exact Datum.Below.mono below le

theorem Frame.Below.mono {f : Frame} {bound larger : Nat} (below : f.Below bound) (le : bound ≤ larger) :
    f.Below larger where
  locals index x found := (below.locals index x found).mono le
  stack x member := (below.stack x member).mono le

theorem Frame.Below.drop {f : Frame} {bound : Nat} (below : f.Below bound) (count : Nat) :
    Frame.Below bound { f with stack := f.stack.drop count } where
  locals := below.locals
  stack x member := below.stack x (List.mem_of_mem_drop member)

namespace Concrete

variable {first gap : Nat} {s t : State String} {f : Frame} {x : Slot}

/-- A machine next to one on a shifted store. -/
structure Shifted (first gap : Nat) (s t : State String) : Prop where
  frames : t.frames = s.frames.map (Frame.rename (shift first gap))
  memory : t.memory = s.memory
  arrays : s.arrays.Shifted first gap t.arrays
  sealed : s.arrays.Sealed
  below : ∀ f ∈ s.frames, f.Below s.arrays.cells.size
  texts : HoldsTexts s

/-- A machine that mentions no handles but those of its store, and whose store has the first ones. -/
structure Settled (first : Nat) (s : State String) : Prop where
  room : first ≤ s.arrays.cells.size
  sealed : s.arrays.Sealed
  below : ∀ f ∈ s.frames, f.Below s.arrays.cells.size
  texts : HoldsTexts s

theorem Shifted.settled (shifted : Shifted first gap s t) : Settled first s :=
  ⟨shifted.arrays.room, shifted.sealed, shifted.below, shifted.texts⟩

/-- Any such machine is its own shift by nothing. -/
theorem Settled.shifted (settled : Settled first s) : Shifted first 0 s s where
  frames := by
    rw [shift_zero, funext Frame.rename_id]
    exact (List.map_id' s.frames).symm
  memory := rfl
  arrays := .refl settled.room
  sealed := settled.sealed
  below := settled.below
  texts := settled.texts

/-- Where a pair of machines can be after a step: the store has kept its arrays. -/
structure Moves (first gap : Nat) (s after other : State String) : Prop where
  shifted : Shifted first gap after other
  grown : s.arrays.Extends after.arrays

/-- What is read off atoms alone does not see handles. -/
theorem reads_atom {α : Type} (read : Datum → Except Fault α) {d : Datum} (atoms : Yields (fun _ => d.IsAtom) (read d))
    (name : Nat → Nat) :
    Refines (fun a b => a = b ∧ d.IsAtom) (liftM (read d)) (liftM (read (d.rename name))) := by
  refine .lift fun a done => ?_
  have atom := atoms a done
  rw [atom.rename]
  exact ⟨a, done, rfl, atom⟩

theorem relate_atom (other : Datum) (atom : other.IsAtom) (r : Relation) (d : Datum) :
    Yields (fun _ => d.IsAtom) (d.relate r other) := by
  intro verdict done
  cases d with
  | array handle => cases other <;> cases done
  | list items => cases other <;> first | exact atom.elim | cases done
  | tuple items => cases other <;> first | exact atom.elim | cases done
  | _ => trivial

private theorem isWithin_atom (size : Except Fault Nat) (d : Datum) : Yields (fun _ => d.IsAtom) (d.isWithin size) :=
  .bind fun verdict done => fun _ _ => relate_atom (.int 0) trivial .lt d verdict done

theorem content_renamed (x : Slot) (name : Nat → Nat) :
    Refines (fun a b => b = a.rename name) (liftM x.content) (liftM (x.rename name).content) := by
  cases x with
  | value v => exact .ok rfl
  | bare d => trivial

theorem content_shifted {bound : Nat} (below : x.Below bound) :
    Refines (Datum.ShiftsTo first gap bound) (liftM x.content) (liftM (x.rename (shift first gap)).content) := by
  cases x with
  | value v => exact .ok ⟨rfl, below⟩
  | bare d => trivial

private theorem ofDatum?_rename (d : Datum) (name : Nat → Nat) :
    Operand.ofDatum? (d.rename name) = Operand.ofDatum? d := by
  cases d <;> rfl

theorem type_shifted (x : Slot) (name : Nat → Nat) : Refines Eq (liftM x.type) (liftM (x.rename name).type) := by
  cases x with
  | value v => exact .ok rfl
  | bare d => trivial

theorem zeroJump_shifted (condition : String) (x : Slot) (name : Nat → Nat) :
    Refines Eq (zeroJump s condition x) (zeroJump t condition (x.rename name)) := by
  cases x with
  | bare d => trivial
  | value v =>
    cases integer : v.content.integer? with
    | none =>
      rw [zeroJump_other integer]
      trivial
    | some n =>
      have same : (v.content.rename name).integer? = some n := by
        rw [Datum.integer?_rename, integer]
      rw [zeroJump_integer integer, Slot.rename, zeroJump_integer same]
      exact .refl _

private theorem same_zero (d : Datum) (name : Nat → Nat) : (d.rename name).same (.int 0) = d.same (.int 0) := by
  cases d <;> rfl

theorem divide_shifted (bound : Nat) (x y : Slot) :
    Refines (Slot.ShiftsTo first gap bound) (divide s x y)
      (divide t (x.rename (shift first gap)) (y.rename (shift first gap))) := by
  refine (type_shifted x _).bind ?_
  rintro type _ rfl
  refine .guard trivial ?_
  refine (type_shifted y _).bind ?_
  rintro type _ rfl
  refine .guard trivial ?_
  refine (content_renamed y _).bind ?_
  rintro divisor _ rfl
  rw [same_zero]
  refine .guard rfl ?_
  refine (content_renamed x _).bind ?_
  rintro a _ rfl
  refine (content_renamed y _).bind ?_
  rintro b _ rfl
  refine (Refines.lift fun d done => ?_ : Refines (Datum.ShiftsTo first gap bound) _ _).bind ?_
  · refine ⟨_, ?_, rfl, (Datum.onNumbers_atom _ _ a b d done).below bound⟩
    unfold Datum.quotient at done ⊢
    rw [Datum.onNumbers_rename, done]
    rfl
  · rintro quotient _ ⟨rfl, below⟩
    exact .ok ⟨rfl, below⟩

namespace Shifted

variable (shifted : Shifted first gap s t)
include shifted

theorem heap : t.heap = s.heap := (Prod.mk.inj shifted.memory).1

theorem entry (ref : Operand) : t.entry ref = s.entry ref := by
  unfold State.entry
  rw [shifted.heap]

/-! Reading. -/

theorem toInteger (x : Slot) : Refines Eq (toInteger s x) (toInteger t (x.rename (shift first gap))) := by
  cases x with
  | bare d => trivial
  | value v =>
    obtain ⟨type, content⟩ := v
    have resolved := shifted.arrays.resolve content
    simp only [Slot.rename, Concrete.toInteger, State.integerOf]
    cases type with
    | int => exact .ok resolved.symm
    | char =>
      cases content with
      | text text => exact .refl _
      | _ => trivial
    | boolean => exact .ok (by rw [resolved])
    | _ => trivial

theorem stringOf (x : Slot) :
    Refines (fun a b => a = b ∧ a.IsString) (stringOf s x) (stringOf t (x.rename (shift first gap))) := by
  refine Refines.and_left ?_ (stringOf_isString shifted.texts x)
  cases x with
  | bare d => trivial
  | value v =>
    obtain ⟨type, content⟩ := v
    have heap (ref : Operand) : Refines Eq (liftM (s.entry ref)) (liftM (t.entry ref)) := by
      rw [shifted.entry]
      exact .refl _
    cases content with
    | null => exact .ok rfl
    | text text => exact .ok rfl
    | int n => exact heap (.number n)
    | flag b => exact heap (.flag b)
    | _ => trivial

theorem textOf (expected : Expectation) (x : Slot) :
    Refines Eq (textOf s expected x) (textOf t expected (x.rename (shift first gap))) := by
  refine (shifted.stringOf x).bind ?_
  rintro a _ ⟨rfl, -⟩
  split
  · exact .ok rfl
  · trivial

theorem arrayOf {x : Slot} (below : x.Below s.arrays.cells.size) :
    Refines (Datum.ShiftsTo first gap s.arrays.cells.size) (arrayOf s x) (arrayOf t (x.rename (shift first gap))) := by
  cases x with
  | bare d => trivial
  | value v =>
    obtain ⟨type, content⟩ := v
    have heap (ref : Operand) : Refines (Datum.ShiftsTo first gap s.arrays.cells.size) (liftM (s.entry ref))
        (liftM (t.entry ref)) := by
      rw [shifted.entry]
      refine .lift fun d found => ⟨d, found, ?_⟩
      unfold State.entry at found
      split at found
      next entry stored =>
        cases found
        obtain ⟨text, rfl⟩ := shifted.texts ref d stored
        exact ⟨rfl, trivial⟩
      · cases found
    cases content with
    | null => exact .ok ⟨rfl, trivial⟩
    | array handle => exact .ok ⟨rfl, below⟩
    | int n => exact heap (.number n)
    | flag b => exact heap (.flag b)
    | _ => trivial

theorem length_sequence (d : Datum) :
    (List.length <$> t.arrays.sequence (d.rename (shift first gap)) : Except Fault Nat) =
      List.length <$> s.arrays.sequence d := by
  rw [shifted.arrays.sequence]
  cases s.arrays.sequence d with
  | error e => rfl
  | ok items => exact congrArg Except.ok (List.length_map _)

theorem access {index ref : Slot} (below : ref.Below s.arrays.cells.size) :
    Refines (fun a b => a.1.ShiftsTo first gap s.arrays.cells.size b.1 ∧ a.2 = b.2)
      (access s index ref) (access t (index.rename (shift first gap)) (ref.rename (shift first gap))) := by
  cases index with
  | bare d => trivial
  | value v =>
    refine (type_shifted (.value v) _).bind ?_
    rintro type _ rfl
    refine .guard trivial ((shifted.arrayOf below).bind ?_)
    rintro array _ ⟨rfl, inside⟩
    have sized := shifted.length_sequence array
    cases array with
    | null => rfl
    | _ =>
      simp only [sized]
      refine (reads_atom _ (isWithin_atom _ v.content) _).bind ?_
      rintro within _ ⟨rfl, atom⟩
      rw [atom.rename]
      split
      · exact .ok ⟨⟨rfl, inside⟩, rfl⟩
      · rfl

theorem sequence {d : Datum} (below : d.Below s.arrays.cells.size) :
    Refines (fun items others => others = items.map (Datum.rename (shift first gap)) ∧
        ∀ item ∈ items, item.Below s.arrays.cells.size)
      (liftM (s.arrays.sequence d)) (liftM (t.arrays.sequence (d.rename (shift first gap)))) := by
  refine .lift fun items found => ⟨_, ?_, rfl, ArrayStore.sequence_below shifted.sealed below items found⟩
  rw [shifted.arrays.sequence, found]
  rfl

theorem arrayLoad (type : JvmType) {index ref : Slot} (below : ref.Below s.arrays.cells.size) :
    Refines (Slot.ShiftsTo first gap s.arrays.cells.size) (arrayLoad s type index ref)
      (arrayLoad t type (index.rename (shift first gap)) (ref.rename (shift first gap))) := by
  refine (shifted.access below).bind ?_
  rintro ⟨array, place⟩ ⟨other, position⟩ ⟨⟨same, inside⟩, placed⟩
  dsimp only at same inside placed
  subst same placed
  refine (shifted.sequence inside).bind ?_
  rintro items _ ⟨rfl, held⟩
  refine (Refines.refl _).bind ?_
  rintro position _ rfl
  simp only [List.getElem?_map]
  cases found : items[position]? with
  | none => trivial
  | some item => exact .ok ⟨rfl, held item (List.mem_of_getElem? found)⟩

theorem arrayLength {ref : Slot} (below : ref.Below s.arrays.cells.size) :
    Refines (Slot.ShiftsTo first gap s.arrays.cells.size) (arrayLength s ref)
      (arrayLength t (ref.rename (shift first gap))) := by
  refine (shifted.arrayOf below).bind ?_
  rintro array _ ⟨rfl, inside⟩
  have counted : Refines (Slot.ShiftsTo first gap s.arrays.cells.size)
      (do return .int (← s.arrays.sequence array).length)
      (do return .int (← t.arrays.sequence (array.rename (shift first gap))).length) := by
    refine (shifted.sequence inside).bind ?_
    rintro items _ ⟨rfl, -⟩
    rw [List.length_map]
    exact .ok ⟨rfl, trivial⟩
  cases array with
  | null => rfl
  | _ => exact counted

theorem sameValues (v w : Value) :
    t.sameValues ⟨v.type, v.content.rename (shift first gap)⟩ ⟨w.type, w.content.rename (shift first gap)⟩ =
      s.sameValues v w := by
  unfold State.sameValues
  rw [shifted.arrays.resolve, shifted.arrays.resolve]

theorem pairJump (condition : String) (x y : Slot) :
    Refines Eq (pairJump s condition x y)
      (pairJump t condition (x.rename (shift first gap)) (y.rename (shift first gap))) := by
  unfold Concrete.pairJump
  split
  · cases x with
    | bare d => trivial
    | value v =>
      cases y with
      | bare d => trivial
      | value w => exact .ok (shifted.sameValues v w).symm
  · refine (shifted.toInteger x).bind ?_
    rintro a _ rfl
    refine (shifted.toInteger y).bind ?_
    rintro b _ rfl
    exact .refl _

end Shifted

/-! Moving on. -/

section Moving

variable (shifted : Shifted first gap s t)
include shifted

namespace Shifted

theorem withTop {g : Frame} (below : g.Below s.arrays.cells.size) :
    Moves first gap s (s.withTop g) (t.withTop (g.rename (shift first gap))) where
  grown := .refl _
  shifted := {
    frames := by simp [State.withTop, shifted.frames]
    memory := shifted.memory
    arrays := shifted.arrays
    sealed := shifted.sealed
    below := List.forall_mem_cons.mpr ⟨below, fun f member => shifted.below f (List.mem_of_mem_drop member)⟩
    texts := shifted.texts.of_heap rfl }

variable (top : f.Below s.arrays.cells.size)
include top

theorem proceedWith {stack : List Slot} (held : ∀ x ∈ stack, x.Below s.arrays.cells.size) :
    Moves first gap s (s.proceedWith f stack)
      (t.proceedWith (f.rename (shift first gap)) (stack.map (Slot.rename (shift first gap)))) :=
  shifted.withTop ⟨top.locals, held⟩

theorem proceed : Moves first gap s (s.proceed f) (t.proceed (f.rename (shift first gap))) :=
  shifted.withTop ⟨top.locals, top.stack⟩

theorem push {x y : Slot} {rest : List Slot} (pushed : x.ShiftsTo first gap s.arrays.cells.size y)
    (held : ∀ x ∈ rest, x.Below s.arrays.cells.size) :
    Moves first gap s (s.proceedWith f (x :: rest))
      (t.proceedWith (f.rename (shift first gap)) (y :: rest.map (Slot.rename (shift first gap)))) := by
  obtain ⟨rfl, below⟩ := pushed
  exact shifted.proceedWith top (List.forall_mem_cons.mpr ⟨below, held⟩)

theorem branch {stack : List Slot} (held : ∀ x ∈ stack, x.Below s.arrays.cells.size) (target : Operand) (taken : Bool) :
    Moves first gap s (s.branch f stack target taken)
      (t.branch (f.rename (shift first gap)) (stack.map (Slot.rename (shift first gap))) target taken) := by
  cases taken with
  | false => exact shifted.proceedWith top held
  | true => exact shifted.withTop ⟨top.locals, held⟩

theorem write {x y : Slot} {stack : List Slot} (index : Operand) (written : x.ShiftsTo first gap s.arrays.cells.size y)
    (held : ∀ x ∈ stack, x.Below s.arrays.cells.size) :
    Moves first gap s (s.proceed { f with stack, locals := f.locals.insert index x })
      (t.proceed { f.rename (shift first gap) with
        stack := stack.map (Slot.rename (shift first gap))
        locals := (f.rename (shift first gap)).locals.insert index y }) := by
  obtain ⟨rfl, below⟩ := written
  have locals : (f.rename (shift first gap)).locals.insert index (x.rename (shift first gap)) =
      (f.locals.insert index x).mapValues (Slot.rename (shift first gap)) :=
    Table.insert_mapValues _ index x f.locals
  rw [locals]
  refine shifted.withTop ⟨?_, held⟩
  intro query found there
  rw [Table.find?_insert] at there
  split at there
  · cases there
    exact below
  · exact top.locals query found there

end Shifted
end Moving

/-! Results. -/

/-- What a computation gives on both sides: a slot for the stack, and where the machines are. -/
structure Gives (first gap : Nat) (s : State String) (result other : Slot × State String) : Prop where
  slot : result.1.ShiftsTo first gap result.2.arrays.cells.size other.1
  moves : Moves first gap s result.2 other.2

theorem Moves.trans {after other last final : State String} (moves : Moves first gap s after other)
    (next : Moves first gap after last final) : Moves first gap s last final :=
  ⟨next.shifted, moves.grown.trans next.grown⟩

theorem Gives.push {result other : Slot × State String} (gives : Gives first gap s result other)
    (top : f.Below s.arrays.cells.size) {rest : List Slot} (held : ∀ x ∈ rest, x.Below s.arrays.cells.size) :
    Moves first gap s (result.2.proceedWith f (result.1 :: rest))
      (other.2.proceedWith (f.rename (shift first gap)) (other.1 :: rest.map (Slot.rename (shift first gap)))) := by
  have room := gives.moves.grown.size
  exact gives.moves.trans
    (gives.moves.shifted.push (top.mono room) gives.slot fun x member => (held x member).mono room)

section Results

variable (shifted : Shifted first gap s t)
include shifted

theorem Shifted.remember {after other : State String} (left : after.frames = s.frames ∧ after.arrays = s.arrays)
    (right : other.frames = t.frames ∧ other.arrays = t.arrays) (memory : other.memory = after.memory)
    (texts : HoldsTexts after) : Moves first gap s after other where
  grown := by
    rw [left.2]
    exact .refl _
  shifted := {
    frames := by rw [right.1, left.1, shifted.frames]
    memory := memory
    arrays := by
      rw [right.2, left.2]
      exact shifted.arrays
    sealed := by
      rw [left.2]
      exact shifted.sealed
    below := by
      rw [left.1, left.2]
      exact shifted.below
    texts := texts }

/-- A value without handles, from machines that stay where they are. -/
theorem gives_value {v : Value} (atom : v.content.IsAtom) : Gives first gap s (.value v, s) (.value v, t) where
  slot := ⟨congrArg Slot.value (congrArg (Value.mk v.type) (atom.rename _).symm), atom.below _⟩
  moves := ⟨shifted, .refl _⟩

theorem gives_alloc (text : String) : Gives first gap s (s.alloc (.text text)) (t.alloc (.text text)) := by
  obtain ⟨heap, rest⟩ := Prod.mk.inj shifted.memory
  obtain ⟨next, pool⟩ := Prod.mk.inj rest
  refine ⟨⟨?_, trivial⟩, shifted.remember ⟨rfl, rfl⟩ ⟨rfl, rfl⟩ ?_ (shifted.texts.insert rfl)⟩
  · simp only [State.alloc, next]
    rfl
  · simp only [State.alloc, State.memory, next, heap, pool]

theorem gives_intern (text : String) :
    Gives first gap s (s.intern text (.text text)) (t.intern text (.text text)) := by
  obtain ⟨heap, rest⟩ := Prod.mk.inj shifted.memory
  obtain ⟨next, pool⟩ := Prod.mk.inj rest
  unfold State.intern
  rw [pool]
  split
  · exact gives_value shifted (trivial : (Datum.int _).IsAtom)
  · refine ⟨⟨?_, trivial⟩, shifted.remember ⟨rfl, rfl⟩ ⟨rfl, rfl⟩ ?_ (shifted.texts.insert rfl)⟩
    · simp only [State.alloc, next]
      rfl
    · simp only [State.alloc, State.memory, next, heap, pool]

end Results

/-! Calls. -/

theorem refuseNull_renamed (outcome : Query) (x : Slot) (name : Nat → Nat) :
    Refines Eq (refuseNull outcome x) (refuseNull outcome (x.rename name)) := by
  cases x with
  | bare d => trivial
  | value v =>
    obtain ⟨type, content⟩ := v
    cases content <;> first | exact .ok rfl | rfl

section Calls

variable (shifted : Shifted first gap s t)
include shifted

private theorem charAt_shifted (index recv : Slot) :
    Refines (Gives first gap s) (call s .charAt [index, recv])
      (call t .charAt [index.rename (shift first gap), recv.rename (shift first gap)]) := by
  refine (type_shifted index _).bind ?_
  rintro type _ rfl
  refine .guard trivial ?_
  refine (refuseNull_renamed _ recv _).bind ?_
  rintro _ _ -
  refine (shifted.textOf _ recv).bind ?_
  rintro text _ rfl
  refine .guard rfl ?_
  refine (content_renamed index _).bind ?_
  rintro place _ rfl
  refine (reads_atom _ (isWithin_atom _ place) _).bind ?_
  rintro within _ ⟨rfl, atom⟩
  rw [atom.rename]
  split
  · refine (Refines.refl _).bind ?_
    rintro position _ rfl
    split
    · exact .ok (gives_value shifted trivial)
    · trivial
  · rfl

private theorem substring_shifted (last start recv : Slot) :
    Refines (Gives first gap s) (call s .substring [last, start, recv])
      (call t .substring [last.rename (shift first gap), start.rename (shift first gap), recv.rename (shift first gap)]) := by
  refine (type_shifted start _).bind ?_
  rintro type _ rfl
  refine .guard trivial ?_
  refine (type_shifted last _).bind ?_
  rintro type _ rfl
  refine .guard trivial ?_
  refine (refuseNull_renamed _ recv _).bind ?_
  rintro _ _ -
  refine (shifted.textOf _ recv).bind ?_
  rintro text _ rfl
  refine (content_renamed start _).bind ?_
  rintro i _ rfl
  refine (content_renamed last _).bind ?_
  rintro j _ rfl
  refine (reads_atom (Datum.relate .lt · (.int 0)) (relate_atom (.int 0) trivial .lt i) _).bind ?_
  rintro negative _ ⟨rfl, atom⟩
  rw [atom.rename]
  refine .guard rfl ?_
  refine (reads_atom (Datum.relate .lt · i) (relate_atom i atom .lt j) _).bind ?_
  rintro before _ ⟨rfl, number⟩
  rw [number.rename]
  refine .guard rfl ?_
  refine (Refines.refl _).bind ?_
  rintro beyond _ rfl
  refine .guard rfl ?_
  split
  · exact .ok (gives_alloc shifted _)
  · trivial

private theorem concat_shifted (arg recv : Slot) :
    Refines (Gives first gap s) (call s .concat [arg, recv])
      (call t .concat [arg.rename (shift first gap), recv.rename (shift first gap)]) := by
  refine (refuseNull_renamed _ recv _).bind ?_
  rintro _ _ -
  refine (shifted.textOf _ recv).bind ?_
  rintro text _ rfl
  cases arg with
  | bare d => trivial
  | value v =>
    obtain ⟨type, content⟩ := v
    have joined : Refines (Gives first gap s)
        (do return s.alloc (.text (text ++ (← textOf s .stringArgument (.value ⟨type, content⟩)))))
        (do return t.alloc (.text (text ++ (← textOf t .stringArgument
          ((Slot.value ⟨type, content⟩).rename (shift first gap)))))) := by
      refine (shifted.textOf _ _).bind ?_
      rintro more _ rfl
      exact .ok (gives_alloc shifted _)
    cases content with
    | null => exact .ok (gives_alloc shifted _)
    | _ => exact joined

theorem call_shifted (c : StringCall) (operands : List Slot) :
    Refines (Gives first gap s) (call s c operands) (call t c (operands.map (Slot.rename (shift first gap)))) := by
  cases c with
  | length =>
    rcases operands with _ | ⟨recv, _ | ⟨_, _⟩⟩ <;> try trivial
    refine (refuseNull_renamed _ recv _).bind ?_
    rintro _ _ -
    refine (shifted.textOf _ recv).bind ?_
    rintro text _ rfl
    exact .ok (gives_value shifted trivial)
  | concat =>
    rcases operands with _ | ⟨arg, _ | ⟨recv, _ | ⟨_, _⟩⟩⟩ <;> try trivial
    exact concat_shifted shifted arg recv
  | equals =>
    rcases operands with _ | ⟨other, _ | ⟨recv, _ | ⟨_, _⟩⟩⟩ <;> try trivial
    refine (shifted.stringOf recv).bind ?_
    rintro a _ ⟨rfl, string⟩
    refine (shifted.stringOf other).bind ?_
    rintro b _ ⟨rfl, text⟩
    have same : equalStrings t a b = equalStrings s a b := by
      rcases string with rfl | ⟨x, rfl⟩ <;> rcases text with rfl | ⟨y, rfl⟩ <;> rfl
    rw [same]
    exact .ok (gives_value shifted trivial)
  | equalsIgnoreCase =>
    rcases operands with _ | ⟨other, _ | ⟨recv, _ | ⟨_, _⟩⟩⟩ <;> try trivial
    refine (shifted.stringOf recv).bind ?_
    rintro a _ ⟨rfl, -⟩
    refine (shifted.stringOf other).bind ?_
    rintro b _ ⟨rfl, -⟩
    refine (Refines.refl _).bind ?_
    rintro same _ rfl
    exact .ok (gives_value shifted trivial)
  | charAt =>
    rcases operands with _ | ⟨index, _ | ⟨recv, _ | ⟨_, _⟩⟩⟩ <;> try trivial
    exact charAt_shifted shifted index recv
  | substring =>
    rcases operands with _ | ⟨last, _ | ⟨start, _ | ⟨recv, _ | ⟨_, _⟩⟩⟩⟩ <;> try trivial
    exact substring_shifted shifted last start recv
  | other name => trivial

theorem put_shifted (this : Slot) (text : String) :
    Refines (Moves first gap s)
      (do
        match Operand.ofDatum? (← this.content) with
        | some ref => return { s with heap := s.heap.insert ref (.text text) }
        | none => s.unexpected .thisRef [this])
      (do
        match Operand.ofDatum? (← (this.rename (shift first gap)).content) with
        | some ref => return { t with heap := t.heap.insert ref (.text text) }
        | none => t.unexpected .thisRef [this.rename (shift first gap)]) := by
  refine (content_renamed this _).bind ?_
  rintro content _ rfl
  rw [ofDatum?_rename]
  split
  next ref _ =>
    obtain ⟨heap, rest⟩ := Prod.mk.inj shifted.memory
    refine .ok (shifted.remember ⟨rfl, rfl⟩ ⟨rfl, rfl⟩ ?_ (shifted.texts.insert rfl))
    simp only [State.memory, heap, rest]
  · trivial

theorem setUp_shifted (setup : StringSetup) (operands : List Slot) :
    Refines (Moves first gap s) (setUp s setup operands) (setUp t setup (operands.map (Slot.rename (shift first gap)))) := by
  cases setup with
  | copying =>
    rcases operands with _ | ⟨arg, _ | ⟨this, _ | ⟨_, _⟩⟩⟩ <;> try trivial
    refine (shifted.stringOf arg).bind ?_
    rintro a _ ⟨rfl, null | ⟨text, rfl⟩⟩
    · subst null
      exact put_shifted shifted this ""
    · exact put_shifted shifted this text
  | empty =>
    rcases operands with _ | ⟨this, _ | ⟨_, _⟩⟩ <;> try trivial
    exact put_shifted shifted this ""
  | chars =>
    rcases operands with _ | ⟨arg, _ | ⟨this, _ | ⟨_, _⟩⟩⟩ <;> try trivial
    refine (type_shifted arg _).bind ?_
    rintro type _ rfl
    refine .guard trivial ?_
    refine (content_renamed arg _).bind ?_
    rintro content _ rfl
    rw [ofDatum?_rename]
    cases Operand.ofDatum? content with
    | none => trivial
    | some ref =>
      have same : t.heap.find? ref = s.heap.find? ref := by rw [shifted.heap]
      dsimp only
      rw [same]
      cases found : s.heap.find? ref with
      | none => exact put_shifted shifted this ""
      | some d =>
        obtain ⟨text, rfl⟩ := shifted.texts ref d found
        refine (Refines.refl _).bind ?_
        rintro items _ rfl
        refine (Refines.refl _).bind ?_
        rintro parts _ rfl
        exact put_shifted shifted this _
  | other method descriptor => trivial

end Calls
end Concrete
end BytecodeBench
