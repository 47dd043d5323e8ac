import BytecodeBench.Proofs.ClosedPrograms
import BytecodeBench.Proofs.Watching

/-! Arrays that are given as tuples in place of lists. A tuple holds the same items, but it stands for itself
and not for an array of the store, so whatever looks for an array finds none. All else that an instruction
asks of a slot it asks of a tuple and of an array alike. -/

namespace BytecodeBench

/-! Computations that end alike. -/

/-- Two reasons to stop are alike: the same, but for how the operands are shown that were refused. -/
inductive Halt.Like : Halt → Halt → Prop
  | same (halt : Halt) : Like halt halt
  | shown (expected : Expectation) (found other : String) :
    Like (.fault (.unexpectedOperand expected found)) (.fault (.unexpectedOperand expected other))

/-- Two computations end alike: both with results that correspond, or both for like reasons. -/
def Echoes {α β : Type} (related : α → β → Prop) : Except Halt α → Except Halt β → Prop
  | .ok a, .ok b => related a b
  | .error halt, .error other => halt.Like other
  | _, _ => False

namespace Echoes

variable {α β γ δ : Type} {related : α → β → Prop}

theorem fail (halt : Halt) : Echoes related (.error halt) (.error halt) := Halt.Like.same halt

theorem unexpected (s t : State String) (expected : Expectation) (found other : List Slot) :
    Echoes related (s.unexpected expected found) (t.unexpected expected other) :=
  Halt.Like.shown expected _ _

theorem refl (x : Except Halt α) : Echoes Eq x x := by
  cases x with
  | error halt => exact .fail halt
  | ok a => exact rfl

/-- A computation that echoes itself carries along what is known of its results. -/
theorem self {post : α → Prop} {x : Except Halt α} (yields : Yields post x) : Echoes (fun a b => a = b ∧ post a) x x := by
  cases x with
  | error halt => exact .fail halt
  | ok a => exact ⟨rfl, yields a rfl⟩

theorem and_left {post : α → Prop} {left : Except Halt α} {right : Except Halt β} (echoes : Echoes related left right)
    (yields : Yields post left) : Echoes (fun a b => related a b ∧ post a) left right := by
  cases left with
  | error halt => cases right <;> exact echoes
  | ok a =>
    cases right with
    | error other => exact echoes
    | ok b => exact ⟨echoes, yields a rfl⟩

theorem bind {after : γ → δ → Prop} {left : Except Halt α} {right : Except Halt β} {next : α → Except Halt γ}
    {other : β → Except Halt δ} (first : Echoes related left right)
    (rest : ∀ a b, related a b → Echoes after (next a) (other b)) : Echoes after (left >>= next) (right >>= other) := by
  cases left with
  | error halt =>
    cases right with
    | error other => exact first
    | ok b => exact first.elim
  | ok a =>
    cases right with
    | error other => exact first.elim
    | ok b => exact rest a b first

/-- A check on both sides that stops the computations or lets them go on. -/
theorem guard {condition : Prop} [Decidable condition] {after : γ → δ → Prop} {halt other : Halt}
    {next : Unit → Except Halt γ} {further : Unit → Except Halt δ} (alike : halt.Like other)
    (rest : ¬ condition → Echoes after (next ()) (further ())) :
    Echoes after (if condition then .error halt >>= next else next ())
      (if condition then .error other >>= further else further ()) := by
  split
  · exact alike
  next unmet => exact rest unmet

end Echoes

/-! Slots and states with tuples for lists. -/

def ArrayStore.Given (base : ArrayStore) (first handle : Nat) : Prop := first ≤ handle ∧ handle < base.cells.size

instance (base : ArrayStore) (first handle : Nat) : Decidable (base.Given first handle) :=
  inferInstanceAs (Decidable (_ ∧ _))

variable (base : ArrayStore) (first : Nat)

/-- A datum with a tuple in place of a given array. -/
def Datum.frozen : Datum → Datum
  | .array handle => if base.Given first handle then .tuple ((base.items? handle).getD []) else .array handle
  | d => d

def Value.frozen (v : Value) : Value := ⟨v.type, v.content.frozen base first⟩

def Slot.frozen : Slot → Slot
  | .value v => .value (v.frozen base first)
  | .bare d => .bare d

def Frame.frozen (f : Frame) : Frame where
  locals := f.locals.mapValues (Slot.frozen base first)
  stack := f.stack.map (Slot.frozen base first)
  pc := f.pc

def State.frozen {L : Type} (s : State L) : State L := { s with frames := s.frames.map (Frame.frozen base first) }

/-- Given arrays have a type of arrays, wherever they are. -/
def Slot.Typed : Slot → Prop
  | .value v => v.content.frozen base first = v.content ∨ ∃ contains, v.type = .array contains
  | .bare _ => True

structure Frame.Typed (f : Frame) : Prop where
  locals : ∀ index x, f.locals.find? index = some x → x.Typed base first
  stack : ∀ x ∈ f.stack, x.Typed base first

variable {base first} {d : Datum} {x y : Slot} {f : Frame}

theorem Datum.frozen_given {handle : Nat} (given : base.Given first handle) :
    (Datum.array handle).frozen base first = .tuple ((base.items? handle).getD []) := if_pos given

theorem Datum.frozen_other {handle : Nat} (other : ¬ base.Given first handle) :
    (Datum.array handle).frozen base first = .array handle := if_neg other

theorem Datum.frozen_cases (base : ArrayStore) (first : Nat) (d : Datum) :
    d.frozen base first = d ∨
      ∃ handle items, base.Given first handle ∧ d = .array handle ∧ d.frozen base first = .tuple items := by
  cases d with
  | array handle =>
    by_cases given : base.Given first handle
    · exact Or.inr ⟨handle, _, given, rfl, frozen_given given⟩
    · exact Or.inl (frozen_other given)
  | _ => exact Or.inl rfl

theorem Datum.frozen_of_below (below : d.Below first) : d.frozen base first = d := by
  cases d with
  | array handle => exact frozen_other fun given => absurd given.1 (Nat.not_le_of_lt below)
  | _ => rfl

theorem Datum.IsAtom.frozen (atom : d.IsAtom) : d.frozen base first = d := frozen_of_below (atom.below first)

theorem Slot.frozen_value {v : Value} (fixed : v.content.frozen base first = v.content) :
    (Slot.value v).frozen base first = .value v := congrArg (fun d => Slot.value ⟨v.type, d⟩) fixed

theorem Slot.frozen_cases (base : ArrayStore) (first : Nat) (x : Slot) :
    x.frozen base first = x ∨ ∃ type handle, base.Given first handle ∧ x = .value ⟨type, .array handle⟩ := by
  cases x with
  | bare d => exact Or.inl rfl
  | value v =>
    rcases v.content.frozen_cases base first with fixed | ⟨handle, items, given, content, -⟩
    · exact Or.inl (frozen_value fixed)
    · exact Or.inr ⟨v.type, handle, given, by rw [← content]⟩

theorem Slot.Typed.of_frozen (fixed : x.frozen base first = x) : x.Typed base first := by
  cases x with
  | value v => exact Or.inl (congrArg Value.content (Slot.value.inj fixed))
  | bare d => trivial

/-- An integer is no given array. -/
theorem Slot.Typed.frozen_int (typed : x.Typed base first) (integer : x.type = .ok .int) : x.frozen base first = x := by
  cases x with
  | bare d => rfl
  | value v =>
    rcases typed with fixed | ⟨contains, array⟩
    · exact frozen_value fixed
    · have other : v.type = .int := Except.ok.inj integer
      rw [array] at other
      cases other

theorem Frame.find?_frozen (f : Frame) (index : Operand) :
    (f.frozen base first).locals.find? index = (f.locals.find? index).map (Slot.frozen base first) :=
  Table.find?_mapValues _ index f.locals

theorem Frame.Typed.tail {rest : List Slot} (typed : f.Typed base first) (stack : f.stack = x :: rest) :
    x.Typed base first ∧ ∀ y ∈ rest, y.Typed base first := by
  have held := typed.stack
  rw [stack] at held
  exact List.forall_mem_cons.mp held

/-! What is read off a slot. -/

theorem Datum.integer?_frozen (d : Datum) : (d.frozen base first).integer? = d.integer? := by
  rcases frozen_cases base first d with same | ⟨handle, items, -, rfl, frozen⟩
  · rw [same]
  · rw [frozen]
    rfl

theorem Operand.ofDatum?_frozen (d : Datum) : Operand.ofDatum? (d.frozen base first) = Operand.ofDatum? d := by
  rcases Datum.frozen_cases base first d with same | ⟨handle, items, -, rfl, frozen⟩
  · rw [same]
  · rw [frozen]
    rfl

theorem Slot.type_frozen (x : Slot) : (x.frozen base first).type = x.type := by
  cases x <;> rfl

theorem Slot.type_echoes (x : Slot) :
    Echoes (fun type other => type = other ∧ x.type = .ok type) (liftM x.type) (liftM (x.frozen base first).type) := by
  rw [type_frozen]
  exact .self fun type known => liftM_eq_ok.mp known

theorem Slot.content_echoes (x : Slot) :
    Echoes (fun d other => other = d.frozen base first ∧ x.content = .ok d) (liftM x.content)
      (liftM (x.frozen base first).content) := by
  cases x with
  | value v => exact ⟨rfl, rfl⟩
  | bare d => exact .fail _

/-! Arithmetic makes no array out of anything else. -/

theorem Datum.add_frozen (a b : Datum) : Yields (fun d => d.frozen base first = d) (a.add b) := by
  unfold Datum.add
  split
  · exact .pure rfl
  · exact .pure rfl
  · exact (Datum.onNumbers_atom _ _ _ _).weaken fun d atom => atom.frozen

theorem Datum.repeated_frozen {count : Int} {result : Datum} (done : d.repeated count = some result) :
    result.frozen base first = result := by
  cases d <;> cases done <;> rfl

theorem Datum.mul_frozen (a b : Datum) : Yields (fun d => d.frozen base first = d) (a.mul b) := by
  unfold Datum.mul
  split
  next found =>
    obtain ⟨n, -, done⟩ := Option.bind_eq_some_iff.mp found
    exact .pure (repeated_frozen done)
  next found =>
    obtain ⟨n, -, done⟩ := Option.bind_eq_some_iff.mp found
    exact .pure (repeated_frozen done)
  · exact (Datum.onNumbers_atom _ _ _ _).weaken fun d atom => atom.frozen

/-! Stores. -/

namespace ArrayStore

variable {store : ArrayStore}

/-- A store to which nothing has happened but that arrays were added. No array mentions a given one. -/
structure Unshared (base : ArrayStore) (first : Nat) (store : ArrayStore) : Prop where
  grown : base.Extends store
  items : ∀ handle items, store.items? handle = some items → ∀ d ∈ items, d.frozen base first = d

structure Adds (base : ArrayStore) (first : Nat) (result : Datum × ArrayStore) : Prop where
  fixed : result.1.frozen base first = result.1
  unshared : Unshared base first result.2

private theorem alloc_adds (unshared : Unshared base first store) {items : List Datum}
    (fixed : ∀ d ∈ items, d.frozen base first = d) : Adds base first (store.alloc items) where
  fixed := Datum.frozen_other fun given => absurd unshared.grown.size (Nat.not_le_of_lt given.2)
  unshared := {
    grown := unshared.grown.trans (extends_alloc store items)
    items := by
      intro handle held found
      rw [items?_alloc] at found
      split at found
      · cases found
        exact fixed
      · exact unshared.items handle held found }

theorem sequence_frozen (unshared : Unshared base first store) (handle : Nat) :
    Yields (fun items => ∀ d ∈ items, d.frozen base first = d) (store.sequence (.array handle)) := by
  intro items done
  cases done
  cases found : store.items? handle with
  | none => exact List.forall_mem_nil _
  | some items => exact unshared.items handle items found

theorem lifted_adds (unshared : Unshared base first store) {result : Except Fault Datum}
    (fixed : Yields (fun d => d.frozen base first = d) result) :
    Yields (Adds base first) (do return (← result, store)) :=
  .bind fun d done => .pure ⟨fixed d done, unshared⟩

private theorem repeated_adds (unshared : Unshared base first store) (handle : Nat) (count : Datum) :
    Yields (Adds base first) (match count.integer? with
      | some n => do return store.alloc (List.replicate n.toNat (← store.sequence (.array handle))).flatten
      | none => throw .wrongNature : Except Fault (Datum × ArrayStore)) := by
  split
  · refine .bind fun items found => .pure (alloc_adds unshared ?_)
    intro d member
    obtain ⟨copy, copies, inside⟩ := List.mem_flatten.mp member
    obtain rfl := List.eq_of_mem_replicate copies
    exact sequence_frozen unshared handle copy found d inside
  · exact .throw

theorem combine?_adds (unshared : Unshared base first store) {operator : Operator}
    {op : ArrayStore → Datum → Datum → Except Fault (Datum × ArrayStore)} (combines : State.combine? operator = some op)
    (a b : Datum) : Yields (Adds base first) (op store a b) := by
  cases operator <;> cases combines
  · unfold add
    split
    next i j =>
      refine .bind fun xs ahead => .bind fun ys behind => .pure (alloc_adds unshared ?_)
      exact List.forall_mem_append.mpr ⟨sequence_frozen unshared i xs ahead, sequence_frozen unshared j ys behind⟩
    · exact lifted_adds unshared (Datum.add_frozen _ _)
  · exact lifted_adds unshared ((Datum.onNumbers_atom _ _ _ _).weaken fun d atom => atom.frozen)
  · unfold mul
    split
    · exact repeated_adds unshared _ _
    · exact repeated_adds unshared _ _
    · exact lifted_adds unshared (Datum.mul_frozen _ _)

end ArrayStore

namespace Concrete

variable {s : State String}

theorem refuseNull_frozen (outcome : Query) (x : Slot) :
    Echoes Eq (refuseNull outcome x) (refuseNull outcome (x.frozen base first)) := by
  refine x.content_echoes.bind ?_
  rintro d _ ⟨rfl, -⟩
  rcases d.frozen_cases base first with same | ⟨handle, items, -, rfl, frozen⟩
  · rw [same]
    exact .refl _
  · rw [frozen]
    exact rfl

theorem toInteger_frozen (typed : x.Typed base first) :
    Echoes Eq (toInteger s x) (toInteger (s.frozen base first) (x.frozen base first)) := by
  cases x with
  | bare d => exact .fail _
  | value v =>
    rcases typed with fixed | ⟨contains, array⟩
    · rw [Slot.frozen_value fixed]
      exact .refl _
    · obtain ⟨type, content⟩ := v
      cases array
      exact .unexpected _ _ _ _ _

theorem stringOf_frozen (x : Slot) :
    Echoes Eq (stringOf s x) (stringOf (s.frozen base first) (x.frozen base first)) := by
  refine x.content_echoes.bind ?_
  rintro d _ ⟨rfl, known⟩
  rcases d.frozen_cases base first with same | ⟨handle, items, -, rfl, frozen⟩
  · rw [same]
    cases x with
    | bare d => cases known
    | value v =>
      cases known
      rw [Slot.frozen_value same]
      exact .refl _
  · rw [frozen]
    exact .unexpected _ _ _ _ _

theorem textOf_frozen (expected : Expectation) (x : Slot) :
    Echoes Eq (textOf s expected x) (textOf (s.frozen base first) expected (x.frozen base first)) := by
  refine (stringOf_frozen x).bind ?_
  rintro d _ rfl
  split
  · exact rfl
  · exact .unexpected _ _ _ _ _

theorem zeroJump_frozen (condition : String) (x : Slot) :
    Echoes Eq (zeroJump s condition x) (zeroJump (s.frozen base first) condition (x.frozen base first)) := by
  refine x.content_echoes.bind ?_
  rintro d _ ⟨rfl, -⟩
  rw [Datum.integer?_frozen]
  split
  · exact .refl _
  · exact .unexpected _ _ _ _ _

theorem divide_frozen (left : x.Typed base first) (right : y.Typed base first) :
    Echoes (fun a b => a = b ∧ a.frozen base first = a) (divide s x y)
      (divide (s.frozen base first) (x.frozen base first) (y.frozen base first)) := by
  refine x.type_echoes.bind ?_
  rintro type _ ⟨rfl, known⟩
  refine .guard (.shown _ _ _) fun integer => ?_
  obtain rfl := not_not.mp integer
  rw [left.frozen_int known]
  refine y.type_echoes.bind ?_
  rintro type _ ⟨rfl, known⟩
  refine .guard (.shown _ _ _) fun integer => ?_
  obtain rfl := not_not.mp integer
  rw [right.frozen_int known]
  refine .self (.bind fun divisor _ => .guard (.bind fun a _ => .bind fun b _ => .bind fun quotient done => .pure ?_))
  exact Slot.frozen_value ((Datum.onNumbers_atom _ _ a b).lift quotient done).frozen

/-! Arrays. -/

/-- An array that is no given one is found behind a slot and behind the same slot frozen. -/
theorem arrayLength_frozen (fixed : x.frozen base first = x) :
    Echoes (fun a b => a = b ∧ a.frozen base first = a) (arrayLength s x)
      (arrayLength (s.frozen base first) (x.frozen base first)) := by
  rw [fixed]
  have counts : Yields (fun size => Slot.frozen base first size = size) (arrayLength s x) := by
    refine .bind fun array _ => ?_
    split
    · exact .throw
    · exact .bind fun items _ => .pure rfl
  exact .self counts

/-- A machine that has kept the given arrays, and them nowhere but in slots of array types. -/
structure Guarded (base : ArrayStore) (first : Nat) (s : State String) : Prop where
  arrays : ArrayStore.Unshared base first s.arrays
  frames : ∀ f ∈ s.frames, f.Typed base first
  texts : HoldsTexts s

theorem Guarded.arrayOf_items (guarded : Guarded base first s) (x : Slot) :
    Yields (fun array => Yields (fun items => ∀ d ∈ items, d.frozen base first = d) (s.arrays.sequence array))
      (arrayOf s x) := by
  refine .bind fun content _ => ?_
  split
  · exact .pure .throw
  · exact .pure (ArrayStore.sequence_frozen guarded.arrays _)
  · split
    next ref _ =>
      refine Yields.lift fun array found => ?_
      unfold State.entry at found
      split at found
      next stored =>
        cases found
        obtain ⟨text, rfl⟩ := guarded.texts ref array stored
        refine .pure ?_
        intro d member
        obtain ⟨c, -, rfl⟩ := List.mem_map.mp member
        rfl
      · cases found
    · exact .throw

theorem Guarded.access_items (guarded : Guarded base first s) (x y : Slot) :
    Yields (fun found => Yields (fun items => ∀ d ∈ items, d.frozen base first = d) (s.arrays.sequence found.1))
      (access s x y) := by
  refine .bind fun type _ => .guard (.bind fun array found => ?_)
  have held := guarded.arrayOf_items y array found
  split
  · exact .throw
  · refine .bind fun place _ => .bind fun within _ => ?_
    split
    · exact .pure held
    · exact .throw

private theorem access_frozen (typed : x.Typed base first) (unopened : x.type = .ok .int → y.frozen base first = y) :
    Echoes Eq (access s x y) (access (s.frozen base first) (x.frozen base first) (y.frozen base first)) := by
  refine x.type_echoes.bind ?_
  rintro type _ ⟨rfl, known⟩
  refine .guard (.shown _ _ _) fun integer => ?_
  obtain rfl := not_not.mp integer
  rw [typed.frozen_int known, unopened known]
  exact .refl _

theorem Guarded.arrayLoad_frozen (guarded : Guarded base first s) (type : JvmType) (typed : x.Typed base first)
    (unopened : x.type = .ok .int → y.frozen base first = y) :
    Echoes (fun a b => a = b ∧ a.frozen base first = a) (arrayLoad s type x y)
      (arrayLoad (s.frozen base first) type (x.frozen base first) (y.frozen base first)) := by
  refine ((access_frozen typed unopened).and_left (guarded.access_items x y)).bind ?_
  rintro found _ ⟨rfl, held⟩
  refine .self (.bind fun items listed => .bind fun place _ => ?_)
  split
  next item there =>
    exact .pure (Slot.frozen_value (held items (liftM_eq_ok.mp listed) item (List.mem_of_getElem? there)))
  · exact .throw

/-! Moving on. -/

structure Mirrors (base : ArrayStore) (first : Nat) (s t : State String) : Prop where
  frozen : t = s.frozen base first
  guarded : Guarded base first s

end Concrete

namespace State

theorem withTop_frozen {L : Type} (s : State L) (f : Frame) :
    (s.frozen base first).withTop (f.frozen base first) = (s.withTop f).frozen base first := by
  simp [withTop, frozen]

theorem proceedWith_frozen {L : Type} (s : State L) (f : Frame) (stack : List Slot) :
    (s.frozen base first).proceedWith (f.frozen base first) (stack.map (Slot.frozen base first)) =
      (s.proceedWith f stack).frozen base first :=
  s.withTop_frozen { f with stack, pc := f.pc.next }

theorem branch_frozen {L : Type} (s : State L) (f : Frame) (stack : List Slot) (target : Operand) (taken : Bool) :
    (s.frozen base first).branch (f.frozen base first) (stack.map (Slot.frozen base first)) target taken =
      (s.branch f stack target taken).frozen base first := by
  cases taken with
  | false => exact s.proceedWith_frozen f stack
  | true => exact s.withTop_frozen { f with stack, pc := ⟨f.pc.method, target⟩ }

end State

namespace Concrete

namespace Guarded

variable (guarded : Guarded base first s)
include guarded

theorem withTop {g : Frame} (typed : g.Typed base first) : Guarded base first (s.withTop g) where
  arrays := guarded.arrays
  frames := List.forall_mem_cons.mpr ⟨typed, fun f member => guarded.frames f (List.mem_of_mem_drop member)⟩
  texts := guarded.texts.of_heap rfl

/-- What is kept on the heap is no array. -/
theorem remember {after : State String} (frames : after.frames = s.frames) (arrays : after.arrays = s.arrays)
    (texts : HoldsTexts after) : Guarded base first after where
  arrays := arrays ▸ guarded.arrays
  frames := frames ▸ guarded.frames
  texts := texts

variable (top : f.Typed base first)
include top

theorem proceedWith {stack : List Slot} (held : ∀ x ∈ stack, x.Typed base first) :
    Mirrors base first (s.proceedWith f stack)
      ((s.frozen base first).proceedWith (f.frozen base first) (stack.map (Slot.frozen base first))) :=
  ⟨s.proceedWith_frozen f stack, guarded.withTop ⟨top.locals, held⟩⟩

theorem proceed : Mirrors base first (s.proceed f) ((s.frozen base first).proceed (f.frozen base first)) :=
  guarded.proceedWith top top.stack

/-- Whatever is pushed that is no given array. -/
theorem push {x : Slot} {rest : List Slot} (fixed : x.frozen base first = x) (held : ∀ y ∈ rest, y.Typed base first) :
    Mirrors base first (s.proceedWith f (x :: rest))
      ((s.frozen base first).proceedWith (f.frozen base first) (x :: rest.map (Slot.frozen base first))) := by
  have moved := guarded.proceedWith top (List.forall_mem_cons.mpr ⟨.of_frozen fixed, held⟩)
  rwa [List.map_cons, fixed] at moved

theorem branch {stack : List Slot} (held : ∀ x ∈ stack, x.Typed base first) (target : Operand) (taken : Bool) :
    Mirrors base first (s.branch f stack target taken)
      ((s.frozen base first).branch (f.frozen base first) (stack.map (Slot.frozen base first)) target taken) := by
  refine ⟨s.branch_frozen f stack target taken, ?_⟩
  cases taken with
  | false => exact guarded.withTop ⟨top.locals, held⟩
  | true => exact guarded.withTop ⟨top.locals, held⟩

theorem write {x : Slot} {stack : List Slot} (index : Operand) (typed : x.Typed base first)
    (held : ∀ y ∈ stack, y.Typed base first) :
    Mirrors base first (s.proceed { f with stack, locals := f.locals.insert index x })
      ((s.frozen base first).proceed { f.frozen base first with
        stack := stack.map (Slot.frozen base first)
        locals := (f.frozen base first).locals.insert index (x.frozen base first) }) := by
  have locals : (f.frozen base first).locals.insert index (x.frozen base first) =
      (f.locals.insert index x).mapValues (Slot.frozen base first) :=
    Table.insert_mapValues _ index x f.locals
  rw [locals]
  refine ⟨s.withTop_frozen ⟨f.locals.insert index x, stack, f.pc.next⟩, guarded.withTop ⟨?_, held⟩⟩
  intro query found there
  rw [Table.find?_insert] at there
  split at there
  · cases there
    exact typed
  · exact top.locals query found there

end Guarded

/-! Calls. -/

/-- What a computation provides on both sides: a slot that holds no given array, and where the machines are. -/
structure Provides (base : ArrayStore) (first : Nat) (result other : Slot × State String) : Prop where
  slot : other.1 = result.1
  fixed : result.1.frozen base first = result.1
  mirrors : Mirrors base first result.2 other.2

theorem Provides.push {result other : Slot × State String} (provides : Provides base first result other) (top : f.Typed base first)
    {rest : List Slot} (held : ∀ x ∈ rest, x.Typed base first) :
    Mirrors base first (result.2.proceedWith f (result.1 :: rest))
      (other.2.proceedWith (f.frozen base first) (other.1 :: rest.map (Slot.frozen base first))) := by
  rw [provides.slot, provides.mirrors.frozen]
  exact provides.mirrors.guarded.push top provides.fixed held

section Calls

variable (guarded : Guarded base first s)
include guarded

theorem provides_value {v : Value} (atom : v.content.IsAtom) :
    Provides base first (.value v, s) (.value v, s.frozen base first) :=
  ⟨rfl, Slot.frozen_value atom.frozen, rfl, guarded⟩

theorem provides_alloc (text : String) :
    Provides base first (s.alloc (.text text)) ((s.frozen base first).alloc (.text text)) :=
  ⟨rfl, rfl, rfl, guarded.remember rfl rfl (guarded.texts.insert rfl)⟩

theorem provides_intern (text : String) :
    Provides base first (s.intern text (.text text)) ((s.frozen base first).intern text (.text text)) := by
  unfold State.intern
  cases found : s.pool.find? text with
  | some ref =>
    rw [show (s.frozen base first).pool = s.pool from rfl, found]
    exact ⟨rfl, rfl, rfl, guarded⟩
  | none =>
    rw [show (s.frozen base first).pool = s.pool from rfl, found]
    exact ⟨rfl, rfl, rfl, guarded.remember rfl rfl (guarded.texts.insert rfl)⟩

theorem combined_frozen {operator : Operator} {op : ArrayStore → Datum → Datum → Except Fault (Datum × ArrayStore)}
    (combines : State.combine? operator = some op) {x y : Slot} (left : x.Typed base first) (right : y.Typed base first) :
    Echoes (Provides base first) (s.combined op x y)
      ((s.frozen base first).combined op (x.frozen base first) (y.frozen base first)) := by
  refine x.type_echoes.bind ?_
  rintro type _ ⟨rfl, known⟩
  split
  next integer =>
    subst integer
    rw [left.frozen_int known]
    refine y.type_echoes.bind ?_
    rintro type _ ⟨rfl, known⟩
    split
    next integer =>
      subst integer
      rw [right.frozen_int known]
      refine (Echoes.refl _).bind ?_
      rintro a _ rfl
      refine (Echoes.refl _).bind ?_
      rintro b _ rfl
      refine (Echoes.self (ArrayStore.combine?_adds guarded.arrays combines a b).lift).bind ?_
      rintro result _ ⟨rfl, adds⟩
      exact ⟨rfl, Slot.frozen_value adds.fixed, rfl, adds.unshared, guarded.frames, guarded.texts.of_heap rfl⟩
    · exact .unexpected _ _ _ _ _
  · exact .unexpected _ _ _ _ _

private theorem charAt_frozen (typed : x.Typed base first) (y : Slot) :
    Echoes (Provides base first) (call s .charAt [x, y])
      (call (s.frozen base first) .charAt [x.frozen base first, y.frozen base first]) := by
  refine x.type_echoes.bind ?_
  rintro type _ ⟨rfl, known⟩
  refine .guard (.shown _ _ _) fun integer => ?_
  obtain rfl := not_not.mp integer
  rw [typed.frozen_int known]
  refine (refuseNull_frozen _ y).bind ?_
  intro _ _ _
  refine (textOf_frozen _ y).bind ?_
  rintro text _ rfl
  refine .guard (.same _) fun _ => ?_
  refine (Echoes.refl _).bind ?_
  rintro place _ rfl
  refine (Echoes.refl _).bind ?_
  rintro within _ rfl
  split
  · refine (Echoes.refl _).bind ?_
    rintro position _ rfl
    split
    · exact provides_value guarded trivial
    · exact .fail _
  · exact .fail _

private theorem substring_frozen {z : Slot} (last : x.Typed base first) (start : y.Typed base first) :
    Echoes (Provides base first) (call s .substring [x, y, z])
      (call (s.frozen base first) .substring [x.frozen base first, y.frozen base first, z.frozen base first]) := by
  refine y.type_echoes.bind ?_
  rintro type _ ⟨rfl, known⟩
  refine .guard (.shown _ _ _) fun integer => ?_
  obtain rfl := not_not.mp integer
  rw [start.frozen_int known]
  refine x.type_echoes.bind ?_
  rintro type _ ⟨rfl, known⟩
  refine .guard (.shown _ _ _) fun integer => ?_
  obtain rfl := not_not.mp integer
  rw [last.frozen_int known]
  refine (refuseNull_frozen _ z).bind ?_
  intro _ _ _
  refine (textOf_frozen _ z).bind ?_
  rintro text _ rfl
  refine (Echoes.refl _).bind ?_
  rintro i _ rfl
  refine (Echoes.refl _).bind ?_
  rintro j _ rfl
  refine (Echoes.refl _).bind ?_
  rintro negative _ rfl
  refine .guard (.same _) fun _ => ?_
  refine (Echoes.refl _).bind ?_
  rintro before _ rfl
  refine .guard (.same _) fun _ => ?_
  refine (Echoes.refl _).bind ?_
  rintro beyond _ rfl
  refine .guard (.same _) fun _ => ?_
  split
  · exact provides_alloc guarded _
  · exact .fail _

private theorem concat_frozen (x y : Slot) :
    Echoes (Provides base first) (call s .concat [x, y])
      (call (s.frozen base first) .concat [x.frozen base first, y.frozen base first]) := by
  refine (refuseNull_frozen _ y).bind ?_
  intro _ _ _
  refine (textOf_frozen _ y).bind ?_
  rintro text _ rfl
  have joined : Echoes (Provides base first)
      (do return s.alloc (.text (text ++ (← textOf s .stringArgument x))))
      (do return (s.frozen base first).alloc (.text (text ++ (← textOf (s.frozen base first) .stringArgument
        (x.frozen base first))))) := by
    refine (textOf_frozen _ x).bind ?_
    rintro more _ rfl
    exact provides_alloc guarded _
  refine x.content_echoes.bind ?_
  rintro d _ ⟨rfl, -⟩
  rcases d.frozen_cases base first with same | ⟨handle, items, -, rfl, frozen⟩
  · rw [same]
    cases d with
    | null => exact provides_alloc guarded _
    | _ => exact joined
  · rw [frozen]
    exact joined

theorem call_frozen (c : StringCall) (operands : List Slot) (typed : ∀ x ∈ operands, x.Typed base first) :
    Echoes (Provides base first) (call s c operands)
      (call (s.frozen base first) c (operands.map (Slot.frozen base first))) := by
  cases c with
  | length =>
    rcases operands with _ | ⟨recv, _ | ⟨_, _⟩⟩ <;> try exact .fail _
    refine (refuseNull_frozen _ recv).bind ?_
    intro _ _ _
    refine (textOf_frozen _ recv).bind ?_
    rintro text _ rfl
    exact provides_value guarded trivial
  | concat =>
    rcases operands with _ | ⟨arg, _ | ⟨recv, _ | ⟨_, _⟩⟩⟩ <;> try exact .fail _
    exact concat_frozen guarded arg recv
  | equals =>
    rcases operands with _ | ⟨other, _ | ⟨recv, _ | ⟨_, _⟩⟩⟩ <;> try exact .fail _
    refine (stringOf_frozen recv).bind ?_
    rintro a _ rfl
    refine (stringOf_frozen other).bind ?_
    rintro b _ rfl
    exact provides_value guarded trivial
  | equalsIgnoreCase =>
    rcases operands with _ | ⟨other, _ | ⟨recv, _ | ⟨_, _⟩⟩⟩ <;> try exact .fail _
    refine (stringOf_frozen recv).bind ?_
    rintro a _ rfl
    refine (stringOf_frozen other).bind ?_
    rintro b _ rfl
    refine (Echoes.refl _).bind ?_
    rintro same _ rfl
    exact provides_value guarded trivial
  | charAt =>
    rcases operands with _ | ⟨index, _ | ⟨recv, _ | ⟨_, _⟩⟩⟩ <;> try exact .fail _
    exact charAt_frozen guarded (typed index List.mem_cons_self) recv
  | substring =>
    rcases operands with _ | ⟨last, _ | ⟨start, _ | ⟨recv, _ | ⟨_, _⟩⟩⟩⟩ <;> try exact .fail _
    exact substring_frozen guarded (typed last List.mem_cons_self)
      (typed start (List.mem_cons_of_mem last List.mem_cons_self))
  | other name => exact .fail _

theorem put_frozen (this : Slot) (text : String) :
    Echoes (Mirrors base first)
      (do
        match Operand.ofDatum? (← this.content) with
        | some ref => return { s with heap := s.heap.insert ref (.text text) }
        | none => s.unexpected .thisRef [this])
      (do
        match Operand.ofDatum? (← (this.frozen base first).content) with
        | some ref => return { s.frozen base first with heap := (s.frozen base first).heap.insert ref (.text text) }
        | none => (s.frozen base first).unexpected .thisRef [this.frozen base first]) := by
  refine this.content_echoes.bind ?_
  rintro content _ ⟨rfl, -⟩
  rw [Operand.ofDatum?_frozen]
  split
  · exact ⟨rfl, guarded.remember rfl rfl (guarded.texts.insert rfl)⟩
  · exact .unexpected _ _ _ _ _

theorem setUp_frozen (setup : StringSetup) (operands : List Slot) :
    Echoes (Mirrors base first) (setUp s setup operands)
      (setUp (s.frozen base first) setup (operands.map (Slot.frozen base first))) := by
  cases setup with
  | copying =>
    rcases operands with _ | ⟨arg, _ | ⟨this, _ | ⟨_, _⟩⟩⟩ <;> try exact .fail _
    refine ((stringOf_frozen arg).and_left (stringOf_isString guarded.texts arg)).bind ?_
    rintro a _ ⟨rfl, null | ⟨text, rfl⟩⟩
    · subst null
      exact put_frozen guarded this ""
    · exact put_frozen guarded this text
  | empty =>
    rcases operands with _ | ⟨this, _ | ⟨_, _⟩⟩ <;> try exact .fail _
    exact put_frozen guarded this ""
  | chars =>
    rcases operands with _ | ⟨arg, _ | ⟨this, _ | ⟨_, _⟩⟩⟩ <;> try exact .fail _
    refine arg.type_echoes.bind ?_
    rintro type _ ⟨rfl, -⟩
    refine .guard (.shown _ _ _) fun _ => ?_
    refine arg.content_echoes.bind ?_
    rintro content _ ⟨rfl, -⟩
    rw [Operand.ofDatum?_frozen]
    cases Operand.ofDatum? content with
    | none => exact .unexpected _ _ _ _ _
    | some ref =>
      have same : (s.frozen base first).heap.find? ref = s.heap.find? ref := rfl
      dsimp only
      rw [same]
      cases found : s.heap.find? ref with
      | none => exact put_frozen guarded this ""
      | some d =>
        obtain ⟨text, rfl⟩ := guarded.texts ref d found
        refine (Echoes.refl _).bind ?_
        rintro items _ rfl
        refine (Echoes.refl _).bind ?_
        rintro parts _ rfl
        exact put_frozen guarded this _
  | other method descriptor => exact .fail _

end Calls

end Concrete

end BytecodeBench
