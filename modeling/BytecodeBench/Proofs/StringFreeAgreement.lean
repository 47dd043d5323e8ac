import BytecodeBench.Proofs.Lockstep

/-! Code without strings runs alike on both machines. Slots of machines in lockstep are then equal, and
none of them holds null: a null would tell the machines apart, since only one of them looks for it
before it throws. -/

namespace BytecodeBench

/-- Instructions that handle neither strings nor arrays and push no null. -/
def Operation.StringFree : Operation → Prop
  | .increment .. | .compareJump .. | .zeroJump .. | .throw => True
  | .binary type operator => type = .int ∧ (operator = .add ∨ operator = .sub ∨ operator = .mul)
  | .return type => type = none ∨ type = some .int
  | other => other.MovesSlots

structure Slot.SharePresent (x y : Slot) : Prop where
  same : x = y
  present : ∃ v : Value, x = .value v ∧ v.content ≠ .null

theorem Slot.SharePresent.value {v : Value} (present : v.content ≠ .null) : SharePresent (.value v) (.value v) :=
  ⟨rfl, v, rfl, present⟩

/-! Arithmetic never gives null. -/

section Arithmetic

variable {store : ArrayStore}

theorem Datum.onNumbers_present (ints : Int → Int → Int) (reals : Float → Float → Float) (a b : Datum) :
    Yields (· ≠ .null) (onNumbers ints reals a b) := by
  unfold onNumbers
  split
  · exact .pure (by simp)
  · split
    · split
      · exact .throw
      · exact .pure (by simp)
    · exact .throw

theorem Datum.add_present (a b : Datum) : Yields (· ≠ .null) (a.add b) := by
  unfold add
  split
  · exact .pure (by simp)
  · exact .pure (by simp)
  · exact onNumbers_present _ _ _ _

theorem Datum.repeated_present {d : Datum} {count : Int} {result : Datum} (found : d.repeated count = some result) :
    result ≠ .null := by
  cases d <;> cases found <;> simp

theorem Datum.mul_present (a b : Datum) : Yields (· ≠ .null) (a.mul b) := by
  unfold mul
  split
  next found =>
    obtain ⟨n, _, held⟩ := Option.bind_eq_some_iff.mp found
    exact .pure (repeated_present held)
  next found =>
    obtain ⟨n, _, held⟩ := Option.bind_eq_some_iff.mp found
    exact .pure (repeated_present held)
  · exact onNumbers_present _ _ _ _

theorem ArrayStore.add_present (a b : Datum) : Yields (·.1 ≠ .null) (store.add a b) := by
  unfold add
  split
  · exact .bind fun _ _ => .bind fun _ _ => .pure (by simp [alloc])
  · exact .bind fun d done => .pure (Datum.add_present _ _ d done)

theorem ArrayStore.sub_present (a b : Datum) : Yields (·.1 ≠ .null) (store.sub a b) :=
  .bind fun d done => .pure (Datum.onNumbers_present _ _ _ _ d done)

theorem ArrayStore.mul_present (a b : Datum) : Yields (·.1 ≠ .null) (store.mul a b) := by
  unfold mul
  extract_lets repeated
  have present (array count : Datum) : Yields (·.1 ≠ .null) (repeated array count) := by
    unfold repeated
    split
    · exact .bind fun _ _ => .pure (by simp [alloc])
    · exact .throw
  split
  · exact present _ _
  · exact present _ _
  · exact .bind fun d done => .pure (Datum.mul_present _ _ d done)

theorem State.combine?_present {operator : Operator}
    {op : ArrayStore → Datum → Datum → Except Fault (Datum × ArrayStore)} (combines : combine? operator = some op)
    (store : ArrayStore) (a b : Datum) : Yields (·.1 ≠ .null) (op store a b) := by
  cases operator <;> cases combines
  · exact ArrayStore.add_present a b
  · exact ArrayStore.sub_present a b
  · exact ArrayStore.mul_present a b

end Arithmetic

namespace Twins

variable {s : State String} {t : State StringSign} {f g : Frame}

/-- Machines in lockstep on equal slots have equal frames. -/
theorem frames_eq (twins : Twins Slot.SharePresent s t f g) : f = g := by
  have stack : f.stack = g.stack := List.forall₂_eq_eq_eq ▸ twins.stack.imp fun _ _ shared => shared.same
  have locals : f.locals = g.locals :=
    List.forall₂_eq_eq_eq ▸ twins.locals.imp fun _ _ related => Prod.ext related.1 related.2.same
  obtain ⟨_, _, _⟩ := f
  obtain ⟨_, _, _⟩ := g
  cases stack
  cases locals
  cases twins.pc
  rfl

theorem increment (twins : Twins Slot.SharePresent s t f g) (index amount : Operand) :
    Refines (Moved Slot.SharePresent s t) (s.increment f index amount) (t.increment g index amount) := by
  obtain rfl := twins.frames_eq
  unfold State.increment
  refine (Refines.refl _).bind ?_
  rintro type _ rfl
  split
  · refine (Refines.refl _).bind ?_
    rintro before _ rfl
    refine (Refines.self (Datum.add_present before amount.datum).lift).bind ?_
    rintro sum _ ⟨rfl, present⟩
    refine .ok (twins.withTop rfl twins.stack (twins.locals.insert index (.value ?_)))
    exact present
  · trivial

theorem withArrays (twins : Twins Slot.SharePresent s t f g) (arrays : ArrayStore) :
    Twins Slot.SharePresent { s with arrays } { t with arrays } f g :=
  ⟨twins.left, twins.right, twins.pc, twins.stack, twins.locals, rfl⟩

end Twins

/-- Typed operands combine by their contents if both are integers. -/
theorem State.combined_values {L : Type} (s : State L)
    (op : ArrayStore → Datum → Datum → Except Fault (Datum × ArrayStore)) (v w : Value) :
    s.combined op (.value v) (.value w) =
      if v.type = .int then
        if w.type = .int then do
          let (d, arrays) ← op s.arrays v.content w.content
          return (.value ⟨.int, d⟩, { s with arrays })
        else s.unexpected .ints [.value v, .value w]
      else s.unexpected .ints [.value v, .value w] := rfl

section Steps

variable {s : State String} {t : State StringSign} {f g : Frame} {i : Instruction}

def SameFrame (s : State String) (t : State StringSign) : Prop := ∃ f g, Twins Slot.SharePresent s t f g

private theorem combined_refines (same : s.arrays = t.arrays) {operator : Operator}
    {op : ArrayStore → Datum → Datum → Except Fault (Datum × ArrayStore)}
    (combines : State.combine? operator = some op) (v w : Value) :
    Refines (fun x y => ∃ d arrays, d ≠ .null ∧ x = (.value ⟨.int, d⟩, { s with arrays }) ∧
        y = ([.value ⟨.int, d⟩], { t with arrays }))
      (s.combined op (.value v) (.value w)) (Abstract.combined t op (.value v) (.value w)) := by
  unfold Abstract.combined
  dsimp only
  rw [State.combined_values, State.combined_values, ← same]
  split
  · split
    · have present := State.combine?_present combines s.arrays v.content w.content
      rcases done : op s.arrays v.content w.content with cause | ⟨d, arrays⟩
      · trivial
      · exact ⟨_, rfl, d, arrays, present _ done, rfl, rfl⟩
    · trivial
  · trivial

private theorem binary_sameFrame (twins : Twins Slot.SharePresent s t f g) {operator : Operator}
    (op : i.operation = .binary .int operator) (plain : operator = .add ∨ operator = .sub ∨ operator = .mul) :
    Refines SameFrame (Concrete.effect s f i) (Abstract.effect t g i) := by
  have combines : ∃ combine, State.combine? operator = some combine := by
    rcases plain with rfl | rfl | rfl <;> exact ⟨_, rfl⟩
  obtain ⟨combine, combines⟩ := combines
  have arity : Concrete.arity i.operation = 2 := by
    rw [op]
    rcases plain with rfl | rfl | rfl <;> rfl
  refine twins.takesTwo arity ?_
  rintro b _ a _ rest tail left right ⟨rfl, w, rfl, _⟩ ⟨rfl, v, rfl, _⟩ related
  rw [Concrete.effect_binary op left combines, Abstract.effect_binary op right combines]
  refine (combined_refines twins.arrays combines v w).bind ?_
  rintro _ _ ⟨d, arrays, present, rfl, rfl⟩
  exact .ok ((twins.withArrays arrays).proceedWith (.cons (.value present) related)).twins

private theorem compareJump_sameFrame (twins : Twins Slot.SharePresent s t f g) {condition : String} {target : Operand}
    (op : i.operation = .compareJump condition target) :
    Refines (Moved Slot.SharePresent s t) (Concrete.effect s f i) (Abstract.effect t g i) := by
  refine twins.compareJump op ?_
  rintro a _ b _ ⟨rfl, v, rfl, _⟩ ⟨rfl, w, rfl, _⟩
  -- Identity is asked of the arrays that the values refer to; every other condition, of integers.
  by_cases identity : condition = "is"
  · subst identity
    have same : s.sameValues v w = t.sameValues v w := by
      unfold State.sameValues
      rw [twins.arrays]
    exact ⟨_, rfl, same⟩
  · exact pairJump_refines identity (toInteger_refines twins.arrays v) (toInteger_refines twins.arrays w)

private theorem effect_sameFrame (twins : Twins Slot.SharePresent s t f g) (free : i.operation.StringFree)
    (other : ∀ type, i.operation ≠ .return type) :
    Refines SameFrame (Concrete.effect s f i) (Abstract.effect t g i) := by
  have moved (refines : Refines (Moved Slot.SharePresent s t) (Concrete.effect s f i) (Abstract.effect t g i)) :
      Refines SameFrame (Concrete.effect s f i) (Abstract.effect t g i) :=
    refines.weaken fun _ _ moved => moved.twins
  cases op : i.operation with
  | increment index amount =>
    refine moved ?_
    rw [Concrete.effect_increment op, Abstract.effect_increment op]
    exact twins.increment index amount
  | compareJump condition target => exact moved (compareJump_sameFrame twins op)
  | zeroJump condition target =>
    refine moved (twins.zeroJump op ?_)
    rintro x _ _ ⟨rfl, v, rfl, _⟩
    exact zeroJump_refines v
  | throw => exact twins.throw op fun _ _ shared => shared.present
  | binary type operator =>
    rw [op] at free
    obtain ⟨rfl, plain⟩ := free
    exact binary_sameFrame twins op plain
  | «return» type => exact (other type op).elim
  | _ =>
    rw [op] at free
    exact moved (twins.movesSlots (fun v plain => .value plain.2) (op ▸ free))

private theorem step_sameFrame {program : Program} {locate : Concrete.Locate}
    (free : program.BuiltFrom Operation.StringFree)
    {w : Concrete.Watched} (unwatched : w.coverage = none) (related : SameFrame w.state t) :
    Follows (fun (w : Concrete.Watched) t => w.coverage = none ∧ SameFrame w.state t)
      (Concrete.step program locate w) (Abstract.step program t) := by
  obtain ⟨f, g, twins⟩ := related
  refine twins.step unwatched fun i next => ?_
  have allowed := free.next next
  refine twins.execute ?_ (effect_sameFrame twins allowed)
  intro type op
  rw [op] at allowed
  exact allowed

end Steps

/-- On code without strings the machine on signs gives the result of the machine on texts, unless that
meets a fault, and as long as they run their frames are equal. -/
theorem Call.string_free_runs_agree (c : Call) (budget : Nat) (free : c.program.BuiltFrom Operation.StringFree)
    (present : ∀ v ∈ c.args, v.content ≠ .null) :
    (∀ result, Halt.outcome (c.onTexts budget).2 = .ok result → Halt.outcome (c.onSigns budget).2 = .ok result) ∧
    ∀ k ≤ budget, ∀ w, c.onTexts k = (w, none) →
      ∃ t, c.onSigns k = (t, none) ∧ t.frames = w.state.frames := by
  have simulated := @c.simulated budget SameFrame (fun _ => True)
    ⟨_, _, .ofCall c.method c.arrays fun v member => .value (present v member)⟩
    (fun _ _ unwatched related _ => step_sameFrame free unwatched related) (fun _ _ _ _ => trivial)
  refine ⟨simulated.1, ?_⟩
  intro k within w ran
  obtain ⟨t, running, f, g, twins⟩ := simulated.2 k within w ran
  refine ⟨t, running, ?_⟩
  rw [twins.left, twins.right, twins.frames_eq]

def countdown : Call where
  program.code := fun _ => .ok #[⟨.int 0, .load .int (.number 0)⟩, ⟨.int 1, .zeroJump "le" (.number 4)⟩,
    ⟨.int 2, .increment (.number 0) (.number (-1))⟩, ⟨.int 3, .goto (.number 0)⟩, ⟨.int 4, .return none⟩]
  locate := fun _ _ => 0
  method := ⟨⟨"Sample"⟩, ⟨"run", [.int], none⟩⟩
  args := [.int 1]
  arrays := {}

theorem countdown_agrees :
    countdown.program.BuiltFrom Operation.StringFree ∧ (∀ v ∈ countdown.args, v.content ≠ .null) ∧
      Halt.outcome (countdown.onTexts 7).2 = .ok .ok ∧ Halt.outcome (countdown.onSigns 7).2 = .ok .ok := by
  have free : countdown.program.BuiltFrom Operation.StringFree := by
    intro method code found i inside
    cases found
    simp only [List.mem_toArray, List.mem_cons, List.not_mem_nil, or_false] at inside
    rcases inside with rfl | rfl | rfl | rfl | rfl
    · trivial
    · trivial
    · trivial
    · trivial
    · exact Or.inl rfl
  have present : ∀ v ∈ countdown.args, v.content ≠ .null := by
    intro v member
    rw [List.mem_singleton.mp member]
    simp [Value.int]
  have done : Halt.outcome (countdown.onTexts 7).2 = .ok .ok := rfl
  exact ⟨free, present, done, (countdown.string_free_runs_agree 7 free present).1 .ok done⟩

end BytecodeBench
