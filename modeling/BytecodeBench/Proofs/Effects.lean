import BytecodeBench.Machine.Abstract
import BytecodeBench.Machine.Concrete

/-! What instructions do, one equation for each, on a stack that has the operands they take. A shorter
stack is a fault. -/

namespace BytecodeBench

variable {f : Frame} {i : Instruction} {rest : List Slot} {v a b : Slot} {type : JvmType} {index amount target : Operand}
  {condition : String} {className : Datum} {field : FieldRef} {m : MethodRef} {c : StringCall} {value : Value}
  {words : Operand} {operator : Operator}
  {combine : ArrayStore → Datum → Datum → Except Fault (Datum × ArrayStore)}

theorem State.pushConstant_value {L : Type} [BEq L] {keep : String → L} {content : L → Datum} {s : State L} {v : Value}
    (plain : v.type ≠ .reference) : s.pushConstant keep content f v = s.proceedWith f (.value v :: f.stack) := by
  unfold pushConstant
  split
  next reference _ => exact (plain reference).elim
  · rfl

theorem State.pushConstant_literal {L : Type} [BEq L] (keep : String → L) (content : L → Datum) (s : State L) (f : Frame)
    (text : String) :
    s.pushConstant keep content f ⟨.reference, .text text⟩ =
      (s.intern (keep text) (content (keep text))).2.proceedWith f
        ((s.intern (keep text) (content (keep text))).1 :: f.stack) := rfl

theorem State.create_other {L : Type} {emptyString : Datum} {s : State L}
    (other : className.isText "java/lang/String" = false) :
    s.create emptyString f className = s.proceedWith f (.int 0 :: f.stack) := by
  unfold create
  rw [other]
  rfl

namespace Concrete

variable {s : State String}

theorem effect_short (short : f.stack.length < arity i.operation) : effect s f i = .error (.fault .badIndex) := by
  have few : (f.stack.take (arity i.operation)).length < arity i.operation := by
    rw [List.length_take]
    omega
  unfold effect
  simp only [few, ↓reduceIte]
  rfl

theorem refuseNull_present {outcome : Query} {v : Value} (present : v.content ≠ .null) :
    refuseNull outcome (.value v) = .ok () := by
  obtain ⟨type, content⟩ := v
  cases content <;> first | rfl | exact (present rfl).elim

private theorem zeroJump_value {v : Value} : zeroJump s condition (.value v) =
    match v.content.integer? with
    | some n => liftM (State.zeroCondition condition (.int n))
    | none => s.unexpected .truthLike [.value v] := rfl

theorem zeroJump_integer {v : Value} {n : Int} (integer : v.content.integer? = some n) :
    zeroJump s condition (.value v) = liftM (State.zeroCondition condition (.int n)) := by
  rw [zeroJump_value, integer]

theorem zeroJump_other {v : Value} (other : v.content.integer? = none) :
    zeroJump s condition (.value v) = s.unexpected .truthLike [.value v] := by
  rw [zeroJump_value, other]

theorem effect_push (op : i.operation = .push value) : effect s f i = .ok (s.pushConstant id .text f value) := by
  obtain ⟨offset, operation⟩ := i
  cases op
  rfl

theorem effect_increment (op : i.operation = .increment index amount) : effect s f i = s.increment f index amount := by
  obtain ⟨offset, operation⟩ := i
  cases op
  rfl

theorem effect_pop (op : i.operation = .pop) : effect s f i = s.pop f := by
  obtain ⟨offset, operation⟩ := i
  obtain ⟨locals, stack, pc⟩ := f
  cases op
  cases stack <;> rfl

theorem effect_load (op : i.operation = .load type index) : effect s f i = s.load f index := by
  obtain ⟨offset, operation⟩ := i
  cases op
  rfl

theorem effect_store (op : i.operation = .store type index) : effect s f i = s.store f index := by
  obtain ⟨offset, operation⟩ := i
  obtain ⟨locals, stack, pc⟩ := f
  cases op
  cases stack <;> rfl

theorem effect_dup (op : i.operation = .dup words) : effect s f i = s.duplicate f := by
  obtain ⟨offset, operation⟩ := i
  cases op
  rfl

theorem effect_goto (op : i.operation = .goto target) : effect s f i = .ok (s.branch f f.stack target true) := by
  obtain ⟨offset, operation⟩ := i
  cases op
  rfl

theorem effect_get (op : i.operation = .get true field) :
    effect s f i = .ok (s.proceedWith f (.int 0 :: f.stack)) := by
  obtain ⟨offset, operation⟩ := i
  cases op
  rfl

theorem effect_new (op : i.operation = .new className) : effect s f i = .ok (s.create (.text "") f className) := by
  obtain ⟨offset, operation⟩ := i
  cases op
  rfl

theorem effect_zeroJump (op : i.operation = .zeroJump condition target) (stack : f.stack = v :: rest) :
    effect s f i = (do return s.branch f rest target (← zeroJump s condition v)) := by
  obtain ⟨offset, operation⟩ := i
  obtain ⟨locals, held, pc⟩ := f
  cases op
  cases stack
  rfl

theorem effect_compareJump (op : i.operation = .compareJump condition target) (stack : f.stack = b :: a :: rest) :
    effect s f i = (do return s.branch f rest target (← pairJump s condition a b)) := by
  obtain ⟨offset, operation⟩ := i
  obtain ⟨locals, held, pc⟩ := f
  cases op
  cases stack
  rfl

theorem effect_binary (op : i.operation = .binary .int operator) (stack : f.stack = b :: a :: rest)
    (combines : State.combine? operator = some combine) :
    effect s f i = (do
      let (result, s) ← s.combined combine a b
      return s.proceedWith f (result :: rest)) := by
  obtain ⟨offset, operation⟩ := i
  obtain ⟨locals, held, pc⟩ := f
  cases op
  cases stack
  cases operator <;> cases combines <;> rfl

theorem effect_divide (op : i.operation = .binary .int .div) (stack : f.stack = b :: a :: rest) :
    effect s f i = (do return s.proceedWith f ((← divide s a b) :: rest)) := by
  unfold effect
  simp only [op, arity, stack, List.take_succ_cons, List.take_zero, List.drop_succ_cons, List.drop_zero, State.combine?]
  cases divide s a b <;> rfl

theorem effect_arrayLoad (op : i.operation = .arrayLoad type) (stack : f.stack = a :: b :: rest) :
    effect s f i = (do return s.proceedWith f ((← arrayLoad s type a b) :: rest)) := by
  obtain ⟨offset, operation⟩ := i
  obtain ⟨locals, held, pc⟩ := f
  cases op
  cases stack
  rfl

theorem effect_arrayLength (op : i.operation = .arrayLength) (stack : f.stack = v :: rest) :
    effect s f i = (do return s.proceedWith f ((← arrayLength s v) :: rest)) := by
  obtain ⟨offset, operation⟩ := i
  obtain ⟨locals, held, pc⟩ := f
  cases op
  cases stack
  rfl

theorem effect_arrayStore (op : i.operation = .arrayStore type) (stack : f.stack = v :: a :: b :: rest) :
    effect s f i = (do return (← arrayStore s v a b).proceedWith f rest) := by
  obtain ⟨offset, operation⟩ := i
  obtain ⟨locals, held, pc⟩ := f
  cases op
  cases stack
  rfl

theorem effect_throw (op : i.operation = .throw) (stack : f.stack = v :: rest) :
    effect s f i = (do
      refuseNull .nullPointer v
      throw (.ended .assertionError)) := by
  obtain ⟨offset, operation⟩ := i
  obtain ⟨locals, held, pc⟩ := f
  cases op
  cases stack
  rfl

theorem effect_otherCall (op : i.operation = .invokeVirtual m) (other : StringCall.of? m = none) :
    effect s f i = .ok (s.proceed f) := by
  simp [effect, op, arity, other, pure, Except.pure]

theorem effect_stringCall (op : i.operation = .invokeVirtual m) (called : StringCall.of? m = some c)
    (enough : c.arity ≤ f.stack.length) :
    effect s f i = (do
      let (result, s) ← call s c (f.stack.take c.arity)
      return s.proceedWith f (result :: f.stack.drop c.arity)) := by
  simp [effect, op, arity, called, enough]

theorem effect_staticCall (op : i.operation = .invokeStatic m) : effect s f i = .ok (s.proceed f) := by
  obtain ⟨offset, operation⟩ := i
  cases op
  rfl

theorem effect_otherSetup {isInterface : Bool} (op : i.operation = .invokeSpecial m isInterface)
    (other : StringSetup.of? m = none) : effect s f i = .ok (s.proceed f) := by
  simp [effect, op, arity, other, pure, Except.pure]

theorem effect_setUp {isInterface : Bool} {setup : StringSetup} (op : i.operation = .invokeSpecial m isInterface)
    (called : StringSetup.of? m = some setup) (enough : setup.arity ≤ f.stack.length) :
    effect s f i = (do
      let s ← setUp s setup (f.stack.take setup.arity)
      return s.proceedWith f (f.stack.drop setup.arity)) := by
  simp [effect, op, arity, called, enough]

/-- A return has no effect of its own. -/
theorem effect_return {result : Option JvmType} (op : i.operation = .return result) :
    ∃ cause, effect s f i = .error (.fault cause) := by
  obtain ⟨offset, operation⟩ := i
  obtain ⟨locals, stack, pc⟩ := f
  cases op
  rcases result with _ | type
  · exact ⟨_, rfl⟩
  · cases type with
    | int => cases stack <;> exact ⟨_, rfl⟩
    | _ => exact ⟨_, rfl⟩

/-- Returns aside, executing an instruction is having its effect. -/
theorem execute_effect (other : ∀ type, i.operation ≠ .return type) :
    execute s f i =
      match effect s f i with
      | .ok after => (after, none)
      | .error halt => (s.withTop { f with stack := f.stack.drop (arity i.operation) }, some halt) := by
  unfold execute
  split
  next op _ => exact (other _ op).elim
  next op => exact (other _ op).elim
  · rfl

end Concrete

namespace Abstract

variable {t : State StringSign} {static : Bool}

theorem effect_push (op : i.operation = .push value) :
    effect t f i = .ok (t.pushConstant .abstract .sign f value) := by
  obtain ⟨offset, operation⟩ := i
  cases op
  rfl

theorem effect_increment (op : i.operation = .increment index amount) : effect t f i = t.increment f index amount := by
  obtain ⟨offset, operation⟩ := i
  cases op
  rfl

theorem effect_pop (op : i.operation = .pop) : effect t f i = t.pop f := by
  obtain ⟨offset, operation⟩ := i
  obtain ⟨locals, stack, pc⟩ := f
  cases op
  cases stack <;> rfl

theorem effect_load (op : i.operation = .load type index) : effect t f i = t.load f index := by
  obtain ⟨offset, operation⟩ := i
  cases op
  rfl

theorem effect_store (op : i.operation = .store type index) : effect t f i = t.store f index := by
  obtain ⟨offset, operation⟩ := i
  obtain ⟨locals, stack, pc⟩ := f
  cases op
  cases stack <;> rfl

theorem effect_dup (op : i.operation = .dup words) : effect t f i = t.duplicate f := by
  obtain ⟨offset, operation⟩ := i
  cases op
  rfl

theorem effect_goto (op : i.operation = .goto target) : effect t f i = .ok (t.branch f f.stack target true) := by
  obtain ⟨offset, operation⟩ := i
  cases op
  rfl

theorem effect_get (op : i.operation = .get static field) :
    effect t f i = .ok (t.proceedWith f (.int 0 :: f.stack)) := by
  obtain ⟨offset, operation⟩ := i
  cases op
  rfl

theorem effect_new (op : i.operation = .new className) :
    effect t f i = .ok (t.create (.sign (.abstract "")) f className) := by
  obtain ⟨offset, operation⟩ := i
  cases op
  rfl

theorem effect_zeroJump (op : i.operation = .zeroJump condition target) (stack : f.stack = v :: rest) :
    effect t f i = (do return t.branch f rest target (← zeroJump t condition v)) := by
  obtain ⟨offset, operation⟩ := i
  obtain ⟨locals, held, pc⟩ := f
  cases op
  cases stack
  rfl

theorem effect_compareJump (op : i.operation = .compareJump condition target) (stack : f.stack = b :: a :: rest) :
    effect t f i = (do return t.branch f rest target (← pairJump t condition a b)) := by
  obtain ⟨offset, operation⟩ := i
  obtain ⟨locals, held, pc⟩ := f
  cases op
  cases stack
  rfl

theorem effect_binary (op : i.operation = .binary .int operator) (stack : f.stack = b :: a :: rest)
    (combines : State.combine? operator = some combine) :
    effect t f i = (do
      let (result, t) ← combined t combine a b
      return t.proceedWith f (result ++ rest)) := by
  obtain ⟨offset, operation⟩ := i
  obtain ⟨locals, held, pc⟩ := f
  cases op
  cases stack
  cases operator <;> cases combines <;> rfl

theorem effect_throw (op : i.operation = .throw) : effect t f i = .error (.ended .assertionError) := by
  obtain ⟨offset, operation⟩ := i
  cases op
  rfl

theorem effect_otherCall (op : i.operation = .invokeVirtual m) (other : StringCall.of? m = none) :
    effect t f i = .ok (t.proceed f) := by
  simp [effect, op, arity, other, pure, Except.pure]

theorem effect_stringCall (op : i.operation = .invokeVirtual m) (called : StringCall.of? m = some c)
    (enough : c.arity ≤ f.stack.length) :
    effect t f i = (do
      let (result, t) ← call t c (f.stack.take c.arity)
      return t.proceedWith f (result :: f.stack.drop c.arity)) := by
  simp [effect, op, arity, called, enough]

theorem execute_effect (other : ∀ type, i.operation ≠ .return type) :
    execute t f i =
      match effect t f i with
      | .ok after => (after, none)
      | .error halt => (t.withTop { f with stack := f.stack.drop (arity i.operation) }, some halt) := by
  unfold execute
  split
  next op => exact (other _ op).elim
  · rfl

end Abstract
end BytecodeBench
