import BytecodeBench.Fuzz.Session
import BytecodeBench.Proofs.FrozenArrays
import BytecodeBench.Proofs.InputFidelity
import BytecodeBench.Proofs.Lockstep
import BytecodeBench.Proofs.ShiftedRuns

/-! Calls whose array arguments are given as tuples, and the same calls with lists for them. As long as no
instruction looks into an argument both do the same, step by step. The first one that does tells them apart:
behind a tuple there is no array. -/

namespace BytecodeBench

namespace Concrete

variable {base : ArrayStore} {first : Nat} {s : State String} {f : Frame} {i : Instruction}

/-- The instruction looks into a given array: it asks for its length or for an item, or the way that a
comparison takes depends on whether it is a tuple. -/
inductive Opens (base : ArrayStore) (first : Nat) (s : State String) (f : Frame) : Operation → Prop
  | length {type : JvmType} {handle : Nat} {rest : List Slot} : base.Given first handle →
    f.stack = .value ⟨type, .array handle⟩ :: rest → Opens base first s f .arrayLength
  | load {type item : JvmType} {place : Datum} {handle : Nat} {rest : List Slot} : base.Given first handle →
    f.stack = .value ⟨.int, place⟩ :: .value ⟨type, .array handle⟩ :: rest → Opens base first s f (.arrayLoad item)
  | compare {v w : Value} {rest : List Slot} {target : Operand} :
    s.sameValues (v.frozen base first) (w.frozen base first) ≠ s.sameValues v w → target ≠ f.pc.offset.next →
    f.stack = .value w :: .value v :: rest → Opens base first s f (.compareJump "is" target)

/-! Instructions that open nothing. -/

theorem short_frozen {related : State String → State String → Prop} (short : f.stack.length < arity i.operation) :
    Echoes related (effect s f i) (effect (s.frozen base first) (f.frozen base first) i) := by
  have frozen : (f.frozen base first).stack.length < arity i.operation := by
    rw [Frame.frozen, List.length_map]
    exact short
  rw [effect_short short, effect_short frozen]
  exact .fail _

section Effects

variable (guarded : Guarded base first s) (top : f.Typed base first)
include guarded top

private theorem push_frozen {v : Value} (constant : v.content.frozen base first = v.content) :
    Mirrors base first (s.pushConstant id .text f v) ((s.frozen base first).pushConstant id .text (f.frozen base first) v) := by
  have plain := guarded.push top (Slot.frozen_value constant) top.stack
  by_cases reference : v.type = .reference
  · obtain ⟨type, content⟩ := v
    subst reference
    cases content with
    | text text => exact (provides_intern guarded text).push top top.stack
    | _ => exact plain
  · rw [State.pushConstant_value reference, State.pushConstant_value reference]
    exact plain

private theorem increment_frozen (index amount : Operand) :
    Echoes (Mirrors base first) (s.increment f index amount)
      ((s.frozen base first).increment (f.frozen base first) index amount) := by
  have before : ((f.frozen base first).locals.find? index).getD (.int 0) =
      ((f.locals.find? index).getD (.int 0)).frozen base first := by
    rw [Frame.find?_frozen]
    cases f.locals.find? index <;> rfl
  have typed : ((f.locals.find? index).getD (.int 0)).Typed base first := by
    cases found : f.locals.find? index with
    | none => exact .of_frozen rfl
    | some x => exact top.locals index x found
  unfold State.increment
  rw [before]
  refine (Slot.type_echoes _).bind ?_
  rintro type _ ⟨rfl, known⟩
  split
  next integer =>
    subst integer
    rw [typed.frozen_int known]
    refine (Echoes.refl _).bind ?_
    rintro d _ rfl
    have sums : Yields (fun sum => Datum.frozen base first sum = sum) (d.add amount.datum) := Datum.add_frozen d _
    refine (Echoes.self sums.lift).bind ?_
    rintro sum _ ⟨rfl, fixed⟩
    have written : (Slot.value ⟨.int, sum⟩).frozen base first = .value ⟨.int, sum⟩ := Slot.frozen_value fixed
    have moved := guarded.write top index (.of_frozen written) top.stack
    rw [written] at moved
    exact moved
  · exact .unexpected _ _ _ _ _

private theorem create_frozen (className : Datum) :
    Mirrors base first (s.create (.text "") f className)
      ((s.frozen base first).create (.text "") (f.frozen base first) className) := by
  unfold State.create
  split
  · exact (provides_alloc guarded "").push top top.stack
  · exact guarded.push top rfl top.stack

private theorem pop_frozen : Echoes (Mirrors base first) (s.pop f) ((s.frozen base first).pop (f.frozen base first)) := by
  obtain ⟨locals, _ | ⟨v, rest⟩, pc⟩ := f
  · exact .fail _
  · exact guarded.proceedWith top (List.forall_mem_cons.mp top.stack).2

private theorem load_frozen (index : Operand) :
    Echoes (Mirrors base first) (s.load f index) ((s.frozen base first).load (f.frozen base first) index) := by
  unfold State.load
  rw [Frame.find?_frozen]
  cases found : f.locals.find? index with
  | none => exact .fail _
  | some x => exact guarded.proceedWith top (List.forall_mem_cons.mpr ⟨top.locals index x found, top.stack⟩)

private theorem store_frozen (index : Operand) :
    Echoes (Mirrors base first) (s.store f index) ((s.frozen base first).store (f.frozen base first) index) := by
  obtain ⟨locals, _ | ⟨v, rest⟩, pc⟩ := f
  · exact .fail _
  · obtain ⟨typed, held⟩ := List.forall_mem_cons.mp top.stack
    exact guarded.write top index typed held

private theorem duplicate_frozen :
    Echoes (Mirrors base first) (s.duplicate f) ((s.frozen base first).duplicate (f.frozen base first)) := by
  obtain ⟨locals, _ | ⟨v, rest⟩, pc⟩ := f
  · exact .fail _
  · exact guarded.proceedWith top (List.forall_mem_cons.mpr ⟨(List.forall_mem_cons.mp top.stack).1, top.stack⟩)

private theorem binary_frozen (operator : Operator) (op : i.operation = .binary .int operator) :
    Echoes (Mirrors base first) (effect s f i) (effect (s.frozen base first) (f.frozen base first) i) := by
  by_cases remainder : operator = .rem
  · subst remainder
    obtain ⟨offset, operation⟩ := i
    cases op
    exact .fail _
  have two : arity i.operation = 2 := by
    rw [op]
    cases operator <;> first | rfl | exact (remainder rfl).elim
  obtain ⟨locals, _ | ⟨y, _ | ⟨x, rest⟩⟩, pc⟩ := f
  · exact short_frozen (by simp [two])
  · exact short_frozen (by simp [two])
  · obtain ⟨right, more⟩ := List.forall_mem_cons.mp top.stack
    obtain ⟨left, held⟩ := List.forall_mem_cons.mp more
    cases combines : State.combine? operator with
    | some combine =>
      rw [effect_binary op rfl combines, effect_binary op rfl combines]
      refine (combined_frozen guarded combines left right).bind ?_
      intro result other provides
      exact provides.push top held
    | none =>
      have division : i.operation = .binary .int .div := by
        rw [op]
        cases operator <;> first | rfl | exact (remainder rfl).elim | cases combines
      rw [effect_divide division rfl, effect_divide division rfl]
      refine (divide_frozen left right).bind ?_
      rintro quotient _ ⟨rfl, fixed⟩
      exact guarded.push top fixed held

private theorem stringCall_frozen {m : MethodRef} {c : StringCall} (op : i.operation = .invokeVirtual m)
    (called : StringCall.of? m = some c) (enough : c.arity ≤ f.stack.length) :
    Echoes (Mirrors base first) (effect s f i) (effect (s.frozen base first) (f.frozen base first) i) := by
  have frozen : c.arity ≤ (f.frozen base first).stack.length := by
    rw [Frame.frozen, List.length_map]
    exact enough
  rw [effect_stringCall op called enough, effect_stringCall op called frozen]
  simp only [Frame.frozen, ← List.map_take, ← List.map_drop]
  refine (call_frozen guarded c _ fun x member => top.stack x (List.mem_of_mem_take member)).bind ?_
  intro result other provides
  exact provides.push top fun x member => top.stack x (List.mem_of_mem_drop member)

private theorem setUpCall_frozen {m : MethodRef} {isInterface : Bool} {setup : StringSetup}
    (op : i.operation = .invokeSpecial m isInterface) (called : StringSetup.of? m = some setup)
    (enough : setup.arity ≤ f.stack.length) :
    Echoes (Mirrors base first) (effect s f i) (effect (s.frozen base first) (f.frozen base first) i) := by
  have frozen : setup.arity ≤ (f.frozen base first).stack.length := by
    rw [Frame.frozen, List.length_map]
    exact enough
  rw [effect_setUp op called enough, effect_setUp op called frozen]
  simp only [Frame.frozen, ← List.map_take, ← List.map_drop]
  refine (setUp_frozen guarded setup _).bind ?_
  intro after other mirrors
  rw [mirrors.frozen]
  exact mirrors.guarded.proceedWith top fun x member => top.stack x (List.mem_of_mem_drop member)

private theorem arrayLength_echoes (op : i.operation = .arrayLength) (unopened : ¬ Opens base first s f .arrayLength) :
    Echoes (Mirrors base first) (effect s f i) (effect (s.frozen base first) (f.frozen base first) i) := by
  obtain ⟨locals, _ | ⟨ref, rest⟩, pc⟩ := f
  · exact short_frozen (by simp [op, arity])
  · rcases ref.frozen_cases base first with fixed | ⟨type, handle, given, rfl⟩
    · rw [effect_arrayLength op rfl, effect_arrayLength op rfl]
      refine (arrayLength_frozen fixed).bind ?_
      rintro size _ ⟨rfl, pushed⟩
      exact guarded.push top pushed (List.forall_mem_cons.mp top.stack).2
    · exact (unopened (.length given rfl)).elim

private theorem arrayLoad_echoes {type : JvmType} (op : i.operation = .arrayLoad type)
    (unopened : ¬ Opens base first s f (.arrayLoad type)) :
    Echoes (Mirrors base first) (effect s f i) (effect (s.frozen base first) (f.frozen base first) i) := by
  obtain ⟨locals, _ | ⟨index, _ | ⟨ref, rest⟩⟩, pc⟩ := f
  · exact short_frozen (by simp [op, arity])
  · exact short_frozen (by simp [op, arity])
  · obtain ⟨typed, more⟩ := List.forall_mem_cons.mp top.stack
    have closed : index.type = .ok .int → ref.frozen base first = ref := by
      intro integer
      rcases ref.frozen_cases base first with fixed | ⟨kind, handle, given, rfl⟩
      · exact fixed
      · cases index with
        | bare d => cases integer
        | value v =>
          obtain ⟨kind, place⟩ := v
          cases integer
          exact (unopened (.load given rfl)).elim
    rw [effect_arrayLoad op rfl, effect_arrayLoad op rfl]
    refine (guarded.arrayLoad_frozen type typed closed).bind ?_
    rintro item _ ⟨rfl, pushed⟩
    exact guarded.push top pushed (List.forall_mem_cons.mp more).2

end Effects

/-- A jump to the next instruction goes there, taken or not. -/
theorem branch_next {stack : List Slot} {target : Operand} (next : target = f.pc.offset.next) (taken other : Bool) :
    s.branch f stack target taken = s.branch f stack target other := by
  subst next
  cases taken <;> cases other <;> rfl

private theorem pairJump_identity (v w : Value) : pairJump s "is" (.value v) (.value w) = .ok (s.sameValues v w) := rfl

private theorem pairJump_frozen {condition : String} (numeric : condition ≠ "is") {x y : Slot} (left : x.Typed base first)
    (right : y.Typed base first) :
    Echoes Eq (pairJump s condition x y)
      (pairJump (s.frozen base first) condition (x.frozen base first) (y.frozen base first)) := by
  unfold pairJump
  simp only [numeric, ↓reduceIte]
  refine (toInteger_frozen left).bind ?_
  rintro a _ rfl
  refine (toInteger_frozen right).bind ?_
  rintro b _ rfl
  exact .refl _

section Steps

variable (guarded : Guarded base first s) (top : f.Typed base first)
include guarded top

private theorem identity_echoes {v w : Value} {rest : List Slot} {target : Operand}
    (op : i.operation = .compareJump "is" target)
    (stack : f.stack = .value w :: .value v :: rest) (unopened : ¬ Opens base first s f (.compareJump "is" target)) :
    Echoes (Mirrors base first) (effect s f i) (effect (s.frozen base first) (f.frozen base first) i) := by
  have frozen : (f.frozen base first).stack =
      .value (w.frozen base first) :: .value (v.frozen base first) :: rest.map (Slot.frozen base first) :=
    congrArg (List.map (Slot.frozen base first)) stack
  have held := (List.forall_mem_cons.mp (top.tail stack).2).2
  rw [effect_compareJump op stack, effect_compareJump op frozen, pairJump_identity, pairJump_identity]
  have moved := guarded.branch top held target (s.sameValues (v.frozen base first) (w.frozen base first))
  by_cases alike : s.sameValues (v.frozen base first) (w.frozen base first) = s.sameValues v w
  · rw [← alike]
    exact moved
  · have next : target = f.pc.offset.next := not_not.mp fun apart => unopened (.compare alike apart stack)
    rw [branch_next next _ (s.sameValues v w)] at moved
    exact moved

private theorem compareJump_echoes {condition : String} {target : Operand}
    (op : i.operation = .compareJump condition target)
    (unopened : ¬ Opens base first s f (.compareJump condition target)) :
    Echoes (Mirrors base first) (effect s f i) (effect (s.frozen base first) (f.frozen base first) i) := by
  obtain ⟨locals, _ | ⟨y, _ | ⟨x, rest⟩⟩, pc⟩ := f
  · exact short_frozen (by simp [op, arity])
  · exact short_frozen (by simp [op, arity])
  · by_cases identity : condition = "is"
    · subst identity
      cases x with
      | bare d =>
        rw [effect_compareJump op rfl, effect_compareJump op rfl]
        exact .fail _
      | value v =>
        cases y with
        | bare d =>
          rw [effect_compareJump op rfl, effect_compareJump op rfl]
          exact .fail _
        | value w => exact identity_echoes guarded top op rfl unopened
    · obtain ⟨right, more⟩ := List.forall_mem_cons.mp top.stack
      obtain ⟨left, held⟩ := List.forall_mem_cons.mp more
      rw [effect_compareJump op rfl, effect_compareJump op rfl]
      refine (pairJump_frozen identity left right).bind ?_
      rintro taken _ rfl
      exact guarded.branch top held target taken

private theorem effect_echoes (constant : i.operation.ConstantBelow first) (reads : ¬ i.operation.Writes)
    (unopened : ¬ Opens base first s f i.operation) :
    Echoes (Mirrors base first) (effect s f i) (effect (s.frozen base first) (f.frozen base first) i) := by
  cases op : i.operation with
  | push v =>
    rw [effect_push op, effect_push op]
    rw [op] at constant
    exact push_frozen guarded top (Datum.frozen_of_below (constant v.content List.mem_cons_self))
  | increment index amount =>
    rw [effect_increment op, effect_increment op]
    exact increment_frozen guarded top index amount
  | pop =>
    rw [effect_pop op, effect_pop op]
    exact pop_frozen guarded top
  | load type index =>
    rw [effect_load op, effect_load op]
    exact load_frozen guarded top index
  | store type index =>
    rw [effect_store op, effect_store op]
    exact store_frozen guarded top index
  | dup words =>
    rw [effect_dup op, effect_dup op]
    exact duplicate_frozen guarded top
  | goto target =>
    rw [effect_goto op, effect_goto op]
    exact guarded.branch top top.stack target true
  | new className =>
    rw [effect_new op, effect_new op]
    exact create_frozen guarded top className
  | arrayStore type =>
    rw [op] at reads
    exact (reads trivial).elim
  | arrayLoad type => exact arrayLoad_echoes guarded top op (op ▸ unopened)
  | arrayLength => exact arrayLength_echoes guarded top op (op ▸ unopened)
  | compareJump condition target => exact compareJump_echoes guarded top op (op ▸ unopened)
  | binary type operator =>
    cases type with
    | int => exact binary_frozen guarded top operator op
    | _ =>
      obtain ⟨offset, operation⟩ := i
      cases op
      exact .fail _
  | zeroJump condition target =>
    obtain ⟨locals, _ | ⟨v, rest⟩, pc⟩ := f
    · exact short_frozen (by simp [op, arity])
    · rw [effect_zeroJump op rfl, effect_zeroJump op rfl]
      refine (zeroJump_frozen condition v).bind ?_
      rintro taken _ rfl
      exact guarded.branch top (List.forall_mem_cons.mp top.stack).2 target taken
  | throw =>
    obtain ⟨locals, _ | ⟨v, rest⟩, pc⟩ := f
    · exact short_frozen (by simp [op, arity])
    · rw [effect_throw op rfl, effect_throw op rfl]
      refine (refuseNull_frozen _ v).bind ?_
      intro _ _ _
      exact .fail _
  | invokeStatic m =>
    rw [effect_staticCall op, effect_staticCall op]
    exact guarded.proceed top
  | invokeVirtual m =>
    cases called : StringCall.of? m with
    | none =>
      rw [effect_otherCall op called, effect_otherCall op called]
      exact guarded.proceed top
    | some c =>
      by_cases enough : c.arity ≤ f.stack.length
      · exact stringCall_frozen guarded top op called enough
      · exact short_frozen (by simpa [op, arity, called] using enough)
  | invokeSpecial m isInterface =>
    cases called : StringSetup.of? m with
    | none =>
      rw [effect_otherSetup op called, effect_otherSetup op called]
      exact guarded.proceed top
    | some setup =>
      by_cases enough : setup.arity ≤ f.stack.length
      · exact setUpCall_frozen guarded top op called enough
      · exact short_frozen (by simpa [op, arity, called] using enough)
  | get static field =>
    cases static with
    | true =>
      rw [effect_get op, effect_get op]
      exact guarded.push top rfl top.stack
    | false =>
      obtain ⟨offset, operation⟩ := i
      cases op
      exact .fail _
  | «return» type =>
    obtain ⟨offset, operation⟩ := i
    obtain ⟨locals, stack, pc⟩ := f
    cases op
    rcases type with _ | type
    · exact .fail _
    · cases type with
      | int => cases stack <;> exact .fail _
      | _ => exact .fail _
  | _ =>
    obtain ⟨offset, operation⟩ := i
    cases op
    exact .fail _

end Steps

/-! Instructions that open an array. -/

private theorem relate_integer_fails {r : Relation} (strict : r ≠ .le) (d : Datum) (n : Int) :
    FailsAs .mismatched (d.relate r (.int n)) := by
  intro cause failed
  cases d with
  | sign sign => cases r <;> cases failed <;> first | rfl | exact (strict rfl).elim
  | int m => cases failed
  | flag b => cases failed
  | real x => cases failed
  | _ =>
    cases failed
    rfl

private theorem isWithin_fails (d : Datum) (size : Nat) : FailsAs .mismatched (d.isWithin (.ok size)) := by
  refine (relate_integer_fails (by decide) d 0).bind fun negative _ => ?_
  split
  · exact .pure _
  · exact (relate_integer_fails (by decide) d size).bind fun _ _ => .pure _

private theorem sequence_fails (store : ArrayStore) (d : Datum) : FailsAs .mismatched (store.sequence d) := by
  unfold ArrayStore.sequence
  split
  · exact .pure _
  · split
    · exact .pure _
    · exact .throw rfl

private theorem toPlace_fails (d : Datum) : FailsAs .mismatched d.toPlace := by
  unfold Datum.toPlace
  split
  · exact .pure _
  · exact .throw rfl

def Accepts {α : Type} (x : Except Halt α) : Prop := ∀ expected found, x ≠ .error (.fault (.unexpectedOperand expected found))

namespace Accepts

variable {α β : Type}

theorem ok (a : α) : Accepts (.ok a) := nofun

theorem bind {x : Except Halt α} {next : α → Except Halt β} (accepts : Accepts x) (rest : ∀ a, Accepts (next a)) :
    Accepts (x >>= next) := by
  cases x with
  | error halt =>
    intro expected found refused
    cases refused
    exact accepts expected found rfl
  | ok a => exact rest a

theorem lift {x : Except Fault α} (fails : FailsAs .mismatched x) : Accepts (liftM x : Except Halt α) := by
  intro expected found refused
  cases x with
  | ok a => cases refused
  | error cause =>
    cases refused
    cases fails _ rfl

/-- Nothing that is accepted on one side is refused on the other alike. -/
theorem not_echoes {related : α → β → Prop} {x : Except Halt α} (accepts : Accepts x) (expected : Expectation)
    (found : String) : ¬ Echoes related x (.error (.fault (.unexpectedOperand expected found))) := by
  cases x with
  | ok a => exact id
  | error halt =>
    intro alike
    cases alike with
    | same => exact accepts expected found rfl
    | shown _ other => exact accepts expected other rfl

end Accepts

private theorem arrayLoad_accepts (item type : JvmType) (place : Datum) (handle : Nat) :
    Accepts (arrayLoad s item (.value ⟨.int, place⟩) (.value ⟨type, .array handle⟩)) := by
  have accesses : Accepts (access s (.value ⟨.int, place⟩) (.value ⟨type, .array handle⟩)) := by
    refine (Accepts.lift (isWithin_fails place _)).bind fun within => ?_
    split
    · exact nofun
    · exact nofun
  refine accesses.bind fun found => ?_
  refine (Accepts.lift (sequence_fails _ _)).bind fun items => ?_
  refine (Accepts.lift (toPlace_fails _)).bind fun position => ?_
  split <;> exact nofun

/-- The frame of a machine with a given array on top, frozen. -/
theorem stack_frozen {type : JvmType} {handle : Nat} {rest : List Slot} (given : base.Given first handle) :
    ((.value ⟨type, .array handle⟩ :: rest : List Slot).map (Slot.frozen base first)) =
      .value ⟨type, .tuple ((base.items? handle).getD [])⟩ :: rest.map (Slot.frozen base first) := by
  rw [List.map_cons, Slot.frozen, Value.frozen, Datum.frozen_given given]

private theorem offset_branch (s : State String) (f : Frame) (stack : List Slot) (target : Operand) (taken : Bool) :
    (s.branch f stack target taken).frames.head?.map (·.pc.offset) = some (if taken then target else f.pc.offset.next) := by
  cases taken <;> rfl

/-- No two machines that go different ways mirror each other. -/
theorem branch_apart {stack : List Slot} {target : Operand} (apart : target ≠ f.pc.offset.next) {taken other : Bool}
    (differ : other ≠ taken) :
    ¬ Mirrors base first (s.branch f stack target taken)
      ((s.frozen base first).branch (f.frozen base first) (stack.map (Slot.frozen base first)) target other) := by
  intro mirrors
  have same := mirrors.frozen
  rw [s.branch_frozen] at same
  have frames : (s.branch f stack target other).frames.head?.map (·.pc.offset) =
      (s.branch f stack target taken).frames.head?.map (·.pc.offset) := by
    have heads := congrArg (fun s : State String => s.frames.head?.map (·.pc.offset)) same
    simpa [State.frozen, Frame.frozen, Function.comp_def] using heads
  rw [offset_branch, offset_branch] at frames
  cases taken <;> cases other <;> simp_all

private theorem effect_opened {operation : Operation} (op : i.operation = operation)
    (opens : Opens base first s f operation) :
    ¬ Echoes (Mirrors base first) (effect s f i) (effect (s.frozen base first) (f.frozen base first) i) := by
  cases opens with
  | @length type handle rest given stack =>
    have frozen : (f.frozen base first).stack = _ := (congrArg _ stack).trans (stack_frozen given)
    rw [effect_arrayLength op stack, effect_arrayLength op frozen]
    exact id
  | @load type item place handle rest given stack =>
    have frozen : (f.frozen base first).stack = _ := congrArg (List.map (Slot.frozen base first)) stack
    rw [List.map_cons, stack_frozen given] at frozen
    rw [effect_arrayLoad op stack, effect_arrayLoad op frozen]
    exact ((arrayLoad_accepts item type place handle).bind fun _ => .ok _).not_echoes .arrayRef _
  | @compare v w rest target differ apart stack =>
    have frozen : (f.frozen base first).stack = _ := congrArg (List.map (Slot.frozen base first)) stack
    rw [effect_compareJump op stack, effect_compareJump op frozen]
    exact branch_apart apart differ

/-! Steps. -/

private theorem leave_agrees (guarded : Guarded base first s) {result : List Slot}
    (typed : ∀ x ∈ result, x.Typed base first) :
    AgreesUpTo Halt.Like (Mirrors base first) (s.leave result)
      ((s.frozen base first).leave (result.map (Slot.frozen base first))) := by
  have below : (s.frozen base first).frames.drop 1 = (s.frames.drop 1).map (Frame.frozen base first) :=
    (List.map_drop ..).symm
  have callers : ∀ f ∈ s.frames.drop 1, f.Typed base first :=
    fun f member => guarded.frames f (List.mem_of_mem_drop member)
  unfold State.leave
  rw [below]
  cases frames : s.frames.drop 1 with
  | nil => exact .stopped (.same _)
  | cons caller rest =>
    rw [frames] at callers
    obtain ⟨called, others⟩ := List.forall_mem_cons.mp callers
    refine ⟨.none, fun _ => ⟨?_, guarded.arrays, ?_, guarded.texts.of_heap rfl⟩⟩
    · simp [State.frozen, Frame.frozen]
    · exact List.forall_mem_cons.mpr ⟨⟨called.locals, List.forall_mem_append.mpr ⟨typed, called.stack⟩⟩, others⟩

/-- Machines whose instructions have echoing effects agree, and no others. -/
theorem agrees_effect_iff {x y : Except Halt (State String)} {failed other : State String} :
    AgreesUpTo Halt.Like (Mirrors base first)
        (match x with | .ok after => (after, none) | .error halt => (failed, some halt))
        (match y with | .ok after => (after, none) | .error halt => (other, some halt)) ↔
      Echoes (Mirrors base first) x y := by
  cases x with
  | ok after =>
    cases y with
    | ok mirrored => exact ⟨fun agrees => agrees.machines rfl, fun mirrors => ⟨.none, fun _ => mirrors⟩⟩
    | error halt => exact ⟨fun agrees => (nomatch agrees.halts), False.elim⟩
  | error halt =>
    cases y with
    | ok mirrored => exact ⟨fun agrees => (nomatch agrees.halts), False.elim⟩
    | error mirrored =>
      refine ⟨fun agrees => ?_, fun alike => .stopped alike⟩
      cases agrees.halts with
      | some alike => exact alike

private theorem execute_agrees_iff (guarded : Guarded base first s) (top : f.Typed base first)
    (constant : i.operation.ConstantBelow first) (reads : ¬ i.operation.Writes) :
    AgreesUpTo Halt.Like (Mirrors base first) (execute s f i) (execute (s.frozen base first) (f.frozen base first) i) ↔
      ¬ Opens base first s f i.operation := by
  have effects : Echoes (Mirrors base first) (effect s f i) (effect (s.frozen base first) (f.frozen base first) i) ↔
      ¬ Opens base first s f i.operation :=
    ⟨fun echoes opens => effect_opened rfl opens echoes, effect_echoes guarded top constant reads⟩
  by_cases returns : ∃ type, i.operation = .return type
  -- A return opens nothing, and takes along what is on the stack.
  · obtain ⟨type, op⟩ := returns
    obtain ⟨offset, operation⟩ := i
    cases op
    have unopened : ¬ Opens base first s f (.return type) := nofun
    refine iff_of_true ?_ unopened
    have echoes := effects.mpr unopened
    rcases type with _ | type
    · exact leave_agrees guarded (List.forall_mem_nil _)
    · cases type with
      | int =>
        obtain ⟨locals, _ | ⟨v, rest⟩, pc⟩ := f
        · exact agrees_effect_iff.mpr echoes
        · exact leave_agrees guarded (List.forall_mem_singleton.mpr (List.forall_mem_cons.mp top.stack).1)
      | _ => exact agrees_effect_iff.mpr echoes
  · have other : ∀ type, i.operation ≠ .return type := fun type op => returns ⟨type, op⟩
    rw [execute_effect other, execute_effect other]
    exact agrees_effect_iff.trans effects

structure Alongside (base : ArrayStore) (first : Nat) (w v : Watched) : Prop where
  left : w.coverage = none
  right : v.coverage = none
  mirrors : Mirrors base first w.state v.state

def OpensNext (program : Program) (base : ArrayStore) (first : Nat) (s : State String) : Prop :=
  ∃ f below i, s.frames = f :: below ∧ program.fetch f.pc = .ok i ∧ Opens base first s f i.operation

section Runs

variable {program : Program} {locate : Locate} {w v : Watched}
  (constants : program.BuiltFrom (Operation.ConstantBelow first)) (reads : program.ReadOnly)
include constants reads

theorem step_agrees_iff (alongside : Alongside base first w v) :
    AgreesUpTo Halt.Like (Alongside base first) (step program locate w) (step program locate v) ↔
      ¬ OpensNext program base first w.state := by
  obtain ⟨left, right, mirrored, guarded⟩ := alongside
  have frames : v.state.frames = w.state.frames.map (Frame.frozen base first) := by
    rw [mirrored]
    rfl
  cases held : w.state.frames with
  | nil =>
    rw [held, List.map_nil] at frames
    refine iff_of_true ?_ ?_
    · simp only [step, held, frames]
      exact .stopped (.same _)
    · rintro ⟨f, below, i, here, -⟩
      rw [held] at here
      cases here
  | cons f below =>
    rw [held, List.map_cons] at frames
    cases fetched : program.fetch f.pc with
    | error cause =>
      refine iff_of_true ?_ ?_
      · have same : program.fetch (f.frozen base first).pc = .error cause := fetched
        simp only [step, held, frames, fetched, same]
        exact .stopped (.same _)
      · rintro ⟨g, others, i, here, found, -⟩
        rw [held] at here
        cases here
        rw [fetched] at found
        cases found
    | ok i =>
      have top := guarded.frames f (held ▸ List.mem_cons_self)
      have executes := execute_agrees_iff guarded top (constants.fetch fetched) (reads.fetch fetched)
      have next : OpensNext program base first w.state ↔ Opens base first w.state f i.operation := by
        constructor
        · rintro ⟨g, others, j, here, found, opens⟩
          rw [held] at here
          cases here
          rw [fetched] at found
          cases found
          exact opens
        · exact fun opens => ⟨f, below, i, held, fetched, opens⟩
      rw [step_plain left held fetched, step_plain right frames fetched, next, ← executes, mirrored]
      constructor
      · exact fun agrees => ⟨agrees.halts, fun running => (agrees.machines running).mirrors⟩
      · exact fun agrees => ⟨agrees.halts, fun running => ⟨rfl, rfl, agrees.machines running⟩⟩

end Runs

end Concrete

/-! Arguments. -/

/-- The arguments of a call: arrays, each as the tuple of its items, and what no array stands in. -/
inductive Value.Argument : Value → Prop
  | array (contains : JvmType) {items : List Datum} : (∀ d ∈ items, d.IsAtom) → Argument (.array contains items)
  | atom {v : Value} : v.content.IsAtom → Argument v

/-- A datum with a list in place of a tuple. -/
def Datum.thawed : Datum → Datum
  | .tuple items => .list items
  | d => d

def Value.thawed (v : Value) : Value := ⟨v.type, v.content.thawed⟩

/-- The second value stands for the first one where arrays are kept in a store. -/
inductive Value.Stands (base : ArrayStore) (first : Nat) : Value → Value → Prop
  | array (contains : JvmType) {items : List Datum} {handle : Nat} : base.Given first handle →
    base.items? handle = some items → Stands base first (.array contains items) ⟨.array contains, .array handle⟩
  | atom {v : Value} : v.content.IsAtom → Stands base first v v

def ArrayStore.ItemsBelow (first : Nat) (store : ArrayStore) : Prop :=
  ∀ handle items, store.items? handle = some items → ∀ d ∈ items, d.Below first

section Loading

variable {base store after : ArrayStore} {first : Nat} {v w : Value} {args : List Value}

theorem ArrayStore.ItemsBelow.alloc (below : store.ItemsBelow first) {items : List Datum} (own : ∀ d ∈ items, d.Below first) :
    (store.alloc items).2.ItemsBelow first := by
  intro handle held found
  rw [items?_alloc] at found
  split at found
  · cases found
    exact own
  · exact below handle held found

theorem Value.Argument.below (argument : v.Argument) (bound : Nat) : v.content.Below bound := by
  cases argument with
  | array contains atoms => exact Datum.below_tuple.mpr fun d member => (atoms d member).below bound
  | atom atom => exact atom.below bound

theorem Value.Stands.extended (stands : Stands base first v w) (grown : base.Extends after) : Stands after first v w := by
  cases stands with
  | array contains given found =>
    refine .array contains ⟨given.1, Nat.lt_of_lt_of_le given.2 grown.size⟩ ?_
    rw [grown.items _ given.2, found]
  | atom atom => exact .atom atom

theorem Value.Stands.frozen (stands : Stands base first v w) : w.frozen base first = v := by
  cases stands with
  | array contains given found =>
    rw [Value.frozen, Datum.frozen_given given, found]
    rfl
  | atom atom => rw [Value.frozen, atom.frozen]

theorem Value.Stands.typed (stands : Stands base first v w) : (Slot.value w).Typed base first := by
  cases stands with
  | array contains given found => exact Or.inr ⟨contains, rfl⟩
  | atom atom => exact Or.inl atom.frozen

end Loading

theorem ValueList.Item.atom {kind : TokenKind} {t : Token} {d : Datum} (item : Item kind t d) : d.IsAtom := by
  cases item <;> trivial

theorem ValueList.items_atoms {kind : TokenKind} {items : List Token} {contents : List Datum}
    (denote : List.Forall₂ (Item kind) items contents) : ∀ d ∈ contents, d.IsAtom := by
  induction denote with
  | nil => exact List.forall_mem_nil _
  | cons item _ ih => exact List.forall_mem_cons.mpr ⟨item.atom, ih⟩

theorem ValueList.Denotes.argument {tokens : List Token} {v : Value} (denotes : Denotes tokens v) : v.Argument := by
  cases denotes with
  | int item => exact .atom item.atom
  | char item => exact .atom item.atom
  | boolean b => exact .atom trivial
  | string text => exact .atom trivial
  | ints denote => exact .array .int (items_atoms denote)
  | chars denote => exact .array .char (items_atoms denote)

section Starts

variable {base : ArrayStore} {first : Nat} {method : AbsMethodId} {args loaded : List Value}

end Starts

/-- Runs that agree up to how refused operands are shown have the same results. -/
theorem AgreesUpTo.outcome {M N : Type} {related : M → N → Prop} {left : M × Option Halt} {right : N × Option Halt}
    (agrees : AgreesUpTo Halt.Like related left right) (result : Query) :
    Halt.outcome left.2 = .ok result ↔ Halt.outcome right.2 = .ok result := by
  obtain ⟨m, halt⟩ := left
  obtain ⟨n, other⟩ := right
  obtain ⟨halts, -⟩ := agrees
  dsimp only at halts
  cases halts with
  | none => exact Iff.rfl
  | some alike =>
    cases alike with
    | same halt => exact Iff.rfl
    | shown expected found other => exact ⟨nofun, nofun⟩

namespace Call

def withLists (c : Call) : Call :=
  let (args, arrays) := Fuzz.Session.loadValues c.arrays (c.args.map Value.thawed)
  { c with args, arrays }

/-- After so many steps the call with lists looks into one of them. -/
def Opens (c : Call) (k : Nat) : Prop :=
  ∃ w, c.withLists.onTexts k = (w, none) ∧
    Concrete.OpensNext c.program c.withLists.arrays c.arrays.cells.size w.state

end Call

end BytecodeBench
