import BytecodeBench.Proofs.ClosedPrograms
import BytecodeBench.Proofs.ShiftedOperations

/-! Runs on a store with more arrays. They do what runs on the store itself do, and whatever a run does to its
store, it takes no array away. -/

namespace BytecodeBench

namespace Concrete

variable {first gap : Nat} {s t : State String} {f : Frame} {i : Instruction}

section Effects

variable (shifted : Shifted first gap s t) (top : f.Below s.arrays.cells.size)
include shifted

private theorem withArrays_moves {result other : Datum × ArrayStore}
    (produced : ArrayStore.Produced first gap s.arrays result other) :
    Moves first gap s { s with arrays := result.2 } { t with arrays := other.2 } where
  grown := produced.grown
  shifted := {
    frames := shifted.frames
    memory := shifted.memory
    arrays := produced.shifted
    sealed := produced.sealed
    below := fun f member => (shifted.below f member).mono produced.grown.size
    texts := shifted.texts.of_heap rfl }

private theorem combined_gives {operator : Operator} {op : ArrayStore → Datum → Datum → Except Fault (Datum × ArrayStore)}
    (combines : State.combine? operator = some op) {x y : Slot} (left : x.Below s.arrays.cells.size)
    (right : y.Below s.arrays.cells.size) :
    Refines (Gives first gap s) (s.combined op x y)
      (t.combined op (x.rename (shift first gap)) (y.rename (shift first gap))) := by
  refine (type_shifted x _).bind ?_
  rintro type _ rfl
  split
  · refine (type_shifted y _).bind ?_
    rintro type _ rfl
    split
    · refine (content_shifted left).bind ?_
      rintro a _ ⟨rfl, insideA⟩
      refine (content_shifted right).bind ?_
      rintro b _ ⟨rfl, insideB⟩
      have produces : Refines (ArrayStore.Produced first gap s.arrays) (liftM (op s.arrays a b))
          (liftM (op t.arrays (a.rename (shift first gap)) (b.rename (shift first gap)))) :=
        .lift fun _ done => ArrayStore.combine?_produced shifted.arrays shifted.sealed combines insideA insideB done
      refine produces.bind ?_
      intro result other produced
      refine .ok ⟨⟨?_, produced.below⟩, withArrays_moves shifted produced⟩
      exact congrArg (fun d => Slot.value ⟨.int, d⟩) produced.value
    · trivial
  · trivial

/-- An item written to an array is written to the array in its place. -/
theorem arrayStore_shifted {item index ref : Slot} (below : item.Below s.arrays.cells.size)
    (inside : ref.Below s.arrays.cells.size) :
    Refines (fun after other => Shifted first gap after other ∧ after.arrays.cells.size = s.arrays.cells.size)
      (arrayStore s item index ref)
      (arrayStore t (item.rename (shift first gap)) (index.rename (shift first gap)) (ref.rename (shift first gap))) := by
  refine (shifted.access inside).bind ?_
  rintro ⟨array, place⟩ ⟨other, position⟩ ⟨⟨same, held⟩, placed⟩
  dsimp only at same held placed
  subst same placed
  refine (content_shifted below).bind ?_
  rintro d _ ⟨rfl, kept⟩
  cases array with
  | array handle =>
    refine (Refines.refl _).bind ?_
    rintro number _ rfl
    have size := s.arrays.size_write handle number d
    refine .ok ⟨?_, size⟩
    exact {
      frames := shifted.frames
      memory := shifted.memory
      arrays := shifted.arrays.write handle number d
      sealed := shifted.sealed.write handle number kept
      below := fun f member => size ▸ shifted.below f member
      texts := shifted.texts.of_heap rfl }
  | _ => trivial

include top

private theorem push_moves {v : Value} (constant : v.content.Below first) :
    Moves first gap s (s.pushConstant id .text f v) (t.pushConstant id .text (f.rename (shift first gap)) v) := by
  have fixed : v.content.rename (shift first gap) = v.content := constant.rename fun handle inside => if_pos inside
  have plain : Moves first gap s (s.proceedWith f (.value v :: f.stack))
      (t.proceedWith (f.rename (shift first gap)) (.value v :: (f.rename (shift first gap)).stack)) := by
    refine shifted.push top ⟨?_, constant.mono shifted.arrays.room⟩ top.stack
    rw [Slot.rename, fixed]
  by_cases reference : v.type = .reference
  · obtain ⟨type, content⟩ := v
    subst reference
    cases content with
    | text text => exact (gives_intern shifted text).push top top.stack
    | _ => exact plain
  · rw [State.pushConstant_value reference, State.pushConstant_value reference]
    exact plain

private theorem increment_moves (index amount : Operand) :
    Refines (Moves first gap s) (s.increment f index amount)
      (t.increment (f.rename (shift first gap)) index amount) := by
  have before : ((f.rename (shift first gap)).locals.find? index).getD (.int 0) =
      ((f.locals.find? index).getD (.int 0)).rename (shift first gap) := by
    rw [Frame.find?_rename]
    cases f.locals.find? index <;> rfl
  have held : ((f.locals.find? index).getD (.int 0)).Below s.arrays.cells.size := by
    cases found : f.locals.find? index with
    | none => trivial
    | some x => exact top.locals index x found
  have atom : amount.datum.IsAtom := by cases amount <;> trivial
  unfold State.increment
  rw [before]
  refine (type_shifted _ _).bind ?_
  rintro type _ rfl
  split
  · refine (content_shifted held).bind ?_
    rintro d _ ⟨rfl, inside⟩
    have adds : Refines (Datum.ShiftsTo first gap s.arrays.cells.size) (liftM (d.add amount.datum))
        (liftM ((d.rename (shift first gap)).add amount.datum)) := by
      refine .lift fun sum done => ⟨_, ?_, rfl, Datum.add_below inside (atom.below _) sum done⟩
      rw [← atom.rename (shift first gap), Datum.add_rename, done]
      rfl
    refine adds.bind ?_
    rintro sum _ ⟨rfl, below⟩
    exact .ok (shifted.write top index ⟨rfl, below⟩ top.stack)
  · trivial

private theorem create_moves (className : Datum) :
    Moves first gap s (s.create (.text "") f className) (t.create (.text "") (f.rename (shift first gap)) className) := by
  unfold State.create
  split
  · exact (gives_alloc shifted "").push top top.stack
  · exact shifted.push top ⟨rfl, trivial⟩ top.stack

private theorem pop_moves : Refines (Moves first gap s) (s.pop f) (t.pop (f.rename (shift first gap))) := by
  obtain ⟨locals, _ | ⟨v, rest⟩, pc⟩ := f
  · trivial
  · exact .ok (shifted.proceedWith top (List.forall_mem_cons.mp top.stack).2)

private theorem load_moves (index : Operand) :
    Refines (Moves first gap s) (s.load f index) (t.load (f.rename (shift first gap)) index) := by
  unfold State.load
  rw [Frame.find?_rename]
  cases found : f.locals.find? index with
  | none => trivial
  | some x => exact .ok (shifted.push top ⟨rfl, top.locals index x found⟩ top.stack)

private theorem store_moves (index : Operand) :
    Refines (Moves first gap s) (s.store f index) (t.store (f.rename (shift first gap)) index) := by
  obtain ⟨locals, _ | ⟨v, rest⟩, pc⟩ := f
  · trivial
  · obtain ⟨below, held⟩ := List.forall_mem_cons.mp top.stack
    exact .ok (shifted.write top index ⟨rfl, below⟩ held)

private theorem duplicate_moves :
    Refines (Moves first gap s) (s.duplicate f) (t.duplicate (f.rename (shift first gap))) := by
  obtain ⟨locals, _ | ⟨v, rest⟩, pc⟩ := f
  · trivial
  · exact .ok (shifted.proceedWith top (List.forall_mem_cons.mpr ⟨(List.forall_mem_cons.mp top.stack).1, top.stack⟩))

/-- Whatever is read off the top of the stack, and what becomes of it. -/
theorem stringCall_moves {m : MethodRef} {c : StringCall} (op : i.operation = .invokeVirtual m)
    (called : StringCall.of? m = some c) (enough : c.arity ≤ f.stack.length) :
    Refines (Moves first gap s) (effect s f i) (effect t (f.rename (shift first gap)) i) := by
  have renamed : c.arity ≤ (f.rename (shift first gap)).stack.length := by
    rw [Frame.rename, List.length_map]
    exact enough
  rw [effect_stringCall op called enough, effect_stringCall op called renamed]
  simp only [Frame.rename, ← List.map_take, ← List.map_drop]
  refine (call_shifted shifted c _).bind ?_
  intro result other gives
  exact .ok (gives.push top fun x member => top.stack x (List.mem_of_mem_drop member))

private theorem setUp_moves {m : MethodRef} {isInterface : Bool} {setup : StringSetup}
    (op : i.operation = .invokeSpecial m isInterface) (called : StringSetup.of? m = some setup)
    (enough : setup.arity ≤ f.stack.length) :
    Refines (Moves first gap s) (effect s f i) (effect t (f.rename (shift first gap)) i) := by
  have renamed : setup.arity ≤ (f.rename (shift first gap)).stack.length := by
    rw [Frame.rename, List.length_map]
    exact enough
  rw [effect_setUp op called enough, effect_setUp op called renamed]
  simp only [Frame.rename, ← List.map_take, ← List.map_drop]
  refine (setUp_shifted shifted setup _).bind ?_
  intro after other moves
  have room := moves.grown.size
  refine .ok (moves.trans (moves.shifted.proceedWith (top.mono room) fun x member => ?_))
  exact (top.stack x (List.mem_of_mem_drop member)).mono room

omit shifted top in
theorem short_refines {related : State String → State String → Prop} {right : Except Halt (State String)}
    (short : f.stack.length < arity i.operation) : Refines related (effect s f i) right := by
  rw [effect_short short]
  trivial

private theorem binary_moves (operator : Operator) (op : i.operation = .binary .int operator) :
    Refines (Moves first gap s) (effect s f i) (effect t (f.rename (shift first gap)) i) := by
  by_cases remainder : operator = .rem
  · subst remainder
    obtain ⟨offset, operation⟩ := i
    cases op
    trivial
  have two : arity i.operation = 2 := by
    rw [op]
    cases operator <;> first | rfl | exact (remainder rfl).elim
  obtain ⟨locals, _ | ⟨y, _ | ⟨x, rest⟩⟩, pc⟩ := f
  · exact short_refines (by simp [two])
  · exact short_refines (by simp [two])
  · obtain ⟨belowY, more⟩ := List.forall_mem_cons.mp top.stack
    obtain ⟨belowX, held⟩ := List.forall_mem_cons.mp more
    cases combines : State.combine? operator with
    | some combine =>
      rw [effect_binary op rfl combines, effect_binary op rfl combines]
      refine (combined_gives shifted combines belowX belowY).bind ?_
      intro result other gives
      exact .ok (gives.push top held)
    | none =>
      have division : i.operation = .binary .int .div := by
        rw [op]
        cases operator <;> first | rfl | exact (remainder rfl).elim | cases combines
      rw [effect_divide division rfl, effect_divide division rfl]
      refine (divide_shifted s.arrays.cells.size x y).bind ?_
      intro quotient other pushed
      exact .ok (shifted.push top pushed held)

private theorem effect_moves (constant : i.operation.ConstantBelow first) (reads : ¬ i.operation.Writes) :
    Refines (Moves first gap s) (effect s f i) (effect t (f.rename (shift first gap)) i) := by
  cases op : i.operation with
  | push v =>
    rw [effect_push op, effect_push op]
    rw [op] at constant
    exact .ok (push_moves shifted top (constant v.content List.mem_cons_self))
  | increment index amount =>
    rw [effect_increment op, effect_increment op]
    exact increment_moves shifted top index amount
  | pop =>
    rw [effect_pop op, effect_pop op]
    exact pop_moves shifted top
  | load type index =>
    rw [effect_load op, effect_load op]
    exact load_moves shifted top index
  | store type index =>
    rw [effect_store op, effect_store op]
    exact store_moves shifted top index
  | dup words =>
    rw [effect_dup op, effect_dup op]
    exact duplicate_moves shifted top
  | goto target =>
    rw [effect_goto op, effect_goto op]
    exact .ok (shifted.branch top top.stack target true)
  | new className =>
    rw [effect_new op, effect_new op]
    exact .ok (create_moves shifted top className)
  | arrayStore type =>
    rw [op] at reads
    exact (reads trivial).elim
  | arrayLoad type =>
    obtain ⟨locals, _ | ⟨index, _ | ⟨ref, rest⟩⟩, pc⟩ := f
    · exact short_refines (by simp [op, arity])
    · exact short_refines (by simp [op, arity])
    · obtain ⟨below, held⟩ := List.forall_mem_cons.mp (List.forall_mem_cons.mp top.stack).2
      rw [effect_arrayLoad op rfl, effect_arrayLoad op rfl]
      refine (shifted.arrayLoad type below).bind ?_
      intro item other pushed
      exact .ok (shifted.push top pushed held)
  | arrayLength =>
    obtain ⟨locals, _ | ⟨ref, rest⟩, pc⟩ := f
    · exact short_refines (by simp [op, arity])
    · obtain ⟨below, held⟩ := List.forall_mem_cons.mp top.stack
      rw [effect_arrayLength op rfl, effect_arrayLength op rfl]
      refine (shifted.arrayLength below).bind ?_
      intro size other pushed
      exact .ok (shifted.push top pushed held)
  | binary type operator =>
    cases type with
    | int => exact binary_moves shifted top operator op
    | _ =>
      obtain ⟨offset, operation⟩ := i
      cases op
      trivial
  | zeroJump condition target =>
    obtain ⟨locals, _ | ⟨v, rest⟩, pc⟩ := f
    · exact short_refines (by simp [op, arity])
    · rw [effect_zeroJump op rfl, effect_zeroJump op rfl]
      refine (zeroJump_shifted condition v _).bind ?_
      rintro jumps _ rfl
      exact .ok (shifted.branch top (List.forall_mem_cons.mp top.stack).2 target jumps)
  | compareJump condition target =>
    obtain ⟨locals, _ | ⟨y, _ | ⟨x, rest⟩⟩, pc⟩ := f
    · exact short_refines (by simp [op, arity])
    · exact short_refines (by simp [op, arity])
    · rw [effect_compareJump op rfl, effect_compareJump op rfl]
      refine (shifted.pairJump condition x y).bind ?_
      rintro jumps _ rfl
      exact .ok (shifted.branch top (List.forall_mem_cons.mp (List.forall_mem_cons.mp top.stack).2).2 target jumps)
  | throw =>
    obtain ⟨locals, _ | ⟨v, rest⟩, pc⟩ := f
    · exact short_refines (by simp [op, arity])
    · rw [effect_throw op rfl, effect_throw op rfl]
      refine (refuseNull_renamed _ v _).bind ?_
      intro _ _ _
      rfl
  | invokeStatic m =>
    rw [effect_staticCall op, effect_staticCall op]
    exact .ok (shifted.proceed top)
  | invokeVirtual m =>
    cases called : StringCall.of? m with
    | none =>
      rw [effect_otherCall op called, effect_otherCall op called]
      exact .ok (shifted.proceed top)
    | some c =>
      by_cases enough : c.arity ≤ f.stack.length
      · exact stringCall_moves shifted top op called enough
      · exact short_refines (by simpa [op, arity, called] using enough)
  | invokeSpecial m isInterface =>
    cases called : StringSetup.of? m with
    | none =>
      rw [effect_otherSetup op called, effect_otherSetup op called]
      exact .ok (shifted.proceed top)
    | some setup =>
      by_cases enough : setup.arity ≤ f.stack.length
      · exact setUp_moves shifted top op called enough
      · exact short_refines (by simpa [op, arity, called] using enough)
  | get static field =>
    cases static with
    | true =>
      rw [effect_get op, effect_get op]
      exact .ok (shifted.push top ⟨rfl, trivial⟩ top.stack)
    | false =>
      obtain ⟨offset, operation⟩ := i
      cases op
      trivial
  | «return» type =>
    obtain ⟨cause, stopped⟩ := effect_return op
    rw [stopped]
    trivial
  | _ =>
    obtain ⟨offset, operation⟩ := i
    cases op
    trivial

/-- What an instruction does on both sides, and to the store. -/
theorem effect_shifted (constant : i.operation.ConstantBelow first) :
    Refines (fun after other => Shifted first gap after other ∧ s.arrays.Evolves (¬ i.operation.Writes) after.arrays)
      (effect s f i) (effect t (f.rename (shift first gap)) i) := by
  by_cases writes : i.operation.Writes
  · cases op : i.operation with
    | arrayStore type =>
      obtain ⟨locals, _ | ⟨item, _ | ⟨index, _ | ⟨ref, rest⟩⟩⟩, pc⟩ := f
      · exact short_refines (by simp [op, arity])
      · exact short_refines (by simp [op, arity])
      · exact short_refines (by simp [op, arity])
      · obtain ⟨below, more⟩ := List.forall_mem_cons.mp top.stack
        obtain ⟨inside, held⟩ := List.forall_mem_cons.mp (List.forall_mem_cons.mp more).2
        rw [effect_arrayStore op rfl, effect_arrayStore op rfl]
        refine (arrayStore_shifted shifted below inside).bind ?_
        rintro after other ⟨stored, size⟩
        have moves := stored.proceedWith (size ▸ top) (size ▸ held)
        refine .ok ⟨moves.shifted, Nat.le_of_eq size.symm, fun reads => (reads trivial).elim⟩
    | _ =>
      rw [op] at writes
      exact writes.elim
  · exact (effect_moves shifted top constant writes).weaken fun after other moves =>
      ⟨moves.shifted, moves.grown.evolves _⟩

end Effects

/-! Steps. -/

section Steps

variable (shifted : Shifted first gap s t)
include shifted

/-- Leaving a method takes the same way on both sides, and nothing from the store. -/
theorem leave_shifted {result : List Slot} (below : ∀ x ∈ result, x.Below s.arrays.cells.size) :
    Shifted first gap (s.leave result).1 (t.leave (result.map (Slot.rename (shift first gap)))).1 ∧
      (t.leave (result.map (Slot.rename (shift first gap)))).2 = (s.leave result).2 := by
  unfold State.leave
  rw [shifted.frames, ← List.map_drop]
  have callers : ∀ f ∈ s.frames.drop 1, f.Below s.arrays.cells.size :=
    fun f member => shifted.below f (List.mem_of_mem_drop member)
  cases frames : s.frames.drop 1 with
  | nil =>
    refine ⟨?_, rfl⟩
    exact { shifted with
      frames := rfl
      below := fun f member => by cases member
      texts := shifted.texts.of_heap rfl }
  | cons caller rest =>
    rw [frames, List.forall_mem_cons] at callers
    obtain ⟨called, others⟩ := callers
    refine ⟨?_, rfl⟩
    exact { shifted with
      frames := by simp [Frame.rename]
      below := List.forall_mem_cons.mpr ⟨⟨called.locals, List.forall_mem_append.mpr ⟨below, called.stack⟩⟩, others⟩
      texts := shifted.texts.of_heap rfl }

variable (top : f.Below s.arrays.cells.size) (constant : i.operation.ConstantBelow first)
include top constant

/-- Returns give what is on the stack, other instructions have their effects. -/
theorem execute_shifted :
    Follows (Shifted first gap) (execute s f i) (execute t (f.rename (shift first gap)) i) := by
  by_cases returns : ∃ type, i.operation = .return type
  · obtain ⟨type, op⟩ := returns
    obtain ⟨offset, operation⟩ := i
    cases op
    rcases type with _ | type
    · obtain ⟨left, same⟩ := leave_shifted shifted (List.forall_mem_nil _)
      exact .same same left
    · cases type with
      | int =>
        obtain ⟨locals, _ | ⟨v, rest⟩, pc⟩ := f
        · trivial
        · obtain ⟨left, same⟩ := leave_shifted shifted (List.forall_mem_singleton.mpr (List.forall_mem_cons.mp top.stack).1)
          exact .same same left
      | _ => trivial
  · have other : ∀ type, i.operation ≠ .return type := fun type op => returns ⟨type, op⟩
    have refines := effect_shifted shifted top constant
    rw [execute_effect other, execute_effect other]
    rcases done : effect s f i with ⟨outcome | cause⟩ | after <;> rw [done] at refines
    · rw [show effect t _ i = .error (.ended outcome) from refines]
      rfl
    · trivial
    · obtain ⟨final, also, holds, -⟩ := refines
      rw [also]
      exact ⟨rfl, holds⟩

end Steps

/-- What an instruction can do: it leaves the method with what is on the stack, has its effect, or stops the
machine once it has taken its operands. -/
theorem execute_cases {after : State String} {halt : Option Halt} (moved : execute s f i = (after, halt)) :
    (∃ result, (∀ x ∈ result, x ∈ f.stack) ∧ after = (s.leave result).1) ∨ effect s f i = .ok after ∨
      ∃ count, after = s.withTop { f with stack := f.stack.drop count } := by
  unfold execute at moved
  split at moved
  next v rest _ stack =>
    refine Or.inl ⟨[v], ?_, by rw [moved]⟩
    rw [stack]
    exact List.forall_mem_singleton.mpr List.mem_cons_self
  · exact Or.inl ⟨[], List.forall_mem_nil _, by rw [moved]⟩
  · split at moved <;> cases moved
    next done => exact Or.inr (Or.inl done)
    · exact Or.inr (Or.inr ⟨_, rfl⟩)

private theorem execute_settled (settled : Settled first s) (top : f.Below s.arrays.cells.size)
    (constant : i.operation.ConstantBelow first) {after : State String} {halt : Option Halt}
    (moved : execute s f i = (after, halt)) :
    Settled first after ∧ s.arrays.Evolves (¬ i.operation.Writes) after.arrays := by
  rcases execute_cases moved with ⟨result, given, rfl⟩ | done | ⟨count, rfl⟩
  · refine ⟨(leave_shifted settled.shifted fun x member => top.stack x (given x member)).1.settled, ?_⟩
    unfold State.leave
    split <;> exact .refl _ _
  -- The machine is its own shift by nothing, so what holds of a pair of machines holds of it alone.
  · have refines := effect_shifted settled.shifted top constant
    rw [shift_zero, Frame.rename_id] at refines
    obtain ⟨shifted, evolves⟩ := refines.of_ok done done
    exact ⟨shifted.settled, evolves⟩
  · exact ⟨(settled.shifted.withTop (top.drop count)).shifted.settled, .refl _ _⟩

/-! Runs. -/

section Runs

variable {program : Program} {locate : Locate} {w v : Watched}
  (constants : program.BuiltFrom (Operation.ConstantBelow first))
include constants

private theorem step_settled (settled : Settled first w.state) {after : Watched} {halt : Option Halt}
    (moved : step program locate w = (after, halt)) :
    Settled first after.state ∧ w.state.arrays.Evolves program.ReadOnly after.state.arrays := by
  rcases step_cases moved with ⟨f, below, i, frames, fetched, executed⟩ | ⟨-, same | ⟨f, below, count, frames, same⟩⟩
  · have top := settled.below f (by rw [frames]; exact List.mem_cons_self)
    obtain ⟨kept, evolves⟩ := execute_settled settled top (constants.fetch fetched) executed
    exact ⟨kept, evolves.weaken fun reads => reads.fetch fetched⟩
  · rw [same]
    exact ⟨settled, .refl _ _⟩
  · have top := settled.below f (by rw [frames]; exact List.mem_cons_self)
    rw [same]
    exact ⟨(settled.shifted.withTop (top.drop count)).shifted.settled, .refl _ _⟩

/-- A run leaves the arrays of its store where they are. -/
theorem run_settled (settled : Settled first w.state) (budget : Nat) {last : Watched} {halt : Option Halt}
    (ran : runFor (step program locate) budget w = (last, halt)) :
    Settled first last.state ∧ w.state.arrays.Evolves program.ReadOnly last.state.arrays := by
  have kept (before after : Watched) (halt : Option Halt)
      (holds : Settled first before.state ∧ w.state.arrays.Evolves program.ReadOnly before.state.arrays) (_ : True)
      (moved : step program locate before = (after, halt)) :
      Settled first after.state ∧ w.state.arrays.Evolves program.ReadOnly after.state.arrays := by
    obtain ⟨next, evolves⟩ := step_settled constants holds.1 moved
    exact ⟨next, holds.2.trans evolves⟩
  exact run_keeps ⟨settled, .refl _ _⟩ kept (fun _ _ _ _ => trivial) budget (Nat.le_refl budget) last halt ran

structure Beside (first gap : Nat) (w v : Watched) : Prop where
  left : w.coverage = none
  right : v.coverage = none
  shifted : Shifted first gap w.state v.state

private theorem step_beside (beside : Beside first gap w v) :
    Follows (Beside first gap) (step program locate w) (step program locate v) := by
  have shifted := beside.shifted
  cases frames : w.state.frames with
  | nil => simp [Follows, step, frames]
  | cons f below =>
    have others : v.state.frames = f.rename (shift first gap) :: below.map (Frame.rename (shift first gap)) := by
      rw [shifted.frames, frames, List.map_cons]
    cases fetched : program.fetch f.pc with
    | error e => simp [Follows, step, frames, fetched]
    | ok i =>
      have top := shifted.below f (by rw [frames]; exact List.mem_cons_self)
      have follows := execute_shifted shifted top (constants.fetch fetched)
      rw [step_plain beside.left frames fetched, step_plain beside.right others fetched]
      rcases left : execute w.state f i with ⟨after, _ | outcome | cause⟩ <;> rw [left] at follows
      · exact ⟨follows.1, rfl, rfl, follows.2⟩
      · exact follows
      · trivial

private theorem run_beside (beside : Beside first gap w v) (budget : Nat) :
    Follows (Beside first gap) (runFor (step program locate) budget w) (runFor (step program locate) budget v) :=
  run_follows beside (fun _ _ holds (_ : True) => step_beside constants holds)
    (fun _ _ _ _ => trivial) budget (Nat.le_refl budget)

end Runs

/-! Calls. -/

theorem ofCall_find? {method : AbsMethodId} {args : List Value} {index : Operand} {x : Slot}
    (found : (Frame.ofCall method args).locals.find? index = some x) : ∃ v ∈ args, x = .value v := by
  obtain ⟨key, member⟩ := Table.mem_of_find? found
  obtain ⟨⟨v, place⟩, inside, same⟩ := List.mem_map.mp member
  cases same
  exact ⟨v, List.fst_mem_of_mem_zipIdx inside, rfl⟩

section Calls

variable {method : AbsMethodId} {args : List Value} {a b : ArrayStore} (sealed : a.Sealed)
  (given : ∀ v ∈ args, v.content.Below a.cells.size)
include sealed given

theorem settled_ofCall (room : first ≤ a.cells.size) : Settled first (.ofCall method args a) where
  room := room
  sealed := sealed
  below := by
    refine List.forall_mem_singleton.mpr ⟨?_, List.forall_mem_nil _⟩
    intro index x found
    obtain ⟨v, member, rfl⟩ := ofCall_find? found
    exact given v member
  texts := fun ref d found => by cases found

omit sealed in
private theorem rename_ofCall (gap : Nat) :
    (Frame.ofCall method args).rename (shift a.cells.size gap) = .ofCall method args := by
  have locals : (Frame.ofCall method args).locals.mapValues (Slot.rename (shift a.cells.size gap)) =
      (Frame.ofCall method args).locals := by
    refine (List.map_congr_left fun row member => ?_).trans (List.map_id' _)
    obtain ⟨⟨v, place⟩, inside, rfl⟩ := List.mem_map.mp member
    have fixed : v.content.rename (shift a.cells.size gap) = v.content :=
      (given v (List.fst_mem_of_mem_zipIdx inside)).rename fun handle inside => if_pos inside
    rw [Slot.rename, fixed]
  rw [Frame.rename, locals]
  rfl

/-- A method that is called with more arrays in the store has the results that it has without them. -/
theorem outcome_extended {program : Program} {locate : Locate}
    (constants : program.BuiltFrom (Operation.ConstantBelow a.cells.size)) (grown : a.Extends b) (budget : Nat)
    {result : Query}
    (ended : Halt.outcome (runFor (step program locate) budget ⟨.ofCall method args a, none⟩).2 = .ok result) :
    Halt.outcome (runFor (step program locate) budget ⟨.ofCall method args b, none⟩).2 = .ok result := by
  -- The arrays that are only in the larger store make up the gap: what the call allocates comes after them.
  obtain ⟨gap, size⟩ := Nat.exists_eq_add_of_le grown.size
  have settled : Settled a.cells.size (.ofCall method args a) := settled_ofCall sealed given (Nat.le_refl _)
  have shifted : Shifted a.cells.size gap (.ofCall method args a) (.ofCall method args b) := {
    frames := congrArg (fun f => [f]) (rename_ofCall given gap).symm
    memory := rfl
    arrays := .of_extends sealed size grown.items
    sealed := sealed
    below := settled.below
    texts := settled.texts }
  exact (run_beside constants ⟨rfl, rfl, shifted⟩ budget).outcome ended

end Calls
end Concrete
end BytecodeBench
