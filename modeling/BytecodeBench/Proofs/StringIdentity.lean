import BytecodeBench.Machine.Concrete
import BytecodeBench.Machine.Run
import BytecodeBench.Proofs.Computations
import BytecodeBench.Proofs.HeapGrowth
import BytecodeBench.Proofs.Programs
import BytecodeBench.Proofs.Runs

/-! Strings of the machine on texts have an identity and never change, as long as no constructor
writes to them. Each instruction hands out at most one reference; the heap grows by that alone. -/

namespace BytecodeBench.Concrete

/-- What a reference is handed out for: a literal, which keeps it, or a string of its own. -/
inductive Allocation
  | literal (text : String)
  | object

def allocates : StringCall → Bool
  | .concat | .substring => true
  | _ => false

def literal? : Value → Option String
  | ⟨.reference, .text text⟩ => some text
  | _ => none

/-- What an instruction hands out a reference for, if it does. -/
def allocation? : Operation → Option Allocation
  | .push v => (literal? v).map .literal
  | .new className => if className.isText "java/lang/String" then some .object else none
  | .invokeVirtual m =>
    match StringCall.of? m with
    | some c => if allocates c then some .object else none
    | none => none
  | _ => none

private theorem allocation?_return (type : Option JvmType) : allocation? (.return type) = none := rfl

/-- A call of a string's constructor, which writes to the string it is given. -/
def SetsUpString : Operation → Prop
  | .invokeSpecial m _ => Text.startsWith m.encode "java/lang/String.<init>:"
  | _ => False

private theorem setsUpString_of_setup {m : MethodRef} {isInterface : Bool} {setup : StringSetup}
    (found : StringSetup.of? m = some setup) : SetsUpString (.invokeSpecial m isInterface) := by
  simp only [StringSetup.of?] at found
  split at found
  next leads => exact leads
  · cases found

def top? (s : State String) : Option Slot := s.frames.head?.bind (·.stack.head?)

/-- All that an instruction can do to the heap, by what it hands out a reference for. -/
inductive Changes (s : State String) : Option Allocation → State String → Prop
  | nothing {after : State String} (same : after.memory = s.memory) : Changes s none after
  | literal {text : String} {after : State String}
      (same : after.memory = (s.intern text (.text text)).2.memory)
      (top : top? after = some (s.intern text (.text text)).1) : Changes s (some (.literal text)) after
  | object {text : String} {after : State String}
      (same : after.memory = (s.alloc (.text text)).2.memory)
      (top : top? after = some (s.alloc (.text text)).1) : Changes s (some .object) after

/-- A call gives a new string or leaves the state alone. -/
theorem call_changes (s : State String) (c : StringCall) (operands : List Slot) :
    Yields (fun result => allocates c = true ∧ (∃ text, result = s.alloc (.text text)) ∨
      allocates c = false ∧ result.2 = s) (call s c operands) := by
  unfold call
  split
  case h_1 recv => exact .bind fun _ _ => .bind fun _ _ => .pure (Or.inr ⟨rfl, rfl⟩)
  case h_2 arg recv =>
    refine .bind fun _ _ => .bind fun text _ => .bind fun content _ => ?_
    split
    · exact .bind fun more _ => .pure (Or.inl ⟨rfl, text ++ more, rfl⟩)
    · exact .bind fun more _ => .pure (Or.inl ⟨rfl, text ++ more, rfl⟩)
  case h_3 other recv => exact .bind fun _ _ => .bind fun _ _ => .pure (Or.inr ⟨rfl, rfl⟩)
  case h_4 other recv => exact .bind fun _ _ => .bind fun _ _ => .bind fun _ _ => .pure (Or.inr ⟨rfl, rfl⟩)
  case h_5 index recv =>
    refine .bind fun _ _ => .guard (.bind fun _ _ => .bind fun text _ => .guard ?_)
    refine .bind fun place _ => .bind fun within _ => ?_
    split
    · refine .bind fun place _ => ?_
      split
      · exact .pure (Or.inr ⟨rfl, rfl⟩)
      · exact .throw
    · exact .throw
  case h_6 last first recv =>
    refine .bind fun _ _ => .guard (.bind fun _ _ => .guard (.bind fun _ _ => .bind fun text _ => ?_))
    refine .bind fun _ _ => .bind fun _ _ => ?_
    refine .bind fun _ _ => .guard (.bind fun _ _ => .guard (.bind fun _ _ => .guard ?_))
    split
    next i j _ _ => exact .pure (Or.inl ⟨rfl, String.ofList ((text.toList.take j.toNat).drop i.toNat), rfl⟩)
    · exact .throw
  case h_7 name => exact .throw
  case h_8 => exact .throw

private theorem pushConstant_changes (s : State String) (f : Frame) (v : Value) :
    Changes s (allocation? (.push v)) (s.pushConstant id .text f v) := by
  obtain ⟨type, content⟩ := v
  unfold State.pushConstant
  split
  next text type content =>
    dsimp only at type content
    subst type content
    exact .literal rfl rfl
  next other =>
    have none : literal? ⟨type, content⟩ = none := by
      unfold literal?
      split
      next text same =>
        cases same
        exact (other text rfl rfl).elim
      · rfl
    rw [allocation?, none]
    exact .nothing rfl

private theorem create_changes (s : State String) (f : Frame) (className : Datum) :
    Changes s (allocation? (.new className)) (s.create (.text "") f className) := by
  by_cases string : className.isText "java/lang/String" = true
  · simp only [State.create, allocation?, string, ↓reduceIte]
    exact .object rfl rfl
  · simp only [State.create, allocation?, string]
    exact .nothing rfl

private theorem arrayStore_memory (s : State String) (item index ref : Slot) :
    Yields (fun after => after.memory = s.memory) (arrayStore s item index ref) := by
  refine .bind fun found _ => .bind fun _ _ => ?_
  split
  · exact .bind fun _ _ => .pure rfl
  · exact .throw

/-- Only a literal, a new string and a call that makes one hand out a reference; nothing else touches
the heap but a constructor. -/
theorem effect_changes (s : State String) (f : Frame) (i : Instruction) (spared : ¬ SetsUpString i.operation) :
    Yields (Changes s (allocation? i.operation)) (effect s f i) := by
  unfold effect
  refine .guard ?_
  dsimp only
  split
  next v op => rw [op]; exact .pure (pushConstant_changes s f v)
  next op => rw [op]; exact (s.increment_memory f _ _).weaken fun _ => .nothing
  next op => rw [op]; exact (s.pop_memory f).weaken fun _ => .nothing
  next op => rw [op]; exact (s.load_memory f _).weaken fun _ => .nothing
  next op => rw [op]; exact (s.store_memory f _).weaken fun _ => .nothing
  next op => rw [op]; exact (s.duplicate_memory f).weaken fun _ => .nothing
  next op => rw [op]; exact .pure (.nothing (s.memory_branch ..))
  next op => rw [op]; exact .pure (.nothing rfl)
  next className op => rw [op]; exact .pure (create_changes s f className)
  next op _ => rw [op]; exact .bind fun _ _ => .pure (.nothing rfl)
  next op _ => rw [op]; exact .bind fun _ _ => .pure (.nothing rfl)
  next item index ref op _ =>
    rw [op]
    exact .bind fun after done => .pure (.nothing (arrayStore_memory s item index ref after done))
  next operator b a op _ =>
    rw [op]
    split
    next combine _ =>
      exact .bind fun result done => .pure (.nothing (s.combined_memory combine a b result done))
    · exact .bind fun _ _ => .bind fun result done => .pure (.nothing (by cases done; rfl))
  next op _ => rw [op]; exact .bind fun _ _ => .pure (.nothing (s.memory_branch ..))
  next op _ => rw [op]; exact .bind fun _ _ => .pure (.nothing (s.memory_branch ..))
  next op _ => exact .bind fun _ _ => .throw
  next op => rw [op]; exact .pure (.nothing rfl)
  next m op =>
    rw [op, allocation?]
    cases called : StringCall.of? m with
    | none => exact .pure (.nothing rfl)
    | some c =>
      refine .bind fun result done => .pure ?_
      rcases call_changes s c _ result done with ⟨made, text, rfl⟩ | ⟨none, same⟩
      · simp only [made, ↓reduceIte]
        exact .object rfl rfl
      · simp only [none, Bool.false_eq_true, ↓reduceIte]
        exact .nothing ((result.2.memory_proceedWith ..).trans (congrArg State.memory same))
  next m _ op =>
    rw [op]
    split
    · exact .pure (.nothing rfl)
    -- Setting up a string writes to the heap without handing out anything.
    next setup found =>
      rw [op] at spared
      exact (spared (setsUpString_of_setup found)).elim
  · exact .throw

/-- A step that stops the run hands out nothing. -/
theorem execute_changes {s after : State String} {f : Frame} {i : Instruction} {halt : Option Halt}
    (moved : execute s f i = (after, halt)) (spared : ¬ SetsUpString i.operation) :
    Changes s (if halt.isNone then allocation? i.operation else none) after := by
  unfold execute at moved
  split at moved
  next op _ =>
    rw [op, allocation?_return, ite_self]
    exact .nothing (by rw [← s.memory_leave, moved])
  next op =>
    rw [op, allocation?_return, ite_self]
    exact .nothing (by rw [← s.memory_leave, moved])
  · split at moved
    next result done =>
      cases moved
      exact effect_changes s f i spared after done
    · cases moved
      exact .nothing rfl

def Spares (program : Program) (s : State String) : Prop :=
  ∀ i, s.next? program = some i → ¬ SetsUpString i.operation

private theorem spares_of_code {program : Program} (clean : program.BuiltFrom (¬ SetsUpString ·)) (s : State String) :
    Spares program s :=
  fun _ next => clean.next next

/-- A step executes the next instruction, unless there is none or the watcher meets a fault first. -/
theorem step_cases {program : Program} {locate : Locate} {w after : Watched} {halt : Option Halt}
    (moved : step program locate w = (after, halt)) :
    (∃ f below i, w.state.frames = f :: below ∧ program.fetch f.pc = .ok i ∧
      execute w.state f i = (after.state, halt)) ∨
    halt.isNone = false ∧ (after.state = w.state ∨ ∃ f below count, w.state.frames = f :: below ∧
      after.state = w.state.withTop { f with stack := f.stack.drop count }) := by
  unfold step at moved
  split at moved
  · cases moved; exact Or.inr ⟨rfl, Or.inl rfl⟩
  next f below frames =>
    split at moved
    · cases moved; exact Or.inr ⟨rfl, Or.inl rfl⟩
    next i fetched =>
      cases watcher : w.coverage with
      | none =>
        simp only [watcher] at moved
        cases moved
        exact Or.inl ⟨f, below, i, frames, fetched, rfl⟩
      | some c =>
        simp only [watcher] at moved
        split at moved
        · cases moved; exact Or.inr ⟨rfl, Or.inl rfl⟩
        · split at moved
          · cases moved; exact Or.inr ⟨rfl, Or.inr ⟨f, below, arity i.operation, frames, rfl⟩⟩
          · cases moved
            exact Or.inl ⟨f, below, i, frames, fetched, rfl⟩

theorem step_changes {program : Program} {locate : Locate} {w after : Watched} {halt : Option Halt}
    (moved : step program locate w = (after, halt)) (spared : Spares program w.state) :
    Changes w.state (if halt.isNone then (w.state.next? program).bind (allocation? ·.operation) else none)
      after.state := by
  rcases step_cases moved with ⟨f, below, i, frames, fetched, executed⟩ | ⟨stopped, state⟩
  · have next := State.next?_eq frames fetched
    rw [next]
    exact execute_changes executed (spared i next)
  · have same : after.state.memory = w.state.memory := by
      rcases state with same | ⟨f, below, count, frames, same⟩
      · rw [same]
      · rw [same]
        rfl
    rw [stopped]
    exact .nothing same

/-- What any instruction does to the heap keeps it valid, and only adds to it. -/
theorem Changes.heap {s after : State String} {allocation : Option Allocation}
    (changes : Changes s allocation after) (valid : s.HeapValid .text) :
    after.HeapValid .text ∧ s.HeapGrows after := by
  cases changes with
  | nothing same => exact ⟨valid.of_memory same, (State.HeapGrows.refl s).of_memory same⟩
  | literal same top =>
    obtain ⟨kept, grows, -⟩ := valid.intern _
    exact ⟨kept.of_memory same, grows.of_memory same⟩
  | object same top => exact ⟨(valid.alloc _).of_memory same, (valid.alloc_grows _).of_memory same⟩

theorem step_heap {program : Program} {locate : Locate} {w after : Watched} {halt : Option Halt}
    (valid : w.state.HeapValid .text) (spared : Spares program w.state)
    (moved : step program locate w = (after, halt)) :
    after.state.HeapValid .text ∧ w.state.HeapGrows after.state :=
  (step_changes moved spared).heap valid

/-- A step hands out a reference: its instruction asks for one and leaves it on top of the stack. -/
structure HandsOut (program : Program) (locate : Locate) (w : Watched) (allocation : Allocation) (ref : Int)
    (after : Watched) : Prop where
  asked : (w.state.next? program).bind (allocation? ·.operation) = some allocation
  moved : step program locate w = (after, none)
  top : top? after.state = some (.reference (.int ref))

section References

variable {program : Program} {locate : Locate} {w after : Watched}

/-- An instruction that asks for a reference and does not stop the run gets one. -/
theorem allocation_hands_out {allocation : Allocation} (valid : w.state.HeapValid .text)
    (spared : Spares program w.state)
    (asked : (w.state.next? program).bind (allocation? ·.operation) = some allocation)
    (moved : step program locate w = (after, none)) : ∃ ref, HandsOut program locate w allocation ref after := by
  have changes := step_changes moved spared
  rw [asked] at changes
  cases changes with
  | literal same top =>
    obtain ⟨-, -, ref, interned⟩ := valid.intern _
    exact ⟨ref, asked, moved, top.trans (congrArg some interned.slot)⟩
  | object same top => exact ⟨w.state.next, asked, moved, top⟩

private theorem reference_inj {first second : Int}
    (same : some (Slot.reference (.int first)) = some (Slot.reference (.int second))) : first = second := by
  cases same
  rfl

/-- The reference of a literal is the one under which the pool has it from then on. -/
theorem HandsOut.pooled {text : String} {ref : Int} (hands : HandsOut program locate w (.literal text) ref after)
    (valid : w.state.HeapValid .text) (spared : Spares program w.state) :
    after.state.pool.find? text = some ref := by
  have changes := step_changes hands.moved spared
  rw [hands.asked] at changes
  cases changes with
  | literal same top =>
    obtain ⟨-, -, given, interned⟩ := valid.intern text
    have equal : given = ref := reference_inj ((congrArg some interned.slot).symm.trans (top.symm.trans hands.top))
    have pool : after.state.pool = (w.state.intern text (.text text)).2.pool := (Prod.mk.inj (Prod.mk.inj same).2).2
    rw [pool, ← equal]
    exact interned.pool

/-- A string of its own gets the next reference. -/
theorem HandsOut.next {ref : Int} (hands : HandsOut program locate w .object ref after)
    (spared : Spares program w.state) : ref = w.state.next ∧ after.state.next = w.state.next + 1 := by
  have changes := step_changes hands.moved spared
  rw [hands.asked] at changes
  cases changes with
  | object same top =>
    exact ⟨reference_inj (hands.top.symm.trans top), (Prod.mk.inj (Prod.mk.inj same).2).1⟩

theorem HandsOut.below {allocation : Allocation} {ref : Int} (hands : HandsOut program locate w allocation ref after)
    (valid : w.state.HeapValid .text) (spared : Spares program w.state) : ref < after.state.next := by
  cases allocation with
  | literal text =>
    have kept := (step_heap valid spared hands.moved).1
    exact (kept.pooled text ref (hands.pooled valid spared)).2.1
  | object =>
    obtain ⟨rfl, next⟩ := hands.next spared
    omega

end References

structure Execution where
  program : Program
  locate : Locate
  method : AbsMethodId
  args : List Value
  arrays : ArrayStore
  coverage : Option Coverage

namespace Execution

def after (e : Execution) (k : Nat) : Watched × Option Halt :=
  runFor (step e.program e.locate) k ⟨.ofCall e.method e.args e.arrays, e.coverage⟩

def SparesStrings (e : Execution) (budget : Nat) : Prop :=
  ∀ k < budget, ∀ w, e.after k = (w, none) → Spares e.program w.state

def HandsOut (e : Execution) (k : Nat) (allocation : Allocation) (ref : Int) : Prop :=
  ∃ w next, e.after k = (w, none) ∧ Concrete.HandsOut e.program e.locate w allocation ref next

theorem heap_valid (e : Execution) {budget : Nat} (spared : e.SparesStrings budget) :
    ∀ k ≤ budget, ∀ w halt, e.after k = (w, halt) → w.state.HeapValid .text :=
  run_keeps (.initial _ e.method e.args e.arrays)
    (fun _ _ _ valid spared moved => (step_heap valid spared moved).1) spared

theorem heap_grows (e : Execution) {budget : Nat} (spared : e.SparesStrings budget) :
    ∀ j k, j ≤ k → k ≤ budget → ∀ w v halt later, e.after j = (w, halt) → e.after k = (v, later) →
      w.state.HeapGrows v.state :=
  run_grows (.initial _ e.method e.args e.arrays) (fun w => .refl w.state) .trans
    (fun _ _ _ valid spared moved => step_heap valid spared moved) spared

private theorem text_injective : Function.Injective Datum.text := by
  intro first second same
  cases same
  rfl

/-- Of two references handed out one after the other, those of literals are equal exactly if the texts
are, and that of a string made at run time is new. -/
theorem references_apart (e : Execution) {budget j k : Nat} (spared : e.SparesStrings budget)
    (order : j < k) (within : k < budget) {one other : Allocation} {first second : Int}
    (early : e.HandsOut j one first) (late : e.HandsOut k other second) :
    (∀ text again, one = .literal text → other = .literal again → (first = second ↔ text = again)) ∧
      (other = .object → first ≠ second) := by
  obtain ⟨w, middle, ran, hands⟩ := early
  obtain ⟨v, last, reran, later⟩ := late
  have validW := e.heap_valid spared j (by omega) w none ran
  have validV := e.heap_valid spared k (by omega) v none reran
  have sparedW := spared j (by omega) w ran
  have sparedV := spared k within v reran
  have between : middle.state.HeapGrows v.state := by
    apply e.heap_grows spared (j + 1) k order (by omega) middle v none none _ reran
    have moved := hands.moved
    rw [after] at ran ⊢
    rw [runFor_succ, ran]
    exact moved
  refine ⟨?_, ?_⟩
  · -- The pool keeps the reference of the first literal until it has that of the second.
    rintro text again rfl rfl
    obtain ⟨kept, grows⟩ := step_heap validV sparedV later.moved
    have held := grows.pool text first (between.pool text first (hands.pooled validW sparedW))
    have taken := later.pooled validV sparedV
    constructor
    · rintro rfl
      exact kept.pool_injective text_injective held taken
    · rintro rfl
      exact Option.some.inj (held.symm.trans taken)
  · -- Whatever has been handed out lies below the next reference.
    rintro rfl
    have below := hands.below validW sparedW
    have fresh := (later.next sparedV).1
    have moved := between.next
    omega

/-- As long as no constructor of strings is called, the heap numbers its strings without gaps, the pool
has one reference for each literal, and no string ever changes. So literals get equal references only
if their texts are equal, and a string made at run time gets one that nothing had before. -/
theorem strings_keep_identity (e : Execution) (budget : Nat) (spared : e.SparesStrings budget) :
    (∀ k ≤ budget, (e.after k).1.state.HeapValid .text ∧
      ∀ first second ref, (e.after k).1.state.pool.find? first = some ref →
        (e.after k).1.state.pool.find? second = some ref → first = second) ∧
    (∀ j k, j ≤ k → k ≤ budget → (e.after j).1.state.HeapGrows (e.after k).1.state) ∧
    (∀ k < budget, ∀ w next allocation, e.after k = (w, none) → e.after (k + 1) = (next, none) →
      (w.state.next? e.program).bind (allocation? ·.operation) = some allocation →
      ∃ ref, e.HandsOut k allocation ref) ∧
    ∀ j k, j < k → k < budget → ∀ one other first second, e.HandsOut j one first → e.HandsOut k other second →
      (∀ text again, one = .literal text → other = .literal again → (first = second ↔ text = again)) ∧
      (other = .object → first ≠ second) := by
  refine ⟨?_, ?_, ?_, ?_⟩
  · intro k within
    have valid := e.heap_valid spared k within _ _ rfl
    exact ⟨valid, fun _ _ _ one other => valid.pool_injective text_injective one other⟩
  · intro j k order within
    exact e.heap_grows spared j k order within _ _ _ _ rfl rfl
  · intro k within w next allocation ran moved asked
    rw [after] at moved ran
    rw [runFor_succ, ran] at moved
    obtain ⟨ref, hands⟩ :=
      allocation_hands_out (e.heap_valid spared k (by omega) w none ran) (spared k within w ran) asked moved
    exact ⟨ref, w, next, ran, hands⟩
  · intro j k order within one other first second early late
    exact e.references_apart spared order within early late

def twoLiterals : Execution where
  program.code := fun _ => .ok #[⟨.int 0, .push ⟨.reference, .text "a"⟩⟩, ⟨.int 1, .push ⟨.reference, .text "b"⟩⟩]
  locate := fun _ _ => 0
  method := ⟨⟨"Sample"⟩, ⟨"run", [], none⟩⟩
  args := []
  arrays := {}
  coverage := none

theorem twoLiterals_keep_identity :
    twoLiterals.SparesStrings 2 ∧ twoLiterals.HandsOut 0 (.literal "a") 0 ∧ twoLiterals.HandsOut 1 (.literal "b") 1 ∧
      ((0 : Int) = 1 ↔ "a" = "b") := by
  have spared : twoLiterals.SparesStrings 2 := by
    intro k _ w _
    apply spares_of_code
    intro method code found i inside
    cases found
    simp only [List.mem_toArray, List.mem_cons, List.not_mem_nil, or_false] at inside
    rcases inside with rfl | rfl <;> exact id
  have first : twoLiterals.HandsOut 0 (.literal "a") 0 := ⟨_, _, rfl, rfl, rfl, rfl⟩
  have second : twoLiterals.HandsOut 1 (.literal "b") 1 := ⟨_, _, rfl, rfl, rfl, rfl⟩
  exact ⟨spared, first, second,
    ((twoLiterals.strings_keep_identity 2 spared).2.2.2 0 1 (by decide) (by decide) _ _ _ _ first second).1 _ _ rfl rfl⟩

end Execution
end BytecodeBench.Concrete
