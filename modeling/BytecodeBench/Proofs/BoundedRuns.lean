import BytecodeBench.Machine.Abstract
import BytecodeBench.Machine.Concrete
import BytecodeBench.Proofs.HeapGrowth
import BytecodeBench.Proofs.Lockstep
import BytecodeBench.Proofs.Runs

/-! How bounded runs end. No instruction adds a frame, so a machine that is still running has the one it
started with, and a return ends the run. No instruction ends a run in the result that stands for running
on, so that result says that the budget was spent; any other result, and any fault, stays when the
budget grows. -/

namespace BytecodeBench

/-- A computation gives only results as described, and it ends a run only in certain outcomes. It may
also meet a fault. -/
def Ends {α : Type} (outcomes : List Query) (post : α → Prop) : Except Halt α → Prop
  | .ok a => post a
  | .error (.ended outcome) => outcome ∈ outcomes
  | .error (.fault _) => True

namespace Ends

variable {α β : Type} {outcomes : List Query} {post : β → Prop}

theorem pure {b : β} (holds : post b) : Ends outcomes post (Pure.pure b) := holds

theorem fault {cause : Fault} : Ends outcomes post (throw (.fault cause)) := trivial

theorem ended {outcome : Query} (member : outcome ∈ outcomes) : Ends outcomes post (throw (.ended outcome)) := member

theorem bind {first : α → Prop} {x : Except Halt α} {f : α → Except Halt β} (ends : Ends outcomes first x)
    (rest : ∀ a, first a → Ends outcomes post (f a)) : Ends outcomes post (x >>= f) := by
  rcases x with ⟨outcome | cause⟩ | a
  · exact ends
  · trivial
  · exact rest a ends

theorem stop {outcome : Query} {f : α → Except Halt β} (member : outcome ∈ outcomes) :
    Ends outcomes post (throw (.ended outcome) >>= f) := member

/-- What is computed without regard to runs ends none. -/
theorem after {x : Except Fault α} {f : α → Except Halt β} (rest : ∀ a, Ends outcomes post (f a)) :
    Ends outcomes post (liftM x >>= f) := by
  cases x with
  | error cause => trivial
  | ok a => exact rest a

theorem lift (x : Except Fault α) : Ends outcomes (fun _ => True) (liftM x : Except Halt α) := by
  cases x <;> trivial

/-- A check that meets a fault or lets the computation go on. -/
theorem guard {condition : Prop} [Decidable condition] {stop : Except Halt Unit} {next : Unit → Except Halt β}
    (stops : Ends outcomes (fun _ => True) stop) (rest : Ends outcomes post (next ())) :
    Ends outcomes post (if condition then stop >>= next else next ()) := by
  split
  · exact stops.bind fun _ _ => rest
  · exact rest

theorem mapM {f : α → Except Halt β} (each : ∀ a, Ends outcomes (fun _ => True) (f a)) (items : List α) :
    Ends outcomes (fun _ => True) (items.mapM f) := by
  induction items with
  | nil => trivial
  | cons a items ih =>
    rw [List.mapM_cons]
    exact (each a).bind fun _ _ => ih.bind fun _ _ => trivial

end Ends

def Tops {L : Type} (s after : State L) : Prop := ∃ f, after.frames = f :: s.frames.drop 1

/-- What a step from a single frame comes to: a single frame again, one of certain outcomes, or a fault. -/
def Proceeds {L : Type} (outcomes : List Query) : State L × Option Halt → Prop
  | (after, none) => ∃ f, after.frames = [f]
  | (_, some (.ended outcome)) => outcome ∈ outcomes
  | (_, some (.fault _)) => True

theorem Proceeds.of_ended {L : Type} {outcomes : List Query} {moved : State L × Option Halt} {outcome : Query}
    (ended : moved.2 = some (.ended outcome)) (member : outcome ∈ outcomes) : Proceeds outcomes moved := by
  obtain ⟨after, halt⟩ := moved
  cases ended
  exact member

/-- An effect on a single frame, as a step. -/
theorem Ends.proceeds {L : Type} {outcomes more : List Query} {s : State L} {f : Frame} {x : Except Halt (State L)}
    (ends : Ends outcomes (Tops s) x) (only : s.frames = [f]) (within : outcomes ⊆ more) :
    (∀ after, x = .ok after → Proceeds more (after, none)) ∧
      ∀ halt (stopped : State L), x = .error halt → Proceeds more (stopped, some halt) := by
  constructor
  · rintro after rfl
    obtain ⟨g, frames⟩ := ends
    exact ⟨g, by rw [frames, only]; rfl⟩
  · rintro (outcome | cause) stopped rfl
    · exact within ends
    · trivial

namespace State

variable {L : Type} {outcomes : List Query} (s : State L) (f : Frame)

theorem proceed_tops {after : State L} (same : after.frames = s.frames) : Tops s (after.proceed f) := by
  unfold Tops proceed withTop
  rw [same]
  exact ⟨_, rfl⟩

theorem proceedWith_tops {after : State L} (same : after.frames = s.frames) (stack : List Slot) :
    Tops s (after.proceedWith f stack) :=
  s.proceed_tops _ same

theorem branch_tops (stack : List Slot) (target : Operand) (taken : Bool) : Tops s (s.branch f stack target taken) := by
  cases taken <;> exact ⟨_, rfl⟩

theorem pushConstant_tops [BEq L] (keep : String → L) (content : L → Datum) (v : Value) :
    Tops s (s.pushConstant keep content f v) := by
  unfold pushConstant
  split
  · exact s.proceedWith_tops f (s.intern_frames _ _).1 _
  · exact s.proceedWith_tops f rfl _

theorem create_tops (emptyString className : Datum) : Tops s (s.create emptyString f className) := by
  unfold create
  split <;> exact s.proceedWith_tops f rfl _

theorem unexpected_ends {α : Type} {post : α → Prop} (expected : Expectation) (found : List Slot) :
    Ends outcomes post (s.unexpected expected found) := trivial

theorem increment_ends (index amount : Operand) : Ends outcomes (Tops s) (s.increment f index amount) := by
  refine .after fun _ => ?_
  split
  · exact .after fun _ => .after fun _ => .pure (s.proceed_tops _ rfl)
  · exact s.unexpected_ends _ _

theorem pop_ends : Ends outcomes (Tops s) (s.pop f) := by
  unfold pop
  split
  · exact s.proceedWith_tops f rfl _
  · trivial

theorem load_ends (index : Operand) : Ends outcomes (Tops s) (s.load f index) := by
  unfold load
  split
  · exact s.proceedWith_tops f rfl _
  · trivial

theorem store_ends (index : Operand) : Ends outcomes (Tops s) (s.store f index) := by
  unfold store
  split
  · exact s.proceed_tops _ rfl
  · trivial

theorem duplicate_ends : Ends outcomes (Tops s) (s.duplicate f) := by
  unfold duplicate
  split
  · exact s.proceedWith_tops f rfl _
  · trivial

theorem integerOf_ends (slot : Slot) (v : Value) : Ends outcomes (fun _ => True) (s.integerOf slot v) := by
  unfold integerOf
  split
  · trivial
  · cases v.content.charCode <;> trivial
  · trivial
  · exact s.unexpected_ends _ _

theorem combined_ends (op : ArrayStore → Datum → Datum → Except Fault (Datum × ArrayStore)) (a b : Slot) :
    Ends outcomes (fun result => result.2.frames = s.frames) (s.combined op a b) := by
  refine .after fun _ => ?_
  split
  · refine .after fun _ => ?_
    split
    · exact .after fun _ => .after fun _ => .after fun _ => .pure rfl
    · exact s.unexpected_ends _ _
  · exact s.unexpected_ends _ _

end State

namespace Concrete

variable {outcomes : List Query} (s : State String)

theorem toInteger_ends (slot : Slot) : Ends outcomes (fun _ => True) (toInteger s slot) := by
  cases slot with
  | value v => exact s.integerOf_ends _ v
  | bare d => trivial

theorem stringOf_ends (slot : Slot) : Ends outcomes (fun _ => True) (stringOf s slot) := by
  refine .after fun content => ?_
  split
  · trivial
  · trivial
  · split
    · exact .lift _
    · exact s.unexpected_ends _ _

private theorem arrayOf_ends (slot : Slot) : Ends outcomes (fun _ => True) (arrayOf s slot) := by
  refine .after fun content => ?_
  split
  · trivial
  · trivial
  · split
    · exact .lift _
    · exact s.unexpected_ends _ _

theorem textOf_ends (expected : Expectation) (slot : Slot) :
    Ends outcomes (fun _ => True) (textOf s expected slot) := by
  refine (stringOf_ends s slot).bind fun d _ => ?_
  split
  · trivial
  · exact s.unexpected_ends _ _

theorem refuseNull_ends {outcome : Query} (member : outcome ∈ outcomes) (slot : Slot) :
    Ends outcomes (fun _ => True) (refuseNull outcome slot) := by
  refine .after fun content => ?_
  split
  · exact member
  · trivial

def failures : List Query := [.assertionError, .divideByZero, .nullPointer, .outOfBounds]

private theorem access_ends (index ref : Slot) : Ends failures (fun _ => True) (access s index ref) := by
  refine .after fun _ => .guard (s.unexpected_ends _ _) ?_
  refine (arrayOf_ends s ref).bind fun array _ => ?_
  split
  · exact .stop (by decide)
  · refine .after fun place => .after fun inside => ?_
    split
    · trivial
    · exact .ended (by decide)

private theorem arrayLoad_ends (type : JvmType) (index ref : Slot) :
    Ends failures (fun _ => True) (arrayLoad s type index ref) := by
  refine (access_ends s index ref).bind fun found _ => .after fun items => .after fun place => ?_
  split <;> trivial

private theorem arrayLength_ends (ref : Slot) : Ends failures (fun _ => True) (arrayLength s ref) := by
  refine (arrayOf_ends s ref).bind fun array _ => ?_
  split
  · exact .stop (by decide)
  · exact .after fun _ => trivial

private theorem arrayStore_ends (item index ref : Slot) :
    Ends failures (fun after => after.frames = s.frames) (arrayStore s item index ref) := by
  refine (access_ends s index ref).bind fun found _ => .after fun d => ?_
  split
  · exact .after fun _ => .pure rfl
  · trivial

private theorem divide_ends (a b : Slot) : Ends failures (fun _ => True) (divide s a b) := by
  refine .after fun _ => .guard (s.unexpected_ends _ _) (.after fun _ => .guard (s.unexpected_ends _ _) ?_)
  refine .after fun _ => .guard (.ended (by decide)) ?_
  exact .after fun _ => .after fun _ => .after fun _ => trivial

theorem zeroJump_ends (condition : String) (slot : Slot) :
    Ends outcomes (fun _ => True) (zeroJump s condition slot) := by
  refine .after fun content => ?_
  split
  · exact .lift _
  · exact s.unexpected_ends _ _

theorem pairJump_ends (condition : String) (a b : Slot) : Ends outcomes (fun _ => True) (pairJump s condition a b) := by
  unfold pairJump
  split
  · split <;> trivial
  · exact (toInteger_ends s a).bind fun _ _ => (toInteger_ends s b).bind fun _ _ => .lift _

/-- Setting up a string writes to the heap alone. -/
theorem setUp_ends (setup : StringSetup) (operands : List Slot) :
    Ends outcomes (fun after => after.frames = s.frames) (setUp s setup operands) := by
  unfold setUp
  extract_lets put
  have put_ends (this : Slot) (d : Datum) : Ends outcomes (fun after => after.frames = s.frames) (put this d) := by
    refine .after fun content => ?_
    split
    · exact .pure rfl
    · exact s.unexpected_ends _ _
  split
  · refine (stringOf_ends s _).bind fun d _ => ?_
    split
    · exact put_ends _ _
    · exact put_ends _ _
  · exact put_ends _ _
  · refine .after fun _ => .guard (s.unexpected_ends _ _) (.after fun _ => ?_)
    split
    · exact s.unexpected_ends _ _
    · split
      · exact put_ends _ _
      · refine .after fun items => (Ends.mapM (fun d => ?_) items).bind fun _ _ => put_ends _ _
        split <;> trivial
  · trivial
  · trivial

theorem call_ends (c : StringCall) (operands : List Slot) :
    Ends failures (fun result => result.2.frames = s.frames) (call s c operands) := by
  unfold call
  split
  case h_1 recv =>
    exact (refuseNull_ends (by decide) recv).bind fun _ _ => (textOf_ends s _ recv).bind fun _ _ => .pure rfl
  case h_2 arg recv =>
    refine (refuseNull_ends (by decide) recv).bind fun _ _ => (textOf_ends s _ recv).bind fun _ _ => ?_
    refine .after fun _ => ?_
    split
    · exact .pure rfl
    · exact (textOf_ends s _ arg).bind fun _ _ => .pure rfl
  case h_3 other recv =>
    exact (stringOf_ends s recv).bind fun _ _ => (stringOf_ends s other).bind fun _ _ => .pure rfl
  case h_4 other recv =>
    refine (stringOf_ends s recv).bind fun _ _ => (stringOf_ends s other).bind fun _ _ => ?_
    exact .after fun _ => .pure rfl
  case h_5 index recv =>
    refine .after fun _ => .guard (s.unexpected_ends _ _) ?_
    refine (refuseNull_ends (by decide) recv).bind fun _ _ => (textOf_ends s _ recv).bind fun _ _ => ?_
    refine .guard (.ended (by decide)) (.after fun _ => .after fun _ => ?_)
    split
    · refine .after fun _ => ?_
      split
      · exact .pure rfl
      · exact .fault
    · exact .ended (by decide)
  case h_6 last first recv =>
    refine .after fun _ => .guard (s.unexpected_ends _ _) (.after fun _ => .guard (s.unexpected_ends _ _) ?_)
    refine (refuseNull_ends (by decide) recv).bind fun _ _ => (textOf_ends s _ recv).bind fun _ _ => ?_
    refine .after fun _ => .after fun _ => .after fun _ => .guard (.ended (by decide)) ?_
    refine .after fun _ => .guard (.ended (by decide)) (.after fun _ => .guard (.ended (by decide)) ?_)
    split
    · exact .pure rfl
    · exact .fault
  case h_7 name => exact .fault
  case h_8 => exact .fault

/-- An instruction other than a return changes the top frame alone, or ends the run in a failure. -/
theorem effect_ends (f : Frame) (i : Instruction) : Ends failures (Tops s) (effect s f i) := by
  unfold effect
  refine .guard .fault ?_
  dsimp only
  split
  next v _ => exact .pure (s.pushConstant_tops f _ _ v)
  next => exact s.increment_ends f _ _
  next => exact s.pop_ends f
  next => exact s.load_ends f _
  next => exact s.store_ends f _
  next => exact s.duplicate_ends f
  next => exact .pure (s.branch_tops f _ _ _)
  next => exact .pure (s.proceedWith_tops f rfl _)
  next className _ => exact .pure (s.create_tops f _ className)
  next type index ref _ _ =>
    exact (arrayLoad_ends s type index ref).bind fun _ _ => .pure (s.proceedWith_tops f rfl _)
  next ref _ _ => exact (arrayLength_ends s ref).bind fun _ _ => .pure (s.proceedWith_tops f rfl _)
  next item index ref _ _ =>
    exact (arrayStore_ends s item index ref).bind fun _ same => .pure (s.proceedWith_tops f same _)
  next operator b a _ _ =>
    split
    next combine _ => exact (s.combined_ends combine a b).bind fun _ same => .pure (s.proceedWith_tops f same _)
    · exact (divide_ends s a b).bind fun _ _ => .pure (s.proceedWith_tops f rfl _)
  next condition target v _ _ => exact (zeroJump_ends s condition v).bind fun _ _ => .pure (s.branch_tops f _ _ _)
  next condition target b a _ _ => exact (pairJump_ends s condition a b).bind fun _ _ => .pure (s.branch_tops f _ _ _)
  next thrown _ _ => exact (refuseNull_ends (by decide) thrown).bind fun _ _ => .ended (by decide)
  next => exact .pure (s.proceed_tops f rfl)
  next m _ =>
    split
    · exact .pure (s.proceed_tops f rfl)
    next c _ => exact (call_ends s c _).bind fun _ same => .pure (s.proceedWith_tops f same _)
  next m _ _ =>
    split
    · exact .pure (s.proceed_tops f rfl)
    next setup _ => exact (setUp_ends s setup _).bind fun _ same => .pure (s.proceedWith_tops f same _)
  · exact .fault

theorem execute_proceeds {f : Frame} (only : s.frames = [f]) (i : Instruction) :
    Proceeds (.ok :: failures) (execute s f i) := by
  have left (result : List Slot) : Proceeds (.ok :: failures) (s.leave result) :=
    .of_ended (leave_last only result) List.mem_cons_self
  have effects := (effect_ends s f i).proceeds only (List.subset_cons_self .ok failures)
  unfold execute
  split
  next => exact left _
  next => exact left _
  next =>
    split
    next after done => exact effects.1 after done
    next halt stopped => exact effects.2 halt _ stopped

/-- Returning from the only method ends the run, if nothing is wrong with the return itself. -/
theorem execute_return {f : Frame} (only : s.frames = [f]) {i : Instruction} {type : Option JvmType}
    (op : i.operation = .return type) :
    (execute s f i).2 = some (.ended .ok) ∨ ∃ cause, (execute s f i).2 = some (.fault cause) := by
  obtain ⟨cause, stopped⟩ := effect_return (s := s) (f := f) op
  unfold execute
  split
  next => exact Or.inl (leave_last only _)
  next => exact Or.inl (leave_last only _)
  next =>
    rw [stopped]
    exact Or.inr ⟨cause, rfl⟩

/-- A step executes the instruction that is next, unless there is none or its observation meets a fault. -/
theorem step_executes (program : Program) (locate : Locate) {w : Watched} {f : Frame} {below : List Frame}
    (frames : w.state.frames = f :: below) :
    (∃ cause, (step program locate w).2 = some (.fault cause)) ∨
      ∃ i, program.fetch f.pc = .ok i ∧ (step program locate w).1.state = (execute w.state f i).1 ∧
        (step program locate w).2 = (execute w.state f i).2 := by
  simp only [step, frames]
  cases fetched : program.fetch f.pc with
  | error e => exact Or.inl ⟨e, rfl⟩
  | ok i =>
    dsimp only
    split
    · exact Or.inr ⟨i, rfl, rfl, rfl⟩
    · split
      next e _ => exact Or.inl ⟨e, rfl⟩
      · split
        next c e _ => exact Or.inl ⟨e, rfl⟩
        · exact Or.inr ⟨i, rfl, rfl, rfl⟩

end Concrete

namespace Abstract

variable {outcomes : List Query} (t : State StringSign)

theorem toInteger_ends (slot : Slot) : Ends outcomes (fun _ => True) (toInteger t slot) := by
  cases slot with
  | value v => exact t.integerOf_ends _ v
  | bare d =>
    simp only [toInteger]
    split <;> trivial

theorem signOf_ends (slot : Slot) : Ends outcomes (fun _ => True) (signOf t slot) := by
  unfold signOf
  split
  · trivial
  · trivial
  · split
    · trivial
    · trivial
    · split
      · exact .lift _
      · exact t.unexpected_ends _ _

private theorem receiver_ends (slot : Slot) : Ends outcomes (fun _ => True) (receiver t slot) := by
  refine (signOf_ends t slot).bind fun d _ => ?_
  split
  · trivial
  · exact t.unexpected_ends _ _

theorem combined_ends (op : ArrayStore → Datum → Datum → Except Fault (Datum × ArrayStore)) (a b : Slot) :
    Ends outcomes (fun result => result.2.frames = t.frames) (combined t op a b) := by
  unfold combined
  split
  · exact (t.combined_ends op _ _).bind fun _ same => .pure same
  · split
    · exact .after fun _ => .pure rfl
    · exact .pure rfl
  · exact .pure rfl

theorem zeroJump_ends (condition : String) (slot : Slot) :
    Ends outcomes (fun _ => True) (zeroJump t condition slot) := by
  unfold zeroJump
  split
  · exact .lift _
  · exact .lift _
  · exact .lift _
  · exact t.unexpected_ends _ _

theorem pairJump_ends (condition : String) (a b : Slot) : Ends outcomes (fun _ => True) (pairJump t condition a b) := by
  unfold pairJump
  split
  · split <;> trivial
  · exact (toInteger_ends t a).bind fun _ _ => (toInteger_ends t b).bind fun _ _ => .lift _

theorem refuseNull_ends {outcome : Query} (member : outcome ∈ outcomes) (slot : Slot) :
    Ends outcomes (fun _ => True) (refuseNull outcome slot) := by
  refine .after fun content => ?_
  split
  · exact member
  · trivial

private theorem equals_ends (other recv : Slot) : Ends outcomes (fun _ => True) (equals t other recv) := by
  refine (signOf_ends t other).bind fun _ _ => (signOf_ends t recv).bind fun _ _ => ?_
  split <;> trivial

/-- The outcomes in which an instruction other than a return ends a run; it divides nothing. -/
def failures : List Query := [.assertionError, .nullPointer, .outOfBounds]

theorem call_ends (c : StringCall) (operands : List Slot) :
    Ends failures (fun result => result.2.frames = t.frames) (call t c operands) := by
  unfold call
  split
  case h_1 recv =>
    split
    · exact .stop (by decide)
    · refine (signOf_ends t recv).bind fun _ _ => ?_
      split
      · exact .ended (by decide)
      · exact .pure rfl
      · exact .fault
  case h_2 arg recv =>
    refine (refuseNull_ends (by decide) recv).bind fun _ _ => (refuseNull_ends (by decide) arg).bind fun _ _ => ?_
    refine (signOf_ends t arg).bind fun _ _ => (signOf_ends t recv).bind fun _ _ => ?_
    split
    · exact .pure rfl
    · exact .fault
  case h_3 other recv => exact (equals_ends t other recv).bind fun _ _ => .pure rfl
  case h_4 other recv => exact (equals_ends t other recv).bind fun _ _ => .pure rfl
  case h_5 index recv =>
    refine .after fun _ => .guard (t.unexpected_ends _ _) (.after fun _ => ?_)
    split
    · exact t.unexpected_ends _ _
    · refine (refuseNull_ends (by decide) recv).bind fun _ _ => (receiver_ends t recv).bind fun _ _ => ?_
      split
      · exact .pure rfl
      · exact .ended (by decide)
  case h_6 last first recv =>
    refine .after fun _ => .after fun _ => ?_
    split
    · refine (refuseNull_ends (by decide) recv).bind fun _ _ => (receiver_ends t recv).bind fun _ _ => ?_
      split
      · exact .pure rfl
      · exact .ended (by decide)
    · exact t.unexpected_ends _ _
  case h_7 name => exact .fault
  case h_8 => exact .fault

/-- An instruction other than a return changes the top frame alone, or ends the run in a failure. -/
theorem effect_ends (f : Frame) (i : Instruction) : Ends failures (Tops t) (effect t f i) := by
  unfold effect
  refine .guard .fault ?_
  dsimp only
  split
  next v _ => exact .pure (t.pushConstant_tops f _ _ v)
  next => exact t.increment_ends f _ _
  next => exact t.pop_ends f
  next => exact t.load_ends f _
  next => exact t.store_ends f _
  next => exact t.duplicate_ends f
  next => exact .pure (t.branch_tops f _ _ _)
  next => exact .pure (t.proceedWith_tops f rfl _)
  next className _ => exact .pure (t.create_tops f _ className)
  next condition target v _ _ => exact (zeroJump_ends t condition v).bind fun _ _ => .pure (t.branch_tops f _ _ _)
  next condition target b a _ _ => exact (pairJump_ends t condition a b).bind fun _ _ => .pure (t.branch_tops f _ _ _)
  next operator b a _ _ =>
    split
    next combine _ => exact (combined_ends t combine a b).bind fun _ same => .pure (t.proceedWith_tops f same _)
    · exact .fault
  next m _ _ =>
    split
    · exact .pure (t.proceedWith_tops f rfl _)
    · exact .pure (t.proceed_tops f rfl)
  next m _ =>
    split
    · exact .pure (t.proceed_tops f rfl)
    next c _ => exact (call_ends t c _).bind fun _ same => .pure (t.proceedWith_tops f same _)
  next => exact .ended (by decide)
  · exact .fault

theorem execute_proceeds {f : Frame} (only : t.frames = [f]) (i : Instruction) :
    Proceeds (.ok :: failures) (execute t f i) := by
  have effects := (effect_ends t f i).proceeds only (List.subset_cons_self .ok failures)
  unfold execute
  split
  next => exact .of_ended (leave_last only _) List.mem_cons_self
  next =>
    split
    next after done => exact effects.1 after done
    next halt stopped => exact effects.2 halt _ stopped

theorem execute_return {f : Frame} (only : t.frames = [f]) {i : Instruction} {type : Option JvmType}
    (op : i.operation = .return type) : (execute t f i).2 = some (.ended .ok) := by
  unfold execute
  rw [op]
  exact leave_last only _

theorem step_executes (program : Program) {f : Frame} {below : List Frame} (frames : t.frames = f :: below) :
    (∃ cause, (step program t).2 = some (.fault cause)) ∨
      ∃ i, program.fetch f.pc = .ok i ∧ step program t = execute t f i := by
  simp only [step, frames]
  cases fetched : program.fetch f.pc with
  | error e => exact Or.inl ⟨e, rfl⟩
  | ok i => exact Or.inr ⟨i, rfl, rfl⟩

end Abstract

/-! Runs. -/

section Runs

variable {M L : Type} {step : M → M × Option Halt} {start : M}

/-- A run that has stopped is where it is, whatever the budget. -/
theorem runFor_stays {n m : Nat} {last : M} {halt : Halt} (stopped : runFor step n start = (last, some halt))
    (more : n ≤ m) : runFor step m start = (last, some halt) := by
  obtain ⟨extra, rfl⟩ := Nat.exists_eq_add_of_le more
  rw [runFor_add, stopped]

/-- A run that has stopped was stopped by a step. -/
theorem runFor_stopped {n : Nat} {last : M} {halt : Halt} (stopped : runFor step n start = (last, some halt)) :
    ∃ k < n, ∃ before, runFor step k start = (before, none) ∧ step before = (last, some halt) := by
  induction n with
  | zero => cases stopped
  | succ n ih =>
    rcases runFor_last stopped with ⟨before, reached, moved⟩ | earlier
    · exact ⟨n, Nat.lt_succ_self n, before, reached, moved⟩
    · obtain ⟨k, within, found⟩ := ih earlier
      exact ⟨k, Nat.lt_succ_of_lt within, found⟩

/-- A run goes on exactly if none of its steps stops it. -/
theorem runFor_running_iff {n : Nat} :
    (runFor step n start).2 = none ↔ ∀ k < n, ∀ m, runFor step k start = (m, none) → (step m).2 = none := by
  rcases ran : runFor step n start with ⟨last, _ | halt⟩
  · refine iff_of_true rfl fun k within m reached => ?_
    -- A step that stops the run stops it for all larger budgets, this one included.
    by_contra halts
    obtain ⟨halt, stops⟩ := Option.ne_none_iff_exists'.mp halts
    have next : runFor step (k + 1) start = ((step m).1, some halt) := by
      rw [runFor_succ, reached, ← stops]
    have stays := runFor_stays next within
    rw [ran] at stays
    cases stays
  · refine iff_of_false (by simp) fun running => ?_
    obtain ⟨k, within, before, reached, moved⟩ := runFor_stopped ran
    have none := running k within before reached
    rw [moved] at none
    cases none

/-- A machine that is still running has a single frame, if each step keeps it so. -/
theorem runFor_single {state : M → State L} {outcomes : List Query} (first : ∃ f, (state start).frames = [f])
    (steps : ∀ m f, (state m).frames = [f] → Proceeds outcomes (state (step m).1, (step m).2)) {k : Nat} {m : M}
    (reached : runFor step k start = (m, none)) : ∃ f, (state m).frames = [f] := by
  induction k generalizing m with
  | zero =>
    cases reached
    exact first
  | succ k ih =>
    rcases runFor_last reached with ⟨before, earlier, moved⟩ | stopped
    · obtain ⟨f, only⟩ := ih earlier
      have proceeds := steps before f only
      rw [moved] at proceeds
      exact proceeds
    · exact ih stopped

structure BoundedRuns (program : Program) (step : M → M × Option Halt) (state : M → State L) (start : M) : Prop where
  /-- A run meets a fault or has one of six results. -/
  named : ∀ n, (∃ cause, Halt.outcome (runFor step n start).2 = .error cause) ∨
    ∃ result, Halt.outcome (runFor step n start).2 = .ok result ∧
      result.name ∈ ["*", "assertion error", "divide by zero", "null pointer", "ok", "out of bounds"]
  /-- The result is open exactly if none of the steps stopped the run. -/
  unresolved_iff : ∀ n, Halt.outcome (runFor step n start).2 = .ok .unresolved ↔
    ∀ k < n, ∀ m, runFor step k start = (m, none) → (step m).2 = none
  /-- Any other result is that of all larger budgets. -/
  result_stays : ∀ n m, n ≤ m → ∀ result, result ≠ .unresolved →
    Halt.outcome (runFor step n start).2 = .ok result → Halt.outcome (runFor step m start).2 = .ok result
  /-- A fault is that of all larger budgets. -/
  fault_stays : ∀ n m, n ≤ m → ∀ cause,
    Halt.outcome (runFor step n start).2 = .error cause → Halt.outcome (runFor step m start).2 = .error cause
  /-- As long as the machine runs it has one frame. -/
  single_frame : ∀ k m, runFor step k start = (m, none) → ∃ f, (state m).frames = [f]
  /-- A return that is reached meets a fault or ends the run well. -/
  return_ends : ∀ k m f i type, runFor step k start = (m, none) → (state m).frames = [f] →
    program.fetch f.pc = .ok i → i.operation = .return type →
      (∃ cause, (step m).2 = some (.fault cause)) ∨ (step m).2 = some (.ended .ok)

theorem Query.name_mem (q : Query) :
    q.name ∈ ["*", "assertion error", "divide by zero", "null pointer", "ok", "out of bounds"] := by
  cases q <;> decide

private theorem outcome_eq_ok {halt : Option Halt} {result : Query} (settled : result ≠ .unresolved)
    (ended : Halt.outcome halt = .ok result) : halt = some (.ended result) := by
  rcases halt with _ | outcome | cause
  · cases ended
    exact (settled rfl).elim
  · cases ended
    rfl
  · cases ended

private theorem outcome_eq_error {halt : Option Halt} {cause : Fault} (failed : Halt.outcome halt = .error cause) :
    halt = some (.fault cause) := by
  rcases halt with _ | outcome | cause
  · cases failed
  · cases failed
  · cases failed
    rfl

/-- Runs are settled by what single steps do on a single frame. -/
theorem BoundedRuns.of_steps {program : Program} {state : M → State L} {outcomes : List Query}
    (definite : .unresolved ∉ outcomes) (first : ∃ f, (state start).frames = [f])
    (steps : ∀ m f, (state m).frames = [f] → Proceeds outcomes (state (step m).1, (step m).2))
    (returns : ∀ m f i type, (state m).frames = [f] → program.fetch f.pc = .ok i → i.operation = .return type →
      (∃ cause, (step m).2 = some (.fault cause)) ∨ (step m).2 = some (.ended .ok)) :
    BoundedRuns program step state start where
  named n := by
    cases ended : Halt.outcome (runFor step n start).2 with
    | error cause => exact Or.inl ⟨cause, rfl⟩
    | ok result => exact Or.inr ⟨result, rfl, result.name_mem⟩
  unresolved_iff n := by
    rw [← runFor_running_iff]
    rcases ran : runFor step n start with ⟨last, _ | outcome | cause⟩
    · exact iff_of_true rfl rfl
    · refine iff_of_false ?_ (by simp)
      rintro ⟨⟩
      -- No step ends a run with the result left open.
      obtain ⟨k, -, before, reached, moved⟩ := runFor_stopped ran
      obtain ⟨f, only⟩ := runFor_single first steps reached
      have proceeds := steps before f only
      rw [moved] at proceeds
      exact definite proceeds
    · exact iff_of_false (by rintro ⟨⟩) (by simp)
  result_stays n m more result settled ended := by
    rcases ran : runFor step n start with ⟨last, halt⟩
    rw [ran] at ended
    obtain rfl := outcome_eq_ok settled ended
    rw [runFor_stays ran more]
    rfl
  fault_stays n m more cause failed := by
    rcases ran : runFor step n start with ⟨last, halt⟩
    rw [ran] at failed
    obtain rfl := outcome_eq_error failed
    rw [runFor_stays ran more]
    rfl
  single_frame k m reached := runFor_single first steps reached
  return_ends _ m f i type _ only fetched op := returns m f i type only fetched op

end Runs

/-- Whatever a method is called with, and whoever watches, the machine on texts and the machine on signs
both have bounded runs that settle: a result or a fault comes with some budget and stays, and until then
there is one frame. -/
theorem bounded_runs_settle (program : Program) (method : AbsMethodId) (args : List Value) (arrays : ArrayStore) :
    (∀ locate coverage, BoundedRuns program (Concrete.step program locate) Concrete.Watched.state
      ⟨.ofCall method args arrays, coverage⟩) ∧
    BoundedRuns program (Abstract.step program) (fun t => t) (.ofCall method args arrays) := by
  have onTexts : .unresolved ∉ .ok :: Concrete.failures := by decide
  have onSigns : .unresolved ∉ .ok :: Abstract.failures := by decide
  refine ⟨fun locate coverage => ?_, ?_⟩
  · refine .of_steps onTexts ⟨_, rfl⟩ ?_ ?_
    · intro w f only
      rcases Concrete.step_executes program locate only with ⟨cause, stopped⟩ | ⟨i, -, state, halt⟩
      · rw [stopped]
        trivial
      · rw [state, halt]
        exact Concrete.execute_proceeds w.state only i
    · intro w f i type only fetched op
      rcases Concrete.step_executes program locate only with stopped | ⟨j, found, -, halt⟩
      · exact Or.inl stopped
      · rw [fetched] at found
        cases found
        rw [halt]
        exact (Concrete.execute_return w.state only op).symm
  · refine .of_steps onSigns ⟨_, rfl⟩ ?_ ?_
    · intro t f only
      rcases Abstract.step_executes t program only with ⟨cause, stopped⟩ | ⟨i, -, executed⟩
      · rw [stopped]
        trivial
      · rw [executed]
        exact Abstract.execute_proceeds t only i
    · intro t f i type only fetched op
      rcases Abstract.step_executes t program only with stopped | ⟨j, found, executed⟩
      · exact Or.inl stopped
      · rw [fetched] at found
        cases found
        rw [executed]
        exact Or.inr (Abstract.execute_return t only op)

def returnedConstant : Call where
  program.code := fun _ => .ok #[⟨.int 0, .push (.int 7)⟩, ⟨.int 1, .return (some .int)⟩]
  locate := fun _ _ => 0
  method := ⟨⟨"Sample"⟩, ⟨"run", [], some .int⟩⟩
  args := []
  arrays := {}

theorem returnedConstant_settles :
    Halt.outcome (returnedConstant.onSigns 1).2 = .ok .unresolved ∧
      Halt.outcome (returnedConstant.onSigns 2).2 = .ok .ok ∧
      ∀ budget, 2 ≤ budget → Halt.outcome (returnedConstant.onSigns budget).2 = .ok .ok := by
  have settles := (bounded_runs_settle returnedConstant.program returnedConstant.method [] {}).2
  have ended : Halt.outcome (returnedConstant.onSigns 2).2 = .ok .ok := rfl
  exact ⟨rfl, ended, fun budget more => settles.result_stays 2 budget more .ok (by decide) ended⟩

end BytecodeBench
