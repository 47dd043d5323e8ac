import BytecodeBench.Proofs.Integers
import BytecodeBench.Proofs.Lockstep
import BytecodeBench.Proofs.Watching
import Mathlib.Algebra.Group.Int.Defs
import Mathlib.Algebra.Group.Nat.Defs

/-! Code on integers against machine words of 32 bits. On words, results wrap around and quotients are
rounded toward zero; the machine on texts has integers without bounds and rounds quotients down. The two
are in the same state as long as every result is exact. -/

namespace BytecodeBench

abbrev Word := BitVec 32

def FitsWord (n : Int) : Prop := -2 ^ 31 ≤ n ∧ n < 2 ^ 31
  deriving Decidable

inductive Comparison
  | eq
  | ne
  | lt
  | ge
  | gt
  | le

namespace Comparison

def ofName? : String → Option Comparison
  | "eq" => some eq
  | "ne" => some ne
  | "lt" => some lt
  | "ge" => some ge
  | "gt" => some gt
  | "le" => some le
  | _ => none

def holds (c : Comparison) (a b : Word) : Bool :=
  match c with
  | eq => a == b
  | ne => a != b
  | lt => a.slt b
  | ge => b.sle a
  | gt => b.slt a
  | le => a.sle b

end Comparison

namespace Operator

def onWords : Operator → Word → Word → Except Halt Word
  | add, a, b => .ok (a + b)
  | sub, a, b => .ok (a - b)
  | mul, a, b => .ok (a * b)
  | div, a, b => if b = 0 then .error (.ended .divideByZero) else .ok (a.sdiv b)
  | rem, a, b => if b = 0 then .error (.ended .divideByZero) else .ok (a.srem b)

/-- The result of an operator on integers without bounds; quotients are rounded down. -/
def onIntegers : Operator → Int → Int → Int
  | add, a, b => a + b
  | sub, a, b => a - b
  | mul, a, b => a * b
  | div, a, b => a.fdiv b
  | rem, a, b => a.fmod b

/-- A result is exact if a word can stand for it and a quotient that is not whole is not negative. -/
def Exact : Operator → Int → Int → Prop
  | add, a, b => FitsWord (a + b)
  | sub, a, b => FitsWord (a - b)
  | mul, a, b => FitsWord (a * b)
  | div, a, b => b = 0 ∨ FitsWord (a.fdiv b) ∧ (b ∣ a ∨ 0 ≤ a * b)
  | rem, _, _ => True

end Operator

def Frame.HoldsWords (f : Frame) : Prop :=
  (∀ slot ∈ f.stack, ∃ n, slot = .int n ∧ FitsWord n) ∧ ∀ row ∈ f.locals, ∃ n, row.2 = .int n ∧ FitsWord n

/-- Instructions on integers, with constants that a word can stand for. -/
def Operation.OnIntegers : Operation → Prop
  | .push v => ∃ n, v = .int n ∧ FitsWord n
  | .load .. | .store .. | .pop | .goto _ => True
  | .dup words => words.toInt = 1
  | .increment _ amount => FitsWord amount.toInt
  | .binary type operator => type = .int ∧ operator ≠ .rem
  | .compareJump condition _ | .zeroJump condition _ => (Comparison.ofName? condition).isSome
  | .return type => type = none ∨ type = some .int
  | _ => False

structure WordFrame where
  locals : Table Operand Word
  stack : List Word
  pc : PC

namespace WordFrame

/-- The frame of a call: arguments are the first local variables. -/
def ofCall (method : AbsMethodId) (args : List Int) : WordFrame where
  locals := args.zipIdx.map fun (n, i) => (.number i, .ofInt 32 n)
  stack := []
  pc := ⟨method, .number 0⟩

def proceed (w : WordFrame) (stack : List Word) : WordFrame := { w with stack, pc := w.pc.next }

def branch (w : WordFrame) (stack : List Word) (target : Operand) (taken : Bool) : WordFrame :=
  if taken then { w with stack, pc := ⟨w.pc.method, target⟩ } else w.proceed stack

def effect (w : WordFrame) (operation : Operation) : Except Halt WordFrame :=
  match operation, w.stack with
  | .push ⟨_, .int n⟩, stack => .ok (w.proceed (.ofInt 32 n :: stack))
  | .load _ index, stack =>
    match w.locals.find? index with
    | some x => .ok (w.proceed (x :: stack))
    | none => .error (.fault (.missingKey index.display))
  | .store _ index, x :: rest => .ok { w.proceed rest with locals := w.locals.insert index x }
  | .dup _, x :: rest => .ok (w.proceed (x :: x :: rest))
  | .pop, _ :: rest => .ok (w.proceed rest)
  | .increment index amount, stack =>
    let sum := (w.locals.find? index).getD 0 + .ofInt 32 amount.toInt
    .ok { w.proceed stack with locals := w.locals.insert index sum }
  | .binary .int operator, b :: a :: rest =>
    (operator.onWords a b).map fun result => w.proceed (result :: rest)
  | .compareJump condition target, b :: a :: rest =>
    .ok (w.branch rest target ((Comparison.ofName? condition).any (·.holds a b)))
  | .zeroJump condition target, a :: rest =>
    .ok (w.branch rest target ((Comparison.ofName? condition).any (·.holds a 0)))
  | .goto target, stack => .ok (w.branch stack target true)
  | .return none, _ => .error (.ended .ok)
  | .return (some .int), _ :: _ => .error (.ended .ok)
  | _, _ => .error (.fault .badIndex)

def step (program : Program) (w : WordFrame) : WordFrame × Option Halt :=
  match program.fetch w.pc with
  | .error e => (w, some (.fault e))
  | .ok i =>
    match w.effect i.operation with
    | .ok after => (after, none)
    | .error halt => (w, some halt)

def slots (words : List Word) : List Slot := words.map fun x => .int x.toInt

def frame (w : WordFrame) : Frame where
  locals := w.locals.mapValues fun x => .int x.toInt
  stack := slots w.stack
  pc := w.pc

def Exact (w : WordFrame) : Operation → Prop
  | .increment index amount => FitsWord (((w.locals.find? index).getD 0).toInt + amount.toInt)
  | .binary _ operator => ∀ b a rest, w.stack = b :: a :: rest → operator.Exact a.toInt b.toInt
  | _ => True

def ExactNext (program : Program) (w : WordFrame) : Prop :=
  ∀ i, program.fetch w.pc = .ok i → w.Exact i.operation

end WordFrame

/-! Words as integers. -/

theorem bmod_eq_self {n : Int} : n.bmod (2 ^ 32) = n ↔ FitsWord n := by
  unfold FitsWord
  rw [Int.bmod_eq_iff (by decide)]
  constructor
  · rintro ⟨low, high, -⟩
    omega
  · intro fits
    exact ⟨by omega, by omega, by simp⟩

private theorem toInt_fits (x : Word) : FitsWord x.toInt := ⟨x.le_toInt, x.toInt_lt⟩

theorem toInt_ofInt {n : Int} (fits : FitsWord n) : (BitVec.ofInt 32 n).toInt = n := by
  rw [BitVec.toInt_ofInt, bmod_eq_self.mpr fits]

/-- Rounding down and rounding toward zero differ where the exact quotient is negative and not whole. -/
theorem fdiv_eq_tdiv_sub {a b : Int} (nonzero : b ≠ 0) :
    a.fdiv b = a.tdiv b - if b ∣ a ∨ 0 ≤ a * b then 0 else 1 := by
  rw [Int.fdiv_eq_tdiv]
  by_cases whole : b ∣ a
  · simp [whole]
  · have apart : a ≠ 0 := by
      rintro rfl
      exact whole (Int.dvd_zero b)
    rcases Int.lt_or_gt_of_ne nonzero with negative | positive
    · by_cases upper : 0 ≤ a
      · have below : ¬ 0 ≤ a * b := Int.not_le.mpr (Int.mul_neg_of_pos_of_neg (by omega) negative)
        simp [whole, upper, below, Int.not_le.mpr negative]
      · have above : 0 ≤ a * b := Int.mul_nonneg_of_nonpos_of_nonpos (by omega) (by omega)
        simp [whole, upper, above, Int.not_le.mpr negative, Int.sign_eq_neg_one_of_neg negative]
    · by_cases upper : 0 ≤ a
      · have above : 0 ≤ a * b := Int.mul_nonneg upper (by omega)
        simp [whole, upper, above, Int.le_of_lt positive]
      · have below : ¬ 0 ≤ a * b := Int.not_le.mpr (Int.mul_neg_of_neg_of_pos (by omega) positive)
        simp [whole, upper, below, Int.le_of_lt positive, Int.sign_eq_one_of_pos positive]

private theorem fdiv_eq_bmod_tdiv {a b : Int} (nonzero : b ≠ 0) :
    a.fdiv b = (a.tdiv b).bmod (2 ^ 32) ↔ FitsWord (a.fdiv b) ∧ (b ∣ a ∨ 0 ≤ a * b) := by
  have rounded := @fdiv_eq_tdiv_sub a b nonzero
  constructor
  · intro same
    obtain ⟨low, high, wraps⟩ := (Int.bmod_eq_iff (by decide)).mp same.symm
    refine ⟨⟨by omega, by omega⟩, ?_⟩
    by_cases exact : b ∣ a ∨ 0 ≤ a * b
    · exact exact
    · rw [if_neg exact] at rounded
      omega
  · rintro ⟨fits, exact⟩
    rw [if_pos exact, Int.sub_zero] at rounded
    rw [← rounded, bmod_eq_self.mpr fits]

theorem Operator.onWords_eq {operator : Operator} (known : operator ≠ .rem) (a b : Word)
    (divides : operator = .div → b ≠ 0) :
    ∃ r, operator.onWords a b = .ok r ∧
      (operator.onIntegers a.toInt b.toInt = r.toInt ↔ operator.Exact a.toInt b.toInt) := by
  cases operator with
  | add => exact ⟨a + b, rfl, by rw [BitVec.toInt_add, eq_comm]; exact bmod_eq_self⟩
  | sub => exact ⟨a - b, rfl, by rw [BitVec.toInt_sub, eq_comm]; exact bmod_eq_self⟩
  | mul => exact ⟨a * b, rfl, by rw [BitVec.toInt_mul, eq_comm]; exact bmod_eq_self⟩
  | div =>
    have nonzero : b ≠ 0 := divides rfl
    have other : b.toInt ≠ 0 := fun zero => nonzero (BitVec.toInt_inj.mp zero)
    refine ⟨a.sdiv b, if_neg nonzero, ?_⟩
    rw [BitVec.toInt_sdiv]
    simp only [onIntegers, Exact, other, false_or]
    exact fdiv_eq_bmod_tdiv other
  | rem => exact (known rfl).elim

/-- Words compare as the integers that they stand for. -/
theorem Comparison.holds_toInt (c : Comparison) (a b : Word) :
    c.holds a b =
      match c with
      | .eq => decide (a.toInt = b.toInt)
      | .ne => !decide (a.toInt = b.toInt)
      | .lt => decide (a.toInt < b.toInt)
      | .ge => decide (b.toInt ≤ a.toInt)
      | .gt => decide (b.toInt < a.toInt)
      | .le => decide (a.toInt ≤ b.toInt) := by
  have same : (a == b) = decide (a.toInt = b.toInt) := by
    rw [Bool.eq_iff_iff, beq_iff_eq, decide_eq_true_eq, BitVec.toInt_inj]
  cases c <;> simp only [holds, bne, same, BitVec.slt_eq_decide, BitVec.sle_eq_decide]

theorem Comparison.pairCondition_eq {condition : String} {c : Comparison} (known : ofName? condition = some c)
    (a b : Word) : State.pairCondition condition (.int a.toInt) (.int b.toInt) = .ok (c.holds a b) := by
  rw [holds_toInt]
  unfold ofName? at known
  split at known <;> cases known <;>
    simp [State.pairCondition, Datum.same_int, Datum.relate_int, Relation.holds_compare]

theorem Comparison.zeroCondition_eq {condition : String} {c : Comparison} (known : ofName? condition = some c)
    (a : Word) : State.zeroCondition condition (.int a.toInt) = .ok (c.holds a 0) := by
  rw [holds_toInt]
  unfold ofName? at known
  split at known <;> cases known <;>
    simp [State.zeroCondition, Datum.same_int, Datum.relate_int, Relation.holds_compare]

namespace Concrete

variable {s : State String} {f : Frame} {i : Instruction} {rest : List Slot} {x y : Int}

private theorem divide_integers (nonzero : y ≠ 0) : divide s (.int x) (.int y) = .ok (.int (x.fdiv y)) := by
  have other : (Datum.int y).same (.int 0) = false := by
    rw [Datum.same_int]
    exact decide_eq_false nonzero
  change (if (Datum.int y).same (.int 0) then _ else _) = _
  rw [other]
  rfl

theorem effect_onIntegers {operator : Operator} (op : i.operation = .binary .int operator) (known : operator ≠ .rem)
    (stack : f.stack = .int y :: .int x :: rest) :
    effect s f i =
      if operator = .div ∧ y = 0 then .error (.ended .divideByZero)
      else .ok (s.proceedWith f (.int (operator.onIntegers x y) :: rest)) := by
  cases operator with
  | add => rw [effect_binary op stack rfl]; rfl
  | sub => rw [effect_binary op stack rfl]; rfl
  | mul => rw [effect_binary op stack rfl]; rfl
  | div =>
    rw [effect_divide op stack]
    by_cases zero : y = 0
    · subst zero
      rfl
    · rw [divide_integers zero, if_neg fun both => zero both.2]
      rfl
  | rem => exact (known rfl).elim

theorem pairJump_words {condition : String} {c : Comparison} (known : Comparison.ofName? condition = some c)
    (a b : Word) : pairJump s condition (.int a.toInt) (.int b.toInt) = .ok (c.holds a b) := by
  have numeric : condition ≠ "is" := by
    rintro rfl
    cases known
  change (if condition = "is" then _ else _) = _
  rw [if_neg numeric]
  change (liftM (State.pairCondition condition (.int a.toInt) (.int b.toInt)) : Except Halt Bool) = _
  rw [Comparison.pairCondition_eq known]
  rfl

theorem zeroJump_words {condition : String} {c : Comparison} (known : Comparison.ofName? condition = some c)
    (a : Word) : zeroJump s condition (.int a.toInt) = .ok (c.holds a 0) := by
  rw [Slot.int, zeroJump_integer rfl, Comparison.zeroCondition_eq known]
  rfl

end Concrete

/-! One instruction. -/

namespace WordFrame

variable {w : WordFrame} {s : State String} {i : Instruction}

def Shows (w : WordFrame) (s : State String) : Prop := s.frames = [w.frame]

theorem frame_stack {x : Word} {rest : List Word} (stack : w.stack = x :: rest) :
    w.frame.stack = .int x.toInt :: slots rest := by
  simp only [frame, stack]
  rfl

theorem shows_proceed (shows : w.Shows s) (stack : List Word) :
    (w.proceed stack).Shows (s.proceedWith w.frame (slots stack)) := by
  unfold Shows at shows ⊢
  simp [State.proceedWith, State.proceed, State.withTop, shows, frame, proceed]

theorem shows_branch (shows : w.Shows s) (stack : List Word) (target : Operand) (taken : Bool) :
    (w.branch stack target taken).Shows (s.branch w.frame (slots stack) target taken) := by
  cases taken with
  | false => exact shows_proceed shows stack
  | true =>
    unfold Shows at shows ⊢
    simp [State.branch, State.withTop, shows, frame, branch]

/-- An integer is shown by a word exactly if the word stands for it. -/
theorem shows_result (shows : w.Shows s) (n : Int) (x : Word) (rest : List Word) :
    (w.proceed (x :: rest)).Shows (s.proceedWith w.frame (.int n :: slots rest)) ↔ n = x.toInt := by
  unfold Shows at shows ⊢
  simp [State.proceedWith, State.proceed, State.withTop, shows, frame, proceed, slots, Slot.int, Value.int]

private theorem shows_update (shows : w.Shows s) (stack : List Word) (index : Operand) (n : Int) (x : Word) :
    { w.proceed stack with locals := w.locals.insert index x }.Shows
      (s.proceed { w.frame with stack := slots stack, locals := w.frame.locals.insert index (.int n) }) ↔
      n = x.toInt := by
  have written : (w.locals.insert index x).mapValues (fun x => Slot.int x.toInt) =
      w.frame.locals.insert index (.int x.toInt) :=
    (Table.insert_mapValues (fun x : Word => Slot.int x.toInt) index x w.locals).symm
  unfold Shows at shows ⊢
  simp only [State.proceed, State.withTop, shows, List.drop_succ_cons, List.drop_zero, List.cons.injEq, and_true]
  simp only [frame, proceed, Frame.mk.injEq, and_true] at written ⊢
  rw [written]
  constructor
  · intro same
    have found := congrArg (Table.find? index) same
    simp only [Table.find?_insert_self, Option.some.injEq, Slot.int, Slot.value.injEq, Value.int, Value.mk.injEq,
      Datum.int.injEq, true_and] at found
    exact found
  · rintro rfl
    rfl

private theorem find?_frame (w : WordFrame) (index : Operand) :
    w.frame.locals.find? index = (w.locals.find? index).map fun x => .int x.toInt :=
  Table.find?_mapValues (fun x : Word => Slot.int x.toInt) index w.locals

private theorem increment_eq (w : WordFrame) (s : State String) (index amount : Operand) :
    s.increment w.frame index amount =
      .ok (s.proceed { w.frame with
        locals := w.frame.locals.insert index (.int (((w.locals.find? index).getD 0).toInt + amount.toInt)) }) := by
  have before : (w.frame.locals.find? index).getD (.int 0) = .int ((w.locals.find? index).getD 0).toInt := by
    rw [find?_frame]
    cases w.locals.find? index <;> rfl
  have counted : amount.datum.integer? = some amount.toInt := by cases amount <;> rfl
  have sum (x : Int) : Datum.add (.int x) amount.datum = .ok (.int (x + amount.toInt)) := by
    have left : (Datum.int x).integer? = some x := rfl
    rw [← Datum.onNumbers_integer (· + ·) (· + ·) left counted]
    rfl
  unfold State.increment
  simp only [before]
  change (liftM (Datum.add (.int _) amount.datum) >>= fun sum => _ : Except Halt _) = _
  rw [sum]
  rfl

theorem effect_short {operation : Operation} (op : i.operation = operation) (few : w.stack.length < Concrete.arity operation) :
    Concrete.effect s w.frame i = .error (.fault .badIndex) := by
  apply Concrete.effect_short
  rw [op]
  simpa [frame, slots] using few

private theorem binary_matches (shows : w.Shows s) {operator : Operator} (op : i.operation = .binary .int operator)
    (known : operator ≠ .rem) :
    Matches Shows (w.effect (.binary .int operator)) (Concrete.effect s w.frame i) ↔ w.Exact (.binary .int operator) := by
  have two : Concrete.arity (.binary .int operator) = 2 := by
    cases operator with
    | rem => exact (known rfl).elim
    | _ => rfl
  match stack : w.stack with
  | [] | [_] =>
    rw [effect_short op (by simp [stack, two])]
    simp [effect, stack, Matches, Exact]
  | b :: a :: rest =>
    rw [Concrete.effect_onIntegers op known (frame_stack stack)]
    simp only [effect, stack, Exact, List.cons.injEq]
    by_cases zero : operator = .div ∧ b.toInt = 0
    · obtain ⟨rfl, zero⟩ := zero
      obtain rfl : b = 0 := BitVec.toInt_inj.mp zero
      simp [Operator.onWords, Operator.Exact, Matches, Except.map]
    · obtain ⟨r, done, exact⟩ := Operator.onWords_eq known a b (by
        rintro rfl rfl
        exact zero ⟨rfl, rfl⟩)
      rw [if_neg zero, done]
      refine (shows_result shows _ r rest).trans (exact.trans ?_)
      constructor
      · rintro exact b a rest ⟨rfl, rfl, rfl⟩
        exact exact
      · intro exact
        exact exact b a rest ⟨rfl, rfl, rfl⟩

private theorem effect_matches (shows : w.Shows s) (allowed : i.operation.OnIntegers)
    (going : ∀ type, i.operation ≠ .return type) :
    Matches Shows (w.effect i.operation) (Concrete.effect s w.frame i) ↔ w.Exact i.operation := by
  cases op : i.operation with
  | push v =>
    rw [op] at allowed
    obtain ⟨n, rfl, fits⟩ := allowed
    rw [Concrete.effect_push op, State.pushConstant_value (by simp [Value.int])]
    exact iff_of_true ((shows_result shows n _ w.stack).mpr (toInt_ofInt fits).symm) trivial
  | load type index =>
    rw [Concrete.effect_load op]
    unfold State.load
    rw [find?_frame]
    cases found : w.locals.find? index with
    | none => simp [effect, found, Matches, Exact]
    | some x =>
      simp only [effect, found]
      exact iff_of_true (shows_proceed shows (x :: w.stack)) trivial
  | store type index =>
    rw [Concrete.effect_store op]
    unfold State.store
    cases stack : w.stack with
    | nil => simp [effect, stack, frame, slots, Matches, Exact]
    | cons x rest =>
      rw [frame_stack stack]
      simp only [effect, stack]
      exact iff_of_true ((shows_update shows rest index x.toInt x).mpr rfl) trivial
  | dup words =>
    rw [Concrete.effect_dup op]
    unfold State.duplicate
    cases stack : w.stack with
    | nil => simp [effect, stack, frame, slots, Matches, Exact]
    | cons x rest =>
      rw [frame_stack stack]
      simp only [effect, stack]
      exact iff_of_true (shows_proceed shows (x :: x :: rest)) trivial
  | pop =>
    rw [Concrete.effect_pop op]
    unfold State.pop
    cases stack : w.stack with
    | nil => simp [effect, stack, frame, slots, Matches, Exact]
    | cons x rest =>
      rw [frame_stack stack]
      simp only [effect, stack]
      exact iff_of_true (shows_proceed shows rest) trivial
  | goto target =>
    rw [Concrete.effect_goto op]
    exact iff_of_true (shows_branch shows w.stack target true) trivial
  | increment index amount =>
    rw [op] at allowed
    rw [Concrete.effect_increment op, increment_eq]
    refine (shows_update shows w.stack index _ _).trans ?_
    rw [BitVec.toInt_add, toInt_ofInt allowed, eq_comm]
    exact bmod_eq_self
  | binary type operator =>
    rw [op] at allowed
    obtain ⟨rfl, known⟩ := allowed
    exact binary_matches shows op known
  | compareJump condition target =>
    rw [op] at allowed
    obtain ⟨c, known⟩ := Option.isSome_iff_exists.mp allowed
    rcases stack : w.stack with _ | ⟨b, _ | ⟨a, rest⟩⟩
    case nil | cons.nil =>
      rw [effect_short op (by simp [stack, Concrete.arity])]
      simp [effect, stack, Matches, Exact]
    case cons.cons =>
      rw [Concrete.effect_compareJump op (frame_stack stack), Concrete.pairJump_words known]
      simp only [effect, stack, known]
      exact iff_of_true (shows_branch shows rest target _) trivial
  | zeroJump condition target =>
    rw [op] at allowed
    obtain ⟨c, known⟩ := Option.isSome_iff_exists.mp allowed
    cases stack : w.stack with
    | nil =>
      rw [effect_short op (by simp [stack, Concrete.arity])]
      simp [effect, stack, Matches, Exact]
    | cons a rest =>
      rw [Concrete.effect_zeroJump op (frame_stack stack), Concrete.zeroJump_words known]
      simp only [effect, stack, known]
      exact iff_of_true (shows_branch shows rest target _) trivial
  | «return» type => exact (going type op).elim
  | _ =>
    rw [op] at allowed
    exact allowed.elim

/-! Steps and runs. -/

def ShownBy (w : WordFrame) (v : Concrete.Watched) : Prop := w.Shows v.state ∧ v.coverage = none

private theorem return_agrees (shows : w.Shows s) {type : Option JvmType} (op : i.operation = .return type)
    (allowed : i.operation.OnIntegers) :
    ∃ halt, w.effect i.operation = .error halt ∧ (Concrete.execute s w.frame i).2 = some halt := by
  have last (result : List Slot) : (s.leave result).2 = some (.ended .ok) := by
    unfold Shows at shows
    simp [State.leave, shows]
  rw [op] at allowed ⊢
  unfold Concrete.execute
  rcases allowed with rfl | rfl
  · exact ⟨_, rfl, by simp only [op]; exact last []⟩
  · cases stack : w.stack with
    | nil =>
      refine ⟨.fault .badIndex, by simp [effect, stack], ?_⟩
      have few : w.frame.stack = [] := by simp [frame, slots, stack]
      rw [effect_short op (by simp [stack, Concrete.arity])]
      simp [op, few]
    | cons x rest =>
      refine ⟨.ended .ok, by simp [effect, stack], ?_⟩
      simp only [op, frame_stack stack]
      exact last [.int x.toInt]

theorem step_agrees_iff {program : Program} (locate : Concrete.Locate) (built : program.BuiltFrom Operation.OnIntegers)
    {v : Concrete.Watched} (shown : w.ShownBy v) :
    Agrees ShownBy (w.step program) (Concrete.step program locate v) ↔ w.ExactNext program := by
  obtain ⟨shows, plain⟩ := shown
  unfold ExactNext step
  cases fetched : program.fetch w.pc with
  | error e =>
    unfold Shows at shows
    have same : program.fetch w.frame.pc = .error e := fetched
    simp [Concrete.step, shows, same, Agrees]
  | ok i =>
    have allowed := built.fetch fetched
    rw [Concrete.step_plain plain shows fetched]
    simp only [Except.ok.injEq, forall_eq']
    -- A return is the one instruction that has no effect of its own: it stops both machines.
    by_cases returns : ∃ type, i.operation = .return type
    · obtain ⟨type, op⟩ := returns
      obtain ⟨halt, done, left⟩ := return_agrees shows op allowed
      rw [done, left, op]
      simp [Agrees, Exact]
    · have going : ∀ type, i.operation ≠ .return type := fun type op => returns ⟨type, op⟩
      rw [← effect_matches shows allowed going, Concrete.execute_effect going]
      cases w.effect i.operation <;> cases Concrete.effect v.state w.frame i <;>
        simp [Agrees, Matches, ShownBy]

theorem frame_holdsWords (w : WordFrame) : w.frame.HoldsWords := by
  constructor
  · intro slot member
    obtain ⟨x, -, rfl⟩ := List.mem_map.mp member
    exact ⟨x.toInt, rfl, toInt_fits x⟩
  · intro row member
    obtain ⟨⟨index, x⟩, -, rfl⟩ := List.mem_map.mp member
    exact ⟨x.toInt, rfl, toInt_fits x⟩

end WordFrame

namespace Call

def onWords (c : Call) (args : List Int) (k : Nat) : WordFrame × Option Halt :=
  runFor (WordFrame.step c.program) k (.ofCall c.method args)

theorem onWords_start (c : Call) {args : List Int} (given : c.args = args.map .int) (fits : ∀ n ∈ args, FitsWord n) :
    (WordFrame.ofCall c.method args).Shows (.ofCall c.method c.args c.arrays) := by
  have locals : (Frame.ofCall c.method c.args).locals = (WordFrame.ofCall c.method args).frame.locals := by
    simp only [Frame.ofCall, WordFrame.ofCall, WordFrame.frame, Table.mapValues, given, List.zipIdx_map, List.map_map]
    apply List.map_congr_left
    rintro ⟨n, i⟩ member
    have stands := toInt_ofInt (fits n (List.fst_mem_of_mem_zipIdx member))
    simp [Slot.int, stands]
  exact congrArg (fun locals => [Frame.mk locals [] ⟨c.method, .number 0⟩]) locals

/-- The machine on texts is in the state of a machine on words as long as every result is exact, and no
longer. Until then both end alike and all integers are ones that words can stand for. -/
theorem onTexts_iff_exact (c : Call) (args : List Int) (budget : Nat) (given : c.args = args.map .int)
    (fits : ∀ n ∈ args, FitsWord n) (built : c.program.BuiltFrom Operation.OnIntegers) :
    ((∀ k ≤ budget, Agrees WordFrame.ShownBy (c.onWords args k) (c.onTexts k)) ↔
      ∀ k < budget, ∀ w, c.onWords args k = (w, none) → w.ExactNext c.program) ∧
    ((∀ k < budget, ∀ w, c.onWords args k = (w, none) → w.ExactNext c.program) →
      Halt.outcome (c.onTexts budget).2 = Halt.outcome (c.onWords args budget).2 ∧
      ∀ k ≤ budget, ∀ v, c.onTexts k = (v, none) → ∀ f ∈ v.state.frames, f.HoldsWords) := by
  have first : (WordFrame.ofCall c.method args).ShownBy ⟨.ofCall c.method c.args c.arrays, none⟩ :=
    ⟨c.onWords_start given fits, rfl⟩
  have agrees : (∀ k ≤ budget, Agrees WordFrame.ShownBy (c.onWords args k) (c.onTexts k)) ↔
      ∀ k < budget, ∀ w, c.onWords args k = (w, none) → w.ExactNext c.program :=
    run_agrees_iff first fun w v shown => WordFrame.step_agrees_iff c.locate built shown
  refine ⟨agrees, fun exact => ⟨?_, ?_⟩⟩
  · obtain ⟨same, -⟩ := agrees.mpr exact budget (Nat.le_refl budget)
    rw [same]
  · intro k within v ran f member
    obtain ⟨same, shown⟩ := agrees.mpr exact k within
    rw [ran] at same shown
    obtain ⟨shows, -⟩ := shown same
    rw [show v.state.frames = _ from shows, List.mem_singleton] at member
    subst member
    exact WordFrame.frame_holdsWords _

/-- Adds one to its argument, and divides by zero unless the sum is negative. -/
def successor (n : Int) : Call where
  program.code := fun _ => .ok #[⟨.int 0, .load .int (.number 0)⟩, ⟨.int 1, .push (.int 1)⟩, ⟨.int 2, .binary .int .add⟩,
    ⟨.int 3, .zeroJump "lt" (.number 8)⟩, ⟨.int 4, .push (.int 1)⟩, ⟨.int 5, .push (.int 0)⟩,
    ⟨.int 6, .binary .int .div⟩, ⟨.int 7, .pop⟩, ⟨.int 8, .return none⟩]
  locate := fun _ _ => 0
  method := ⟨⟨"Sample"⟩, ⟨"run", [.int], none⟩⟩
  args := [.int n]
  arrays := {}

private theorem successor_onIntegers (n : Int) : (successor n).program.BuiltFrom Operation.OnIntegers := by
  rintro method code ⟨⟩ i member
  simp only [Array.mem_def, List.mem_cons, List.not_mem_nil, or_false] at member
  rcases member with rfl | rfl | rfl | rfl | rfl | rfl | rfl | rfl | rfl
  all_goals simp [Operation.OnIntegers, FitsWord, Comparison.ofName?, Value.int]

theorem successor_exact :
    (∀ n ∈ [2147483646], FitsWord n) ∧ (successor 2147483646).program.BuiltFrom Operation.OnIntegers ∧
    (∀ k < 7, ∀ w, (successor 2147483646).onWords [2147483646] k = (w, none) →
      w.ExactNext (successor 2147483646).program) ∧
    Halt.outcome ((successor 2147483646).onTexts 7).2 = Halt.outcome ((successor 2147483646).onWords [2147483646] 7).2 := by
  have fits : ∀ n ∈ [2147483646], FitsWord n := by decide
  have built := successor_onIntegers 2147483646
  obtain ⟨agrees, ends⟩ := (successor 2147483646).onTexts_iff_exact [2147483646] 7 rfl fits built
  have exact := agrees.mp fun k within => by
    rcases Nat.lt_or_eq_of_le within with running | rfl
    · have each : k = 0 ∨ k = 1 ∨ k = 2 ∨ k = 3 ∨ k = 4 ∨ k = 5 ∨ k = 6 := by omega
      rcases each with rfl | rfl | rfl | rfl | rfl | rfl | rfl <;> exact ⟨rfl, fun _ => ⟨rfl, rfl⟩⟩
    · exact ⟨rfl, fun running => (by cases running)⟩
  exact ⟨fits, built, exact, (ends exact).1⟩

/-- The sum of the largest integer and one is negative on words alone. -/
theorem successor_overflows :
    (∀ n ∈ [2147483647], FitsWord n) ∧ (successor 2147483647).program.BuiltFrom Operation.OnIntegers ∧
    Halt.outcome ((successor 2147483647).onWords [2147483647] 9).2 = .ok .ok ∧
    Halt.outcome ((successor 2147483647).onTexts 9).2 = .ok .divideByZero := by
  refine ⟨by decide, successor_onIntegers _, rfl, rfl⟩

end Call

end BytecodeBench
