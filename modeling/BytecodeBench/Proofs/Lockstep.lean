import BytecodeBench.Proofs.Effects
import BytecodeBench.Proofs.HeapGrowth
import BytecodeBench.Proofs.Programs
import BytecodeBench.Proofs.Runs
import Mathlib.Data.List.Forall2

/-! Two machines in lockstep: each has one frame, at the same place, and their slots correspond one to
one. Which slots correspond is a parameter. The effects that do not look into slots keep machines in
lockstep under every correspondence, and touch neither heap. -/

namespace BytecodeBench

variable {K L : Type} {alike : Slot → Slot → Prop} {s : State K} {t : State L} {f g : Frame}

abbrev LocalsAlike (alike : Slot → Slot → Prop) : Table Operand Slot → Table Operand Slot → Prop :=
  List.Forall₂ fun x y => x.1 = y.1 ∧ alike x.2 y.2

structure Twins (alike : Slot → Slot → Prop) (s : State K) (t : State L) (f g : Frame) : Prop where
  left : s.frames = [f]
  right : t.frames = [g]
  pc : f.pc = g.pc
  stack : List.Forall₂ alike f.stack g.stack
  locals : LocalsAlike alike f.locals g.locals
  arrays : s.arrays = t.arrays

/-- Both machines have moved, in lockstep, and neither heap has changed. -/
structure Moved (alike : Slot → Slot → Prop) (s : State K) (t : State L) (after : State K) (other : State L) :
    Prop where
  twins : ∃ f g, Twins alike after other f g
  left : after.memory = s.memory
  right : other.memory = t.memory

theorem LocalsAlike.find? {first second : Table Operand Slot} (locals : LocalsAlike alike first second)
    (index : Operand) :
    first.find? index = none ∧ second.find? index = none ∨
      ∃ x y, first.find? index = some x ∧ second.find? index = some y ∧ alike x y := by
  induction locals with
  | nil => exact Or.inl ⟨rfl, rfl⟩
  | @cons row other rest tail related _ ih =>
    obtain ⟨key, x⟩ := row
    obtain ⟨key', y⟩ := other
    obtain ⟨same, holds⟩ := related
    dsimp only at same holds
    subst same
    rw [Table.find?_cons, Table.find?_cons]
    by_cases found : index == key
    · simp only [found, ↓reduceIte]
      exact Or.inr ⟨x, y, rfl, rfl, holds⟩
    · simp only [found]
      exact ih

theorem LocalsAlike.insert {first second : Table Operand Slot} (locals : LocalsAlike alike first second)
    (index : Operand) {x y : Slot} (holds : alike x y) :
    LocalsAlike alike (first.insert index x) (second.insert index y) := by
  induction locals with
  | nil => exact .cons ⟨rfl, holds⟩ .nil
  | @cons row other rest tail related remaining ih =>
    obtain ⟨key, held⟩ := row
    obtain ⟨key', held'⟩ := other
    obtain ⟨same, corresponding⟩ := related
    dsimp only at same corresponding
    subst same
    simp only [Table.insert]
    split
    · exact .cons ⟨rfl, holds⟩ remaining
    · exact .cons ⟨rfl, corresponding⟩ ih

namespace Twins

/-- Lockstep depends on frames and arrays alone. -/
theorem sameFrames {after : State K} {other : State L} (twins : Twins alike s t f g)
    (left : after.frames = s.frames ∧ after.arrays = s.arrays)
    (right : other.frames = t.frames ∧ other.arrays = t.arrays) : Twins alike after other f g where
  left := left.1.trans twins.left
  right := right.1.trans twins.right
  pc := twins.pc
  stack := twins.stack
  locals := twins.locals
  arrays := by rw [left.2, right.2, twins.arrays]

theorem imp {weaker : Slot → Slot → Prop} (twins : Twins alike s t f g) (implies : ∀ x y, alike x y → weaker x y) :
    Twins weaker s t f g where
  left := twins.left
  right := twins.right
  pc := twins.pc
  stack := twins.stack.imp implies
  locals := twins.locals.imp fun _ _ related => ⟨related.1, implies _ _ related.2⟩
  arrays := twins.arrays

theorem withTop (twins : Twins alike s t f g) {after other : Frame} (pc : after.pc = other.pc)
    (stack : List.Forall₂ alike after.stack other.stack) (locals : LocalsAlike alike after.locals other.locals) :
    Moved alike s t (s.withTop after) (t.withTop other) := by
  refine ⟨⟨after, other, ?_, ?_, pc, stack, locals, twins.arrays⟩, rfl, rfl⟩
  · simp [State.withTop, twins.left]
  · simp [State.withTop, twins.right]

theorem proceedWith (twins : Twins alike s t f g) {stack other : List Slot} (related : List.Forall₂ alike stack other) :
    Moved alike s t (s.proceedWith f stack) (t.proceedWith g other) :=
  twins.withTop (congrArg PC.next twins.pc) related twins.locals

theorem proceed (twins : Twins alike s t f g) : Moved alike s t (s.proceed f) (t.proceed g) :=
  twins.proceedWith twins.stack

theorem push (twins : Twins alike s t f g) {x y : Slot} (holds : alike x y) :
    Moved alike s t (s.proceedWith f (x :: f.stack)) (t.proceedWith g (y :: g.stack)) :=
  twins.proceedWith (.cons holds twins.stack)

theorem branch (twins : Twins alike s t f g) {stack other : List Slot} (related : List.Forall₂ alike stack other)
    (target : Operand) (taken : Bool) :
    Moved alike s t (s.branch f stack target taken) (t.branch g other target taken) := by
  cases taken with
  | false => exact twins.proceedWith related
  | true => exact twins.withTop (congrArg (fun pc => PC.mk pc.method target) twins.pc) related twins.locals

/-- Where one machine has something on its stack, so has the other. -/
theorem top (twins : Twins alike s t f g) {x : Slot} {rest : List Slot} (left : f.stack = x :: rest) :
    ∃ y tail, alike x y ∧ List.Forall₂ alike rest tail ∧ g.stack = y :: tail := by
  have stack := twins.stack
  rw [left] at stack
  exact List.forall₂_cons_left_iff.mp stack

theorem pop (twins : Twins alike s t f g) : Refines (Moved alike s t) (s.pop f) (t.pop g) := by
  unfold State.pop
  cases left : f.stack with
  | nil => trivial
  | cons x rest =>
    obtain ⟨y, tail, -, related, right⟩ := twins.top left
    rw [right]
    exact .ok (twins.proceedWith related)

theorem load (twins : Twins alike s t f g) (index : Operand) :
    Refines (Moved alike s t) (s.load f index) (t.load g index) := by
  unfold State.load
  rcases twins.locals.find? index with ⟨left, -⟩ | ⟨x, y, left, right, holds⟩
  · rw [left]; trivial
  · rw [left, right]
    exact .ok (twins.push holds)

theorem store (twins : Twins alike s t f g) (index : Operand) :
    Refines (Moved alike s t) (s.store f index) (t.store g index) := by
  unfold State.store
  cases left : f.stack with
  | nil => trivial
  | cons x rest =>
    obtain ⟨y, tail, holds, related, right⟩ := twins.top left
    rw [right]
    exact .ok (twins.withTop (congrArg PC.next twins.pc) related (twins.locals.insert index holds))

theorem duplicate (twins : Twins alike s t f g) : Refines (Moved alike s t) (s.duplicate f) (t.duplicate g) := by
  unfold State.duplicate
  cases left : f.stack with
  | nil => trivial
  | cons x rest =>
    obtain ⟨y, tail, holds, related, right⟩ := twins.top left
    rw [right]
    exact .ok (twins.proceedWith (.cons holds (.cons holds related)))

end Twins

/-! Jumps of the machine on texts and of the one on signs. -/

section Jumps

variable {s : State String} {t : State StringSign} {condition : String}

/-- Comparing a truth value with zero is comparing the number it counts as. -/
theorem zeroCondition_integer {d : Datum} {n : Int} (integer : d.integer? = some n) (arrays : ArrayStore)
    (condition : String) :
    State.zeroCondition condition (arrays.resolve d) = State.zeroCondition condition (.int n) := by
  cases d with
  | int m => cases integer; rfl
  | flag b =>
    cases integer
    have resolved : arrays.resolve (.flag b) = .flag b := rfl
    rw [resolved]
    unfold State.zeroCondition
    split <;> simp [Datum.same, Datum.relate, Datum.magnitude?]
  | _ => cases integer

/-- A typed value decides a jump in the same way on both machines, if it does on the first. -/
theorem zeroJump_refines (v : Value) :
    Refines Eq (Concrete.zeroJump s condition (.value v)) (Abstract.zeroJump t condition (.value v)) := by
  have right : Abstract.zeroJump t condition (.value v) =
      liftM (State.zeroCondition condition (t.arrays.resolve v.content)) := rfl
  cases integer : v.content.integer? with
  | none =>
    rw [Concrete.zeroJump_other integer]
    trivial
  | some n =>
    rw [Concrete.zeroJump_integer integer, right, zeroCondition_integer integer]
    exact .refl _

theorem toInteger_refines (same : s.arrays = t.arrays) (v : Value) :
    Refines Eq (Concrete.toInteger s (.value v)) (Abstract.toInteger t (.value v)) := by
  change Refines Eq (s.integerOf (.value v) v) (t.integerOf (.value v) v)
  unfold State.integerOf
  rw [same]
  split
  · exact .refl _
  · exact .refl _
  · exact .refl _
  · trivial

/-- A comparison by number refines another one if its operands do. -/
theorem pairJump_refines {x x' y y' : Slot} (numeric : condition ≠ "is")
    (left : Refines Eq (Concrete.toInteger s x) (Abstract.toInteger t x'))
    (right : Refines Eq (Concrete.toInteger s y) (Abstract.toInteger t y')) :
    Refines Eq (Concrete.pairJump s condition x y) (Abstract.pairJump t condition x' y') := by
  unfold Concrete.pairJump Abstract.pairJump
  simp only [numeric, ↓reduceIte]
  refine left.bind ?_
  rintro a _ rfl
  refine right.bind ?_
  rintro b _ rfl
  exact .refl _

end Jumps

/-! Whole steps of the machine on texts and of the one on signs. -/

/-- Leaving the only frame ends the run. -/
theorem leave_last (only : s.frames = [f]) (result : List Slot) : (s.leave result).2 = some (.ended .ok) := by
  simp [State.leave, only]

section Steps

variable {s : State String} {t : State StringSign} {related : State String → State StringSign → Prop} {i : Instruction}

/-- An instruction with an operand has an effect only where the stacks have one. -/
theorem Twins.takesOne (twins : Twins alike s t f g) (arity : Concrete.arity i.operation = 1)
    (refines : ∀ x y rest tail, f.stack = x :: rest → g.stack = y :: tail → alike x y → List.Forall₂ alike rest tail →
      Refines related (Concrete.effect s f i) (Abstract.effect t g i)) :
    Refines related (Concrete.effect s f i) (Abstract.effect t g i) := by
  cases left : f.stack with
  | nil =>
    have short : f.stack.length < Concrete.arity i.operation := by simp [left, arity]
    rw [Concrete.effect_short short]
    trivial
  | cons x rest =>
    obtain ⟨y, tail, holds, related, right⟩ := twins.top left
    exact refines x y rest tail left right holds related

theorem Twins.takesTwo (twins : Twins alike s t f g) (arity : Concrete.arity i.operation = 2)
    (refines : ∀ b b' a a' rest tail, f.stack = b :: a :: rest → g.stack = b' :: a' :: tail → alike b b' → alike a a' →
      List.Forall₂ alike rest tail → Refines related (Concrete.effect s f i) (Abstract.effect t g i)) :
    Refines related (Concrete.effect s f i) (Abstract.effect t g i) := by
  by_cases short : f.stack.length < 2
  · rw [Concrete.effect_short (arity ▸ short)]
    trivial
  · have stack := twins.stack
    cases first : f.stack with
    | nil => simp [first] at short
    | cons b below =>
      cases second : below with
      | nil => simp [first, second] at short
      | cons a rest =>
        subst second
        rw [first] at stack
        obtain ⟨b', below', upper, lower, right⟩ := List.forall₂_cons_left_iff.mp stack
        obtain ⟨a', tail, next, related, rfl⟩ := List.forall₂_cons_left_iff.mp lower
        exact refines b b' a a' rest tail first right upper next related

def Value.IsPlain (v : Value) : Prop := v.type ≠ .reference ∧ v.content ≠ .null

/-- Instructions that move slots about, or push plain values, and look into nothing. -/
def Operation.MovesSlots : Operation → Prop
  | .push v => v.IsPlain
  | .pop | .load .. | .store .. | .dup .. | .goto .. => True
  | .get static _ => static = true
  | .new className => className.isText "java/lang/String" = false
  | .invokeVirtual m => StringCall.of? m = none
  | _ => False

/-- Instructions that look into nothing keep machines in lockstep. -/
theorem Twins.movesSlots (twins : Twins alike s t f g) (plain : ∀ v : Value, v.IsPlain → alike (.value v) (.value v))
    (moves : i.operation.MovesSlots) : Refines (Moved alike s t) (Concrete.effect s f i) (Abstract.effect t g i) := by
  have zero : alike (.int 0) (.int 0) := plain (.int 0) ⟨by decide, by simp [Value.int]⟩
  cases op : i.operation with
  | push v =>
    rw [op] at moves
    rw [Concrete.effect_push op, Abstract.effect_push op, State.pushConstant_value moves.1, State.pushConstant_value moves.1]
    exact .ok (twins.push (plain v moves))
  | pop =>
    rw [Concrete.effect_pop op, Abstract.effect_pop op]
    exact twins.pop
  | load type index =>
    rw [Concrete.effect_load op, Abstract.effect_load op]
    exact twins.load index
  | store type index =>
    rw [Concrete.effect_store op, Abstract.effect_store op]
    exact twins.store index
  | dup words =>
    rw [Concrete.effect_dup op, Abstract.effect_dup op]
    exact twins.duplicate
  | goto target =>
    rw [Concrete.effect_goto op, Abstract.effect_goto op]
    exact .ok (twins.branch twins.stack target true)
  | get static field =>
    rw [op] at moves
    obtain rfl : static = true := moves
    rw [Concrete.effect_get op, Abstract.effect_get op]
    exact .ok (twins.push zero)
  | new className =>
    rw [op] at moves
    rw [Concrete.effect_new op, Abstract.effect_new op, State.create_other moves, State.create_other moves]
    exact .ok (twins.push zero)
  | invokeVirtual m =>
    rw [op] at moves
    rw [Concrete.effect_otherCall op moves, Abstract.effect_otherCall op moves]
    exact .ok twins.proceed
  | _ =>
    rw [op] at moves
    exact moves.elim

/-- A jump goes the same way on both machines if what it looks at decides alike. -/
theorem Twins.zeroJump (twins : Twins alike s t f g) {condition : String} {target : Operand}
    (op : i.operation = .zeroJump condition target)
    (decides : ∀ x y, x ∈ f.stack.head? → alike x y →
      Refines Eq (Concrete.zeroJump s condition x) (Abstract.zeroJump t condition y)) :
    Refines (Moved alike s t) (Concrete.effect s f i) (Abstract.effect t g i) := by
  refine twins.takesOne (by rw [op]; rfl) ?_
  intro x y rest tail left right holds related
  rw [Concrete.effect_zeroJump op left, Abstract.effect_zeroJump op right]
  refine (decides x y (by rw [left]; rfl) holds).bind ?_
  rintro taken _ rfl
  exact .ok (twins.branch related target taken)

theorem Twins.compareJump (twins : Twins alike s t f g) {condition : String} {target : Operand}
    (op : i.operation = .compareJump condition target)
    (decides : ∀ a a' b b', alike a a' → alike b b' →
      Refines Eq (Concrete.pairJump s condition a b) (Abstract.pairJump t condition a' b')) :
    Refines (Moved alike s t) (Concrete.effect s f i) (Abstract.effect t g i) := by
  refine twins.takesTwo (by rw [op]; rfl) ?_
  intro b b' a a' rest tail left right upper lower related
  rw [Concrete.effect_compareJump op left, Abstract.effect_compareJump op right]
  refine (decides a a' b b' lower upper).bind ?_
  rintro taken _ rfl
  exact .ok (twins.branch related target taken)

/-- Only one machine looks for null before it throws; there must be none. -/
theorem Twins.throw (twins : Twins alike s t f g) (op : i.operation = .throw)
    (present : ∀ x y, alike x y → ∃ v : Value, x = .value v ∧ v.content ≠ .null) :
    Refines related (Concrete.effect s f i) (Abstract.effect t g i) := by
  refine twins.takesOne (by rw [op]; rfl) ?_
  intro x y rest tail left right holds _
  obtain ⟨v, rfl, content⟩ := present x y holds
  rw [Concrete.effect_throw op left, Abstract.effect_throw op, Concrete.refuseNull_present content]
  rfl

/-- Returns aside, a step follows another one if its effect refines the other's. A return ends both
runs, since there is but one frame. -/
theorem Twins.execute (twins : Twins alike s t f g)
    (returns : ∀ type, i.operation = .return type → type = none ∨ type = some .int)
    (refines : (∀ type, i.operation ≠ .return type) → Refines related (Concrete.effect s f i) (Abstract.effect t g i)) :
    Follows related (Concrete.execute s f i) (Abstract.execute t g i) := by
  by_cases ret : ∃ type, i.operation = .return type
  · obtain ⟨type, op⟩ := ret
    have right : (Abstract.execute t g i).2 = some (.ended .ok) := by
      simp only [Abstract.execute, op]
      exact leave_last twins.right []
    rcases returns type op with rfl | rfl
    · have left : (Concrete.execute s f i).2 = some (.ended .ok) := by
        simp only [Concrete.execute, op]
        exact leave_last twins.left []
      simp only [Follows, left]
      exact right
    -- One machine takes the value it returns off the stack, the other does not ask for it.
    · cases stack : f.stack with
      | nil =>
        have short : f.stack.length < Concrete.arity i.operation := by
          rw [op, stack]
          decide
        have left : (Concrete.execute s f i).2 = some (.fault .badIndex) := by
          simp only [Concrete.execute, op, stack, Concrete.effect_short short]
        simp only [Follows, left]
      | cons v rest =>
        have left : (Concrete.execute s f i).2 = some (.ended .ok) := by
          simp only [Concrete.execute, op, stack]
          exact leave_last twins.left [v]
        simp only [Follows, left]
        exact right
  · have other : ∀ type, i.operation ≠ .return type := fun type op => ret ⟨type, op⟩
    have refined := refines other
    rw [Concrete.execute_effect other, Abstract.execute_effect other]
    rcases left : Concrete.effect s f i with ⟨outcome | cause⟩ | after
    · rw [left] at refined
      rw [show Abstract.effect t g i = .error (.ended outcome) from refined]
      rfl
    · trivial
    · rw [left] at refined
      obtain ⟨final, right, holds⟩ := refined
      rw [right]
      exact ⟨rfl, holds⟩

/-- Calls with the same plain arguments start in lockstep. -/
theorem Twins.ofCall (method : AbsMethodId) {args : List Value} (arrays : ArrayStore)
    (related : ∀ v ∈ args, alike (.value v) (.value v)) :
    Twins alike (.ofCall method args arrays : State String) (.ofCall method args arrays : State StringSign)
      (.ofCall method args) (.ofCall method args) := by
  refine ⟨rfl, rfl, rfl, .nil, ?_, rfl⟩
  refine List.forall₂_same.mpr ?_
  rintro _ member
  obtain ⟨⟨v, index⟩, inside, rfl⟩ := List.mem_map.mp member
  exact ⟨rfl, related v (List.fst_mem_of_mem_zipIdx inside)⟩

/-- Machines in lockstep execute the same instruction, if any. -/
theorem Twins.step {program : Program} {locate : Concrete.Locate} {w : Concrete.Watched}
    (twins : Twins alike w.state t f g) (unwatched : w.coverage = none)
    (executes : ∀ i, w.state.next? program = some i →
      Follows related (Concrete.execute w.state f i) (Abstract.execute t g i)) :
    Follows (fun (w : Concrete.Watched) t => w.coverage = none ∧ related w.state t)
      (Concrete.step program locate w) (Abstract.step program t) := by
  unfold Concrete.step Abstract.step
  simp only [twins.left, twins.right, unwatched, ← twins.pc]
  cases fetched : program.fetch f.pc with
  | error cause => trivial
  | ok i =>
    have follows := executes i (State.next?_eq twins.left fetched)
    dsimp only
    rcases left : Concrete.execute w.state f i with ⟨after, _ | outcome | cause⟩
    · rw [left] at follows
      exact ⟨follows.1, rfl, follows.2⟩
    · rw [left] at follows
      exact follows
    · trivial

end Steps

structure Call where
  program : Program
  locate : Concrete.Locate
  method : AbsMethodId
  args : List Value
  arrays : ArrayStore

namespace Call

/-- The machine on texts after so many steps, or after the step that stopped it. -/
def onTexts (c : Call) (k : Nat) : Concrete.Watched × Option Halt :=
  runFor (Concrete.step c.program c.locate) k ⟨.ofCall c.method c.args c.arrays, none⟩

def onSigns (c : Call) (k : Nat) : State StringSign × Option Halt :=
  runFor (Abstract.step c.program) k (.ofCall c.method c.args c.arrays)

/-- A relation that holds at the start and survives each pair of steps holds throughout, and the
machine on signs has every result that the one on texts has. -/
theorem simulated (c : Call) {budget : Nat} {related : State String → State StringSign → Prop}
    {allowed : State String → Prop}
    (first : related (.ofCall c.method c.args c.arrays) (.ofCall c.method c.args c.arrays))
    (steps : ∀ (w : Concrete.Watched) t, w.coverage = none → related w.state t → allowed w.state →
      Follows (fun (w : Concrete.Watched) t => w.coverage = none ∧ related w.state t)
        (Concrete.step c.program c.locate w) (Abstract.step c.program t))
    (guarded : ∀ k < budget, ∀ w, c.onTexts k = (w, none) → allowed w.state) :
    (∀ result, Halt.outcome (c.onTexts budget).2 = .ok result → Halt.outcome (c.onSigns budget).2 = .ok result) ∧
      ∀ k ≤ budget, ∀ w, c.onTexts k = (w, none) → ∃ t, c.onSigns k = (t, none) ∧ related w.state t := by
  have follows : ∀ k ≤ budget, Follows (fun (w : Concrete.Watched) t => w.coverage = none ∧ related w.state t)
      (c.onTexts k) (c.onSigns k) :=
    run_follows ⟨rfl, first⟩ (fun w t holds may => steps w t holds.1 holds.2 may) guarded
  refine ⟨fun result ended => (follows budget (Nat.le_refl _)).outcome ended, ?_⟩
  intro k within w ran
  have paired := follows k within
  rw [ran] at paired
  obtain ⟨running, _, holds⟩ := paired
  exact ⟨(c.onSigns k).1, Prod.ext rfl running, holds⟩

end Call
end BytecodeBench
