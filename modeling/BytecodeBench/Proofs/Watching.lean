import BytecodeBench.Proofs.Effects
import BytecodeBench.Proofs.Integers
import BytecodeBench.Proofs.StringIdentity
import Mathlib.Tactic.Push

/-! Runs that a coverage map watches. The map only looks on, but it meets a fault of its own where it has
no cell for what it sees: a comparison reaches past its end, or one side of it is no number or no text.
Apart from these comparisons a watched run is the run without the map. -/

namespace BytecodeBench

/-- Null or a text: what a reference to a string can lead to. -/
def Datum.IsString (d : Datum) : Prop := d = .null ∨ ∃ text, d = .text text

namespace Coverage

variable {c after : Coverage} {place : Int} {a b : Datum}

/-! Cells that are hit. -/

theorem hit_size (done : c.hit place = .ok after) : after.size = c.size := by
  unfold hit at done
  split at done
  · cases done
  · cases done
    simp [size]

private theorem hitAll_size (c : Coverage) (places : List Int) : (c.hitAll places).1.size = c.size := by
  induction places generalizing c with
  | nil => rfl
  | cons place places ih =>
    unfold hitAll
    split
    · rfl
    next after done => exact (ih after).trans (hit_size done)

theorem compareIntegers_size (c : Coverage) (place : Int) (a b : Datum) :
    (c.compareIntegers place a b).1.size = c.size := by
  unfold compareIntegers
  split
  · rfl
  · rfl
  · split
    · exact hitAll_size _ _
    · split
      · rfl
      next after done => exact hit_size done

theorem bothNonNegative_integer {m n : Int} (left : a.integer? = some m) (right : b.integer? = some n) :
    bothNonNegative a b = .ok (decide (0 ≤ m ∧ 0 ≤ n)) := by
  have zero : (Datum.int 0).integer? = some 0 := rfl
  unfold bothNonNegative
  simp only [Datum.relate_integer _ left zero, Datum.relate_integer _ right zero, Relation.holds_compare]
  by_cases negative : m < 0
  · have beyond : ¬ 0 ≤ m := by omega
    simp [negative, beyond, bind, Except.bind, pure, Except.pure]
  · have positive : 0 ≤ m := by omega
    simp [negative, positive, bind, Except.bind]

private theorem compareItems_size {α : Type} (same : α → α → Bool) (c : Coverage) (place : Int) (as bs : List α) :
    (c.compareItems same place as bs).1.size = c.size := hitAll_size _ _

theorem compareTexts_size (c : Coverage) (place : Int) (a b : Datum) : (c.compareTexts place a b).1.size = c.size := by
  unfold compareTexts
  split
  · exact compareItems_size _ _ _ _ _
  · split
    · split
      · rfl
      · rfl
      · exact compareItems_size _ _ _ _ _
    · rfl

theorem compareTextsIgnoringCase_size (c : Coverage) (place : Int) (a b : Datum) :
    (c.compareTextsIgnoringCase place a b).1.size = c.size := by
  unfold compareTextsIgnoringCase
  split
  · exact compareTexts_size _ _ _ _
  · rfl

end Coverage

namespace Concrete

/-! The heap of the machine on texts. -/

def HoldsTexts (s : State String) : Prop := ∀ ref d, s.heap.find? ref = some d → ∃ text, d = .text text

section Texts

variable {s after : State String} {f : Frame} {i : Instruction}

theorem HoldsTexts.of_heap (holds : HoldsTexts s) (same : after.heap = s.heap) : HoldsTexts after := by
  intro ref d found
  rw [same] at found
  exact holds ref d found

theorem HoldsTexts.insert (holds : HoldsTexts s) {ref : Operand} {text : String}
    (same : after.heap = s.heap.insert ref (.text text)) : HoldsTexts after := by
  intro query d found
  rw [same, Table.find?_insert] at found
  split at found
  · cases found
    exact ⟨text, rfl⟩
  · exact holds query d found

theorem stringOf_isString (holds : HoldsTexts s) (slot : Slot) : Yields Datum.IsString (stringOf s slot) := by
  refine .bind fun content _ => ?_
  split
  · exact .pure (Or.inl rfl)
  next text _ => exact .pure (Or.inr ⟨text, rfl⟩)
  · split
    next ref _ =>
      refine Yields.lift fun d found => ?_
      unfold State.entry at found
      split at found
      next entry stored =>
        cases found
        exact Or.inr (holds ref d stored)
      · cases found
    · exact .throw

end Texts

/-! What a map learns from an instruction. -/

section Observation

variable {c : Coverage} {place : Int} {s : State String} {f : Frame}

private theorem observe_size (c : Coverage) (place : Int) (s : State String) (f : Frame) (operation : Operation) :
    (observe c place s f operation).1.size = c.size := by
  unfold observe
  split
  · split
    · split
      · split
        · exact Coverage.compareIntegers_size _ _ _ _
        · rfl
      · rfl
    · rfl
  · split
    · split
      · dsimp only
        split
        · exact Coverage.compareTexts_size _ _ _ _
        · exact Coverage.compareTextsIgnoringCase_size _ _ _ _
        · rfl
      · rfl
    · rfl
  · rfl

end Observation

section Comparisons

variable {s : State String} {f : Frame} {i : Instruction} {rest : List Slot}

end Comparisons

/-! Steps with and without a map. -/

section Steps

variable {program : Program} {locate : Locate} {size : Nat} {v w : Watched} {f : Frame} {below : List Frame}
  {i : Instruction}

theorem step_plain (plain : v.coverage = none) (frames : v.state.frames = f :: below)
    (fetched : program.fetch f.pc = .ok i) :
    step program locate v = (⟨(execute v.state f i).1, none⟩, (execute v.state f i).2) := by
  simp only [step, frames, fetched, plain]

private theorem step_map_size {c : Coverage} {next : Watched} {halt : Option Halt} (watched : w.coverage = some c)
    (moved : step program locate w = (next, halt)) : ∃ kept, next.coverage = some kept ∧ kept.size = c.size := by
  unfold step at moved
  split at moved
  · cases moved
    exact ⟨c, watched, rfl⟩
  · split at moved
    · cases moved
      exact ⟨c, watched, rfl⟩
    · simp only [watched] at moved
      split at moved
      · cases moved
        exact ⟨c, watched, rfl⟩
      next hit done =>
        have seen := fun f operation => (observe_size hit (locate f.pc c.size) w.state f operation).trans
          (Coverage.hit_size done)
        split at moved
        all_goals
          cases moved
          exact ⟨_, rfl, by rw [← seen, ‹observe _ _ _ _ _ = _›]⟩

theorem run_map_size {c : Coverage} {next : Watched} {halt : Option Halt} {budget : Nat} (watched : w.coverage = some c)
    (ran : runFor (step program locate) budget w = (next, halt)) :
    ∃ kept, next.coverage = some kept ∧ kept.size = c.size := by
  have kept : ∀ before after halt, (∃ d, before.coverage = some d ∧ d.size = c.size) → True →
      step program locate before = (after, halt) → ∃ d, after.coverage = some d ∧ d.size = c.size := by
    rintro before after halt ⟨d, there, sized⟩ - moved
    obtain ⟨e, after, same⟩ := step_map_size there moved
    exact ⟨e, after, same.trans sized⟩
  exact run_keeps ⟨c, watched, rfl⟩ kept (fun _ _ _ _ => trivial) budget (Nat.le_refl budget) next halt ran

/-- Wherever a map counts a place, a watched step does what the machine does, or meets a fault. -/
theorem step_follows (same : w.state = v.state) (plain : v.coverage = none) :
    Follows (fun w v => w.state = v.state ∧ v.coverage = none) (step program locate w) (step program locate v) := by
  have unstopped {left right : Watched} {halt : Option Halt} (state : left.state = right.state)
      (plain : right.coverage = none) :
      Follows (fun w v => w.state = v.state ∧ v.coverage = none) (left, halt) (right, halt) := by
    rcases halt with _ | _ | _
    · exact ⟨rfl, state, plain⟩
    · rfl
    · trivial
  cases frames : v.state.frames with
  | nil => simp [Follows, step, same, frames]
  | cons f below =>
    cases fetched : program.fetch f.pc with
    | error e => simp [Follows, step, same, frames, fetched]
    | ok i =>
      rw [step_plain plain frames fetched]
      unfold step
      simp only [same, frames, fetched]
      split
      · exact unstopped rfl rfl
      · split
        · trivial
        · split
          · trivial
          · exact unstopped rfl rfl

end Steps

namespace Execution

def unwatched (e : Execution) : Execution := { e with coverage := none }

/-- A result that comes under a map comes without it. -/
theorem unwatched_outcome (e : Execution) (budget : Nat) {result : Query}
    (ended : Halt.outcome (e.after budget).2 = .ok result) : Halt.outcome (e.unwatched.after budget).2 = .ok result := by
  have follows : Follows (fun w v => w.state = v.state ∧ v.coverage = none) (e.after budget) (e.unwatched.after budget) :=
    run_follows ⟨rfl, rfl⟩ (fun w v related (_ : True) => step_follows related.1 related.2)
      (fun _ _ _ _ => trivial) budget (Nat.le_refl budget)
  exact follows.outcome ended

section Map

variable {e : Execution} {map : Coverage} {budget : Nat} (watched : e.coverage = some map)
  (located : ∀ pc, 0 ≤ e.locate pc map.size ∧ e.locate pc map.size < map.size)
include watched located

end Map

end Execution
end Concrete
end BytecodeBench
