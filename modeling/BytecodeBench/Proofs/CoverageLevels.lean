import BytecodeBench.Coverage
import Mathlib.Algebra.Order.BigOperators.Group.Finset

/-! What a series of runs has covered. Which count a cell keeps depends on the order of the runs, but the
class of that count does not: it is the highest class that any run reached there. Classes only rise and
there are eight above none, which bounds how many runs can cover anything new. -/

namespace BytecodeBench.Coverage

variable {run total start : Coverage} {runs others : List Coverage} {i : Nat}

/-- The count of a cell. A cell that the map does not have was not hit. -/
def count (c : Coverage) (i : Nat) : Nat := c.cells.getD i 0

def level (c : Coverage) (i : Nat) : Nat := bucket (c.count i)

/-! Classes. -/

theorem bucket_eq_zero {n : Nat} : bucket n = 0 ↔ n = 0 := by
  constructor
  · intro lowest
    unfold bucket at lowest
    split_ifs at lowest
    omega
  · rintro rfl
    rfl

private theorem bucket_le (n : Int) : bucket n ≤ 8 := by
  unfold bucket
  split_ifs <;> omega

/-- A first hit needs no rule of its own: it leaves the class of cells that were not hit. -/
theorem exceeds_iff {known count : Nat} : exceeds known count = true ↔ bucket known < bucket count := by
  have unhit := @bucket_eq_zero known
  have hit := @bucket_eq_zero count
  simp only [exceeds, Bool.and_eq_true, Bool.or_eq_true, decide_eq_true_eq, beq_iff_eq]
  omega

theorem level_eq_zero : total.level i = 0 ↔ total.count i = 0 := bucket_eq_zero

/-! Cells. -/

theorem size_empty (size : Nat) : (empty size).size = size := Array.size_replicate

theorem getElem?_cells (inside : i < total.size) : total.cells[i]? = some (total.count i) := by
  unfold count
  rw [Array.getD_eq_getD_getElem?, Array.getElem?_eq_getElem inside, Option.getD_some]

theorem count_outside (outside : total.size ≤ i) : total.count i = 0 := by
  unfold count
  rw [Array.getD_eq_getD_getElem?, Array.getElem?_eq_none outside, Option.getD_none]

theorem toList_cells (c : Coverage) : c.cells.toList = (List.range c.size).map c.count := by
  apply List.ext_getElem?
  intro i
  rw [Array.getElem?_toList, List.getElem?_map]
  by_cases inside : i < c.size
  · rw [getElem?_cells inside, List.getElem?_range inside, Option.map_some]
  · have outside : c.size ≤ i := Nat.le_of_not_lt inside
    rw [Array.getElem?_eq_none outside, List.getElem?_eq_none (by simpa using outside), Option.map_none]

theorem score_eq (c : Coverage) : c.score = (List.range c.size).countP fun i => c.count i ≠ 0 := by
  unfold score
  rw [← Array.length_toList, Array.toList_filter, toList_cells, ← List.countP_eq_length_filter, List.countP_map]
  rfl

private theorem score_congr {first second : Coverage} (sized : first.size = second.size)
    (same : ∀ i, first.level i = second.level i) : first.score = second.score := by
  rw [score_eq, score_eq, sized]
  apply List.countP_congr
  intro i _
  have alike : first.count i = 0 ↔ second.count i = 0 := by
    rw [← level_eq_zero, ← level_eq_zero, same i]
  simp [alike]

/-! One run. -/

theorem size_merge (same : run.size = total.size) : (run.merge total).size = total.size := by
  have cells : (run.merge total).size = min total.size run.size := Array.size_zipWith
  rw [cells, same, Nat.min_self]

private theorem count_merge (same : run.size = total.size) (i : Nat) :
    (run.merge total).count i = if total.level i < run.level i then run.count i else total.count i := by
  by_cases inside : i < total.size
  · have there : i < run.size := same ▸ inside
    have kept : (run.merge total).cells[i]? =
        some (if total.level i < run.level i then run.count i else total.count i) := by
      simp only [merge, Array.getElem?_zipWith, getElem?_cells inside, getElem?_cells there]
      exact congrArg some (if_congr exceeds_iff rfl rfl)
    rw [getElem?_cells ((size_merge same).symm ▸ inside)] at kept
    exact Option.some.inj kept
  · have outside : total.size ≤ i := Nat.le_of_not_lt inside
    rw [count_outside ((size_merge same).symm ▸ outside), count_outside (same.symm ▸ outside), count_outside outside, ite_self]

theorem level_merge (same : run.size = total.size) (i : Nat) :
    (run.merge total).level i = max (total.level i) (run.level i) := by
  have kept : (run.merge total).level i = if total.level i < run.level i then run.level i else total.level i := by
    rw [level, count_merge same]
    split <;> rfl
  rw [kept]
  split <;> omega

theorem isInteresting_iff (same : run.size = total.size) :
    run.isInteresting total = true ↔ ∃ i < total.size, total.level i < run.level i := by
  unfold isInteresting
  rw [toList_cells, toList_cells, same, List.zip_map']
  simp [exceeds_iff, level]

private theorem merge_of_known (same : run.size = total.size) (known : ∀ i, run.level i ≤ total.level i) :
    run.isInteresting total = false ∧ run.merge total = total := by
  constructor
  · apply Bool.eq_false_iff.mpr
    intro interesting
    obtain ⟨i, -, above⟩ := (isInteresting_iff same).mp interesting
    exact Nat.not_lt.mpr (known i) above
  · have cells : (run.merge total).cells.toList = total.cells.toList := by
      rw [toList_cells, toList_cells, size_merge same]
      apply List.map_congr_left
      intro i _
      rw [count_merge same, if_neg (Nat.not_lt.mpr (known i))]
    exact congrArg (Coverage.mk · total.last) (Array.toList_inj.mp cells)

/-! Series of runs. -/

def after (total : Coverage) : List Coverage → Coverage
  | [] => total
  | run :: runs => (run.merge total).after runs

/-- Of each of some runs, whether it covered anything that was not known before it. -/
def news (total : Coverage) : List Coverage → List Bool
  | [] => []
  | run :: runs => run.isInteresting total :: (run.merge total).news runs

def peak (runs : List Coverage) (i : Nat) : Nat := (runs.map (·.level i)).foldr max 0

private theorem peak_cons (run : Coverage) (runs : List Coverage) (i : Nat) :
    peak (run :: runs) i = max (run.level i) (peak runs i) := rfl

theorem peak_le_iff {bound : Nat} : peak runs i ≤ bound ↔ ∀ run ∈ runs, run.level i ≤ bound := by
  induction runs with
  | nil => simp [peak]
  | cons run runs ih => rw [peak_cons, Nat.max_le, ih, List.forall_mem_cons]

private theorem peak_perm (same : others.Perm runs) (i : Nat) : peak others i = peak runs i := by
  apply Nat.le_antisymm
  · exact peak_le_iff.mpr fun run member => peak_le_iff.mp le_rfl run (same.mem_iff.mp member)
  · exact peak_le_iff.mpr fun run member => peak_le_iff.mp le_rfl run (same.mem_iff.mpr member)

theorem size_after (sized : ∀ run ∈ runs, run.size = total.size) : (total.after runs).size = total.size := by
  induction runs generalizing total with
  | nil => rfl
  | cons run runs ih =>
    obtain ⟨same, others⟩ := List.forall_mem_cons.mp sized
    have kept := size_merge same
    rw [after, ih (kept.symm ▸ others), kept]

private theorem level_after (sized : ∀ run ∈ runs, run.size = total.size) (i : Nat) :
    (total.after runs).level i = max (total.level i) (peak runs i) := by
  induction runs generalizing total with
  | nil => exact (Nat.max_zero _).symm
  | cons run runs ih =>
    obtain ⟨same, others⟩ := List.forall_mem_cons.mp sized
    rw [after, ih ((size_merge same).symm ▸ others), level_merge same, peak_cons, Nat.max_assoc]

/-- Each run is judged by what the runs before it have covered. -/
theorem getElem?_news {j : Nat} (found : runs[j]? = some run) :
    (total.news runs)[j]? = some (run.isInteresting (total.after (runs.take j))) := by
  induction runs generalizing total j with
  | nil => cases found
  | cons first runs ih =>
    cases j with
    | zero =>
      cases found
      rfl
    | succ j => exact ih found

theorem after_append (total : Coverage) (runs others : List Coverage) :
    total.after (runs ++ others) = (total.after runs).after others := by
  induction runs generalizing total with
  | nil => rfl
  | cons run runs ih => exact ih (run.merge total)

theorem news_append (total : Coverage) (runs others : List Coverage) :
    total.news (runs ++ others) = total.news runs ++ (total.after runs).news others := by
  induction runs generalizing total with
  | nil => rfl
  | cons run runs ih => exact congrArg (run.isInteresting total :: ·) (ih (run.merge total))

/-- A run that is no news leaves the map as it is. -/
theorem merge_of_dull (same : run.size = total.size) (dull : run.isInteresting total = false) :
    run.merge total = total := by
  refine (merge_of_known same fun i => ?_).2
  by_cases inside : i < total.size
  · apply Nat.le_of_not_lt
    intro above
    have interesting := (isInteresting_iff same).mpr ⟨i, inside, above⟩
    rw [dull] at interesting
    cases interesting
  · have unhit : run.level i = 0 := level_eq_zero.mpr (count_outside (same ▸ Nat.le_of_not_lt inside))
    omega

/-! Progress. -/

/-- The classes of all cells added up. -/
def mass (c : Coverage) : Nat := ∑ i ∈ Finset.range c.size, c.level i

private theorem mass_le (c : Coverage) : c.mass ≤ 8 * c.size := by
  calc c.mass ≤ ∑ _i ∈ Finset.range c.size, 8 := Finset.sum_le_sum fun i _ => bucket_le _
    _ = (Finset.range c.size).card * 8 := Finset.sum_const_nat fun _ _ => rfl
    _ = 8 * c.size := by rw [Finset.card_range, Nat.mul_comm]

private theorem mass_merge (same : run.size = total.size) :
    total.mass + (run.isInteresting total).toNat ≤ (run.merge total).mass := by
  have rises : ∀ i ∈ Finset.range total.size, total.level i ≤ (run.merge total).level i := by
    intro i _
    rw [level_merge same]
    exact Nat.le_max_left _ _
  unfold mass
  rw [size_merge same]
  cases interesting : run.isInteresting total with
  | false => exact Finset.sum_le_sum rises
  | true =>
    obtain ⟨i, inside, above⟩ := (isInteresting_iff same).mp interesting
    apply Finset.sum_lt_sum rises
    refine ⟨i, Finset.mem_range.mpr inside, ?_⟩
    rw [level_merge same]
    exact Nat.lt_of_lt_of_le above (Nat.le_max_right _ _)

private theorem mass_after (sized : ∀ run ∈ runs, run.size = total.size) :
    total.mass + (total.news runs).count true ≤ (total.after runs).mass := by
  induction runs generalizing total with
  | nil => exact le_rfl
  | cons run runs ih =>
    obtain ⟨same, others⟩ := List.forall_mem_cons.mp sized
    have step := mass_merge same
    have rest := ih ((size_merge same).symm ▸ others)
    have judged : (if run.isInteresting total == true then 1 else 0) = (run.isInteresting total).toNat := by
      cases run.isInteresting total <;> rfl
    rw [news, after, List.count_cons, judged]
    omega

/-- There is no more news than the classes of the cells can rise. -/
theorem count_news_le (sized : ∀ run ∈ runs, run.size = total.size) :
    (total.news runs).count true ≤ 8 * total.size := by
  have gained := mass_after sized
  have bounded := mass_le (total.after runs)
  rw [size_after sized] at bounded
  omega

section Blank

variable (blank : ∀ n ∈ start.cells, n = 0)
include blank

private theorem level_blank (i : Nat) : start.level i = 0 := by
  rw [level_eq_zero]
  by_cases inside : i < start.size
  · exact blank _ (Array.mem_of_getElem? (getElem?_cells inside))
  · exact count_outside (Nat.le_of_not_lt inside)

variable (sized : ∀ run ∈ runs, run.size = start.size)
include sized

theorem level_after_blank (i : Nat) : (start.after runs).level i = peak runs i := by
  rw [level_after sized, level_blank blank, Nat.zero_max]

theorem count_after_blank (i : Nat) : (start.after runs).count i ≠ 0 ↔ ∃ run ∈ runs, run.count i ≠ 0 := by
  have unhit : (start.after runs).count i = 0 ↔ ∀ run ∈ runs, run.count i = 0 := by
    simp only [← level_eq_zero]
    rw [level_after_blank blank sized, ← Nat.le_zero, peak_le_iff]
    simp only [Nat.le_zero]
  rw [Ne, unhit]
  push Not
  rfl

/-- What goes beyond the highest classes so far is news. -/
theorem news_blank {j : Nat} (found : runs[j]? = some run) :
    (start.news runs)[j]? = some true ↔ ∃ i < start.size, peak (runs.take j) i < run.level i := by
  have earlier : ∀ run ∈ runs.take j, run.size = start.size := fun run member => sized run (List.mem_of_mem_take member)
  have same : run.size = (start.after (runs.take j)).size := by
    rw [size_after earlier]
    exact sized run (List.mem_of_getElem? found)
  rw [getElem?_news found, Option.some_inj, isInteresting_iff same, size_after earlier]
  simp only [level_after_blank blank earlier]

private theorem seen_again (member : run ∈ runs) :
    run.isInteresting (start.after runs) = false ∧ run.merge (start.after runs) = start.after runs := by
  apply merge_of_known
  · rw [size_after sized]
    exact sized run member
  · intro i
    rw [level_after_blank blank sized]
    exact peak_le_iff.mp le_rfl run member

end Blank

/-- Runs merged into a blank map leave in each cell the highest class that any of them reached there. A run
is news exactly if it goes beyond the runs before it, so one that was seen is not, the order of the runs
does not matter in the end, and there is only so much news. -/
theorem levels_are_peaks (start : Coverage) (runs : List Coverage) (blank : ∀ n ∈ start.cells, n = 0)
    (sized : ∀ run ∈ runs, run.size = start.size) :
    (∀ i, (start.after runs).level i = peak runs i) ∧
    (∀ i, (start.after runs).count i ≠ 0 ↔ ∃ run ∈ runs, run.count i ≠ 0) ∧
    (∀ j run, runs[j]? = some run →
      ((start.news runs)[j]? = some true ↔ ∃ i < start.size, peak (runs.take j) i < run.level i)) ∧
    (∀ run ∈ runs, run.isInteresting (start.after runs) = false ∧ run.merge (start.after runs) = start.after runs) ∧
    (∀ others, others.Perm runs →
      (∀ i, (start.after others).level i = (start.after runs).level i) ∧
        (start.after others).score = (start.after runs).score) ∧
    (start.news runs).count true ≤ 8 * start.size := by
  refine ⟨level_after_blank blank sized, count_after_blank blank sized, fun j run => news_blank blank sized,
    fun run => seen_again blank sized, ?_, ?_⟩
  · intro others same
    have sizedOthers : ∀ run ∈ others, run.size = start.size := fun run member => sized run (same.mem_iff.mp member)
    have levels : ∀ i, (start.after others).level i = (start.after runs).level i := by
      intro i
      rw [level_after_blank blank sizedOthers, level_after_blank blank sized, peak_perm same]
    exact ⟨levels, score_congr ((size_after sizedOthers).trans (size_after sized).symm) levels⟩
  · have gained := mass_after sized
    have bounded := mass_le (start.after runs)
    rw [size_after sized] at bounded
    omega

/-- Three runs over two cells, the last of which hits a cell more often but not by a class. -/
def threeRuns : List Coverage := [⟨#[1, 0], 0⟩, ⟨#[5, 3], 1⟩, ⟨#[6, 0], 0⟩]

theorem threeRuns_in_any_order :
    (∀ n ∈ (empty 2).cells, n = 0) ∧ (∀ run ∈ threeRuns, run.size = (empty 2).size) ∧
    (empty 2).news threeRuns = [true, true, false] ∧
    ∀ others, others.Perm threeRuns → ((empty 2).after others).score = 2 ∧ ((empty 2).after others).level 0 = 4 := by
  have blank : ∀ n ∈ (empty 2).cells, n = 0 := by decide
  have sized : ∀ run ∈ threeRuns, run.size = (empty 2).size := by decide
  refine ⟨blank, sized, by decide +kernel, ?_⟩
  intro others same
  obtain ⟨peaks, -, -, -, orderless, -⟩ := levels_are_peaks (empty 2) threeRuns blank sized
  obtain ⟨levels, score⟩ := orderless others same
  have highest : peak threeRuns 0 = 4 := by decide
  exact ⟨score.trans (by decide +kernel), ((levels 0).trans (peaks 0)).trans highest⟩

end BytecodeBench.Coverage
