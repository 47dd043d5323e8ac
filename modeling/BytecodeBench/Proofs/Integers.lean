import BytecodeBench.Datum.Arithmetic

/-! Integers among data: they compare and calculate as the numbers they are, and truth values as the
numbers they count as. -/

namespace BytecodeBench

theorem Relation.holds_compare (r : Relation) (m n : Int) :
    r.holds (compare m n) =
      match r with
      | .lt => decide (m < n)
      | .le => decide (m ≤ n)
      | .gt => decide (n < m)
      | .ge => decide (n ≤ m) := by
  rcases Int.lt_trichotomy m n with below | rfl | above
  · have order : compare m n = .lt := by simpa [Int.compare_eq_lt] using below
    cases r <;> simp [holds, order, below] <;> omega
  · cases r <;> simp [holds]
  · have order : compare m n = .gt := by simpa [Int.compare_eq_gt] using above
    cases r <;> simp [holds, order, above] <;> omega

namespace Datum

variable {a b : Datum} {m n : Int}

theorem integer?_cases (integer : a.integer? = some m) : a = .int m ∨ ∃ truth, a = .flag truth := by
  cases a with
  | int k =>
    cases integer
    exact Or.inl rfl
  | flag truth => exact Or.inr ⟨truth, rfl⟩
  | _ => cases integer

/-- An integer weighs what it counts as. -/
theorem magnitude?_integer (integer : a.integer? = some m) : a.magnitude? = some (.finite m 0) := by
  rcases integer?_cases integer with rfl | ⟨truth, rfl⟩
  · rfl
  · cases integer
    rfl

private theorem compare?_finite (m n : Int) : (Magnitude.finite m 0).compare? (.finite n 0) = some (compare m n) := by
  simp [Magnitude.compare?]

theorem relate_integer (r : Relation) (left : a.integer? = some m) (right : b.integer? = some n) :
    a.relate r b = .ok (r.holds (compare m n)) := by
  have weighed := magnitude?_integer left
  have other := magnitude?_integer right
  rcases integer?_cases left with rfl | ⟨_, rfl⟩ <;> rcases integer?_cases right with rfl | ⟨_, rfl⟩ <;>
    simp [relate, weighed, other, compare?_finite]

theorem same_integer (left : a.integer? = some m) (right : b.integer? = some n) : a.same b = decide (m = n) := by
  have weighed := magnitude?_integer left
  have other := magnitude?_integer right
  have equal : (compare m n == .eq) = decide (m = n) := by
    rw [Bool.eq_iff_iff, beq_iff_eq, Int.compare_eq_eq, decide_eq_true_eq]
  rcases integer?_cases left with rfl | ⟨_, rfl⟩ <;> rcases integer?_cases right with rfl | ⟨_, rfl⟩ <;>
    simp [same, weighed, other, compare?_finite, equal]

theorem relate_int (r : Relation) (m n : Int) : (int m).relate r (int n) = .ok (r.holds (compare m n)) :=
  relate_integer r rfl rfl

theorem isWithin_int (place : Int) (size : Nat) :
    (int place).isWithin (.ok size) = .ok (decide (0 ≤ place ∧ place < size)) := by
  have negative : (int place).relate .lt (int 0) = .ok (decide (place < 0)) := by
    rw [relate_int, Relation.holds_compare]
  have beyond : (int place).relate .ge (int size) = .ok (decide ((size : Int) ≤ place)) := by
    rw [relate_int, Relation.holds_compare]
  unfold isWithin
  rw [negative]
  by_cases below : place < 0
  · have outside : ¬ (0 ≤ place ∧ place < size) := by omega
    rw [decide_eq_true below, decide_eq_false outside]
    rfl
  · have reaches : (!decide ((size : Int) ≤ place)) = decide (0 ≤ place ∧ place < size) := by
      rw [← decide_not, decide_eq_decide]
      omega
    rw [decide_eq_false below, ← reaches]
    change (do return !(← (int place).relate .ge (int size))) = _
    rw [beyond]
    rfl

theorem same_int (m n : Int) : (int m).same (int n) = decide (m = n) := same_integer rfl rfl

theorem onNumbers_integer (ints : Int → Int → Int) (reals : Float → Float → Float) (left : a.integer? = some m)
    (right : b.integer? = some n) : onNumbers ints reals a b = .ok (.int (ints m n)) := by
  simp [onNumbers, left, right]

end Datum
end BytecodeBench
