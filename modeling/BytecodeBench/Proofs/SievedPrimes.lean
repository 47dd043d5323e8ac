import BytecodeBench.Sieve
import Mathlib.NumberTheory.PrimeCounting
import Mathlib.Tactic.IntervalCases
import Mathlib.Tactic.NormNum.Prime
import Mathlib.Tactic.Ring

/-! What the sieve finds. When it comes to a cell, the cells up to the limit are marked that a smaller visited prime
divides properly, and so the cell itself is marked unless it is prime. The one cell behind the limit is never marked:
nothing is said of it, and the sieve comes to it only if the prime it looks for is not up to the limit. -/

namespace BytecodeBench.Sieve

variable {limit n : Nat} {cells : Array Bool}

/-! Marking. -/

def isMarked (cells : Array Bool) (j : Nat) : Bool := cells[j]?.getD false

private theorem isMarked_set {start j : Nat} (inside : j < cells.size) :
    isMarked (cells.setIfInBounds start true) j = true ↔ start = j ∨ isMarked cells j = true := by
  unfold isMarked
  rw [Array.getElem?_setIfInBounds]
  by_cases same : start = j
  · simp [same, inside]
  · simp [same]

@[simp]
theorem size_mark (step count start : Nat) (cells : Array Bool) : (mark step count start cells).size = cells.size := by
  induction count generalizing start cells with
  | zero => rfl
  | succ count ih => rw [mark, ih, Array.size_setIfInBounds]

private theorem isMarked_mark (step count start : Nat) {j : Nat} (inside : j < cells.size) :
    isMarked (mark step count start cells) j = true ↔ (∃ k < count, j = start + k * step) ∨ isMarked cells j = true := by
  induction count generalizing start cells with
  | zero => simp [mark]
  | succ count ih =>
    have shifted : (∃ k < count + 1, j = start + k * step) ↔ start = j ∨ ∃ k < count, j = start + step + k * step := by
      rw [Nat.exists_lt_succ_left, Nat.zero_mul, Nat.add_zero, eq_comm]
      simp only [Nat.succ_mul, Nat.add_assoc, Nat.add_comm step]
    rw [mark, ih (start + step) (by simpa using inside), isMarked_set inside, shifted, or_left_comm, or_assoc]

/-- The cells that a number marks are those of its proper multiples up to the limit. -/
theorem isMarked_markMultiples {i j : Nat} (positive : 0 < i) (within : j ≤ limit) (inside : j < cells.size) :
    isMarked (markMultiples limit i cells) j = true ↔ (i ∣ j ∧ i < j) ∨ isMarked cells j = true := by
  rw [markMultiples, isMarked_mark i _ _ inside]
  refine or_congr_left ⟨?_, ?_⟩
  · rintro ⟨k, -, rfl⟩
    exact ⟨⟨k + 2, by ring⟩, by omega⟩
  · rintro ⟨⟨factor, rfl⟩, proper⟩
    have several : 2 ≤ factor := by
      by_contra few
      interval_cases factor <;> omega
    have few : factor ≤ limit / i := (Nat.le_div_iff_mul_le positive).mpr (by rwa [Nat.mul_comm])
    obtain ⟨k, rfl⟩ := Nat.exists_eq_add_of_le several
    exact ⟨k, by omega, by ring⟩

/-! Visits. -/

/-- What the sieve has when it comes to a cell. -/
structure Visit where
  place : Nat
  count : Nat
  cells : Array Bool

namespace Visit

def first (limit : Nat) : Visit := ⟨2, 0, Array.replicate (limit + 2) false⟩

def next (limit n : Nat) (v : Visit) : Option Visit :=
  if isMarked v.cells v.place then some { v with place := v.place + 1 }
  else if v.count + 1 = n then none
  else some ⟨v.place + 1, v.count + 1, markMultiples limit v.place v.cells⟩

/-- So many visits, from one on, or fewer if one of them ends the search. -/
def onward (limit n : Nat) : Nat → Visit → List Visit
  | 0, _ => []
  | budget + 1, v => v :: (v.next limit n).elim [] (onward limit n budget)

variable {v w : Visit}

theorem place_next (goes : v.next limit n = some w) : w.place = v.place + 1 := by
  unfold next at goes
  split at goes
  · cases goes
    rfl
  · split at goes
    · cases goes
    · cases goes
      rfl

end Visit

open Visit

variable {v w : Visit}

private theorem visit_succ (budget : Nat) (v : Visit) :
    visit limit n (budget + 1) v.place v.count v.cells =
      (v.next limit n).elim v.place fun w => visit limit n budget w.place w.count w.cells := by
  rw [visit]
  unfold next isMarked
  split
  · rfl
  · split <;> rfl

/-- The sieve returns the place that it has visited last. -/
theorem visit_eq_last (budget : Nat) (v : Visit) :
    visit limit n budget v.place v.count v.cells = ((v.onward limit n budget).map place).getLastD (v.place - 1) := by
  induction budget generalizing v with
  | zero => rfl
  | succ budget ih =>
    rw [visit_succ, onward]
    cases goes : v.next limit n with
    | none => rfl
    | some w =>
      have before : w.place - 1 = v.place := by rw [place_next goes, Nat.add_sub_cancel]
      rw [Option.elim_some, Option.elim_some, ih, before, List.map_cons, List.getLastD_cons]

/-! What holds at a visit. -/

/-- The marked cells are those that a prime before the place divides properly, and the count is that of these
primes. -/
structure Visit.Sieved (limit : Nat) (v : Visit) : Prop where
  size : v.cells.size = limit + 2
  begun : 2 ≤ v.place
  marked : ∀ j ≤ limit, isMarked v.cells j = true ↔ ∃ p, p.Prime ∧ p < v.place ∧ p ∣ j ∧ p < j
  count : v.count = Nat.primeCounting' v.place

namespace Visit.Sieved

theorem first (limit : Nat) : (Visit.first limit).Sieved limit where
  size := Array.size_replicate
  begun := Nat.le_refl 2
  marked j within := by
    have fresh : isMarked (Visit.first limit).cells j = false := by
      have inside : j < limit + 2 := by omega
      simp [isMarked, Visit.first, inside]
    rw [fresh]
    refine ⟨fun impossible => (Bool.false_ne_true impossible).elim, ?_⟩
    rintro ⟨p, prime, before, -⟩
    exact absurd prime.two_le (Nat.not_le.mpr before)
  count := (Nat.primeCounting'_eq_zero_iff.mpr (Nat.le_refl 2)).symm

theorem unmarked_iff_prime (sieved : v.Sieved limit) (within : v.place ≤ limit) :
    isMarked v.cells v.place = false ↔ v.place.Prime := by
  rw [← Bool.not_eq_true, sieved.marked _ within, ← not_iff_not, not_not]
  constructor
  · rintro ⟨p, prime, before, divides, -⟩ own
    exact before.ne ((Nat.prime_dvd_prime_iff_eq prime own).mp divides)
  · intro composite
    have smaller := (Nat.not_prime_iff_minFac_lt sieved.begun).mp composite
    have factor : v.place.minFac.Prime := Nat.minFac_prime (by have := sieved.begun; omega)
    exact ⟨v.place.minFac, factor, smaller, v.place.minFac_dvd, smaller⟩

/-- With one more prime before the place, its multiples are marked. -/
theorem marked_succ (sieved : v.Sieved limit) (prime : v.place.Prime) :
    ∀ j ≤ limit, isMarked (markMultiples limit v.place v.cells) j = true ↔
      ∃ p, p.Prime ∧ p < v.place + 1 ∧ p ∣ j ∧ p < j := by
  intro j within
  have inside : j < v.cells.size := by
    rw [sieved.size]
    omega
  rw [isMarked_markMultiples prime.pos within inside, sieved.marked j within]
  constructor
  · rintro (⟨divides, proper⟩ | ⟨p, other, before, divides, proper⟩)
    · exact ⟨v.place, prime, Nat.lt_succ_self _, divides, proper⟩
    · exact ⟨p, other, Nat.lt_succ_of_lt before, divides, proper⟩
  · rintro ⟨p, other, upTo, divides, proper⟩
    rcases Nat.lt_succ_iff_lt_or_eq.mp upTo with before | rfl
    · exact .inr ⟨p, other, before, divides, proper⟩
    · exact .inl ⟨divides, proper⟩

/-- One step of the sieve. -/
theorem next (sieved : v.Sieved limit) (within : v.place ≤ limit) (goes : v.next limit n = some w) :
    w.Sieved limit := by
  unfold Visit.next at goes
  split at goes
  next marked =>
    have composite : ¬ v.place.Prime := by
      rw [← sieved.unmarked_iff_prime within, marked]
      decide
    cases goes
    refine ⟨sieved.size, Nat.le_succ_of_le sieved.begun, ?_, ?_⟩
    · intro j upTo
      rw [sieved.marked j upTo]
      refine exists_congr fun p => and_congr_right fun prime => ?_
      have other : p ≠ v.place := fun same => composite (same ▸ prime)
      have same : p < v.place ↔ p < v.place + 1 := by omega
      rw [same]
    · rw [sieved.count, Nat.primeCounting', Nat.count_succ, if_neg composite, Nat.add_zero]
  next unmarked =>
    have prime : v.place.Prime := (sieved.unmarked_iff_prime within).mp (Bool.eq_false_iff.mpr unmarked)
    split at goes
    · cases goes
    · cases goes
      refine ⟨?_, Nat.le_succ_of_le sieved.begun, sieved.marked_succ prime, ?_⟩
      · rw [markMultiples, size_mark, sieved.size]
      · rw [sieved.count, Nat.primeCounting', Nat.count_succ, if_pos prime]

/-- The search ends at the prime of its number and nowhere else. -/
theorem next_eq_none_iff (sieved : v.Sieved limit) (within : v.place ≤ limit) (positive : 0 < n) :
    v.next limit n = none ↔ v.place = Nat.nth Nat.Prime (n - 1) := by
  have found : v.next limit n = none ↔ v.place.Prime ∧ v.count + 1 = n := by
    rw [← sieved.unmarked_iff_prime within]
    unfold Visit.next
    split <;> simp_all
  rw [found, sieved.count, Nat.primeCounting']
  constructor
  · rintro ⟨prime, last⟩
    rw [← last, Nat.add_sub_cancel, Nat.nth_count prime]
  · intro same
    refine ⟨same ▸ Nat.prime_nth_prime _, ?_⟩
    have below : Nat.count Nat.Prime v.place = n - 1 := by
      rw [same]
      exact Nat.primeCounting'_nth_eq _
    omega

/-- The whole run: what holds at a visit holds at all visits after it. -/
theorem onward {budget : Nat} (sieved : v.Sieved limit) (enough : v.place + budget ≤ limit + 2) :
    ∀ w ∈ v.onward limit n budget, w.Sieved limit := by
  induction budget generalizing v with
  | zero => exact List.forall_mem_nil _
  | succ budget ih =>
    rw [Visit.onward, List.forall_mem_cons]
    refine ⟨sieved, ?_⟩
    cases goes : v.next limit n with
    | none => exact List.forall_mem_nil _
    | some w =>
      have later := place_next goes
      -- A last visit may be to the cell behind the limit, from where nothing follows; a visit before it is within.
      cases budget with
      | zero => exact List.forall_mem_nil _
      | succ budget => exact ih (sieved.next (by omega) goes) (by omega)

/-- Up to the prime sought, every place is visited in turn, and none is visited behind it. -/
theorem places {budget : Nat} (sieved : v.Sieved limit) (positive : 0 < n) (reaches : Nat.nth Nat.Prime (n - 1) ≤ limit)
    (ahead : v.place ≤ Nat.nth Nat.Prime (n - 1)) (enough : Nat.nth Nat.Prime (n - 1) < v.place + budget) :
    (v.onward limit n budget).map place = List.range' v.place (Nat.nth Nat.Prime (n - 1) + 1 - v.place) := by
  induction budget generalizing v with
  | zero => omega
  | succ budget ih =>
    have within : v.place ≤ limit := ahead.trans reaches
    have ends := sieved.next_eq_none_iff within positive
    rw [Visit.onward, List.map_cons]
    cases goes : v.next limit n with
    | none =>
      rw [← ends.mp goes, Nat.add_sub_cancel_left]
      rfl
    | some w =>
      have later := place_next goes
      have beyond : v.place ≠ Nat.nth Nat.Prime (n - 1) := by
        rw [Ne, ← ends, goes]
        exact Option.some_ne_none w
      have length : Nat.nth Nat.Prime (n - 1) + 1 - v.place = Nat.nth Nat.Prime (n - 1) + 1 - w.place + 1 := by omega
      rw [Option.elim_some, ih (sieved.next within goes) (by omega) (by omega), length, List.range'_succ, later]

end Visit.Sieved

def visits (limit n : Nat) : List Visit := (first limit).onward limit n limit

private theorem places_visits (positive : 0 < n) (reaches : Nat.nth Nat.Prime (n - 1) ≤ limit) :
    (visits limit n).map place = List.range' 2 (Nat.nth Nat.Prime (n - 1) - 1) := by
  have early := Nat.add_two_le_nth_prime (n - 1)
  exact (Sieved.first limit).places positive reaches (by change 2 ≤ _; omega) (by change _ < 2 + limit; omega)

/-- The sieve returns the last place of its visits. -/
theorem primeUpTo_eq_last (limit n : Nat) : primeUpTo limit n = ((visits limit n).map place).getLastD 1 :=
  visit_eq_last limit (first limit)

private theorem primeUpTo_eq_nth (positive : 0 < n) (reaches : Nat.nth Nat.Prime (n - 1) ≤ limit) :
    primeUpTo limit n = Nat.nth Nat.Prime (n - 1) := by
  have early := Nat.add_two_le_nth_prime (n - 1)
  rw [primeUpTo_eq_last, places_visits positive reaches, List.getLastD_eq_getLast?, List.getLast?_range',
    if_neg (by omega), Option.getD_some]
  omega

/-- The sieve finds the prime of a number if the limit is not below it. It returns the last place that it visits, and
then these are the places from two up to this prime in turn. Whatever the limit is, when it comes to a place up to the
limit, the cell there is unmarked exactly if the place is prime, and the count is that of the primes before the
place. -/
theorem finds_nth_prime (limit : Nat → Nat) (n : Nat) (several : 2 ≤ n) :
    nthPrimeWithin limit n = ((visits (limit n) n).map place).getLastD 1 ∧
    (Nat.nth Nat.Prime (n - 1) ≤ limit n →
      nthPrimeWithin limit n = Nat.nth Nat.Prime (n - 1) ∧
      (visits (limit n) n).map place = List.range' 2 (Nat.nth Nat.Prime (n - 1) - 1)) ∧
    ∀ v ∈ visits (limit n) n, v.place ≤ limit n →
      (isMarked v.cells v.place = false ↔ v.place.Prime) ∧ v.count = Nat.primeCounting' v.place := by
  have sought : nthPrimeWithin limit n = primeUpTo (limit n) n := if_neg (by omega)
  refine ⟨sought.trans (primeUpTo_eq_last _ _), ?_, ?_⟩
  · intro reaches
    exact ⟨sought.trans (primeUpTo_eq_nth (by omega) reaches), places_visits (by omega) reaches⟩
  · intro v visited within
    have sieved : v.Sieved (limit n) := (Sieved.first (limit n)).onward (Nat.add_comm 2 _).le v visited
    exact ⟨sieved.unmarked_iff_prime within, sieved.count⟩

/-- The fifth prime, with the limit that belongs to five; on the way nine is found marked, after four primes. -/
theorem finds_fifth_prime :
    nthPrimeWithin (fun _ => 13) 5 = 11 ∧ (visits 13 5).map place = [2, 3, 4, 5, 6, 7, 8, 9, 10, 11] ∧
      ∃ v ∈ visits 13 5, v.place = 9 ∧ isMarked v.cells 9 = true ∧ v.count = 4 := by
  have eleven : Nat.nth Nat.Prime (5 - 1) = 11 := Nat.nth_count (p := Nat.Prime) (n := 11) (by norm_num)
  obtain ⟨-, found, each⟩ := finds_nth_prime (fun _ => 13) 5 (by decide)
  obtain ⟨prime, places⟩ := found (by rw [eleven]; decide)
  rw [eleven] at prime places
  have passed : 9 ∈ (visits 13 5).map place := by
    rw [places]
    decide
  obtain ⟨v, visited, nine⟩ := List.mem_map.mp passed
  obtain ⟨unmarked, count⟩ := each v visited (by rw [nine]; decide)
  rw [nine] at unmarked count
  refine ⟨prime, places, v, visited, nine, ?_, ?_⟩
  · rw [← Bool.not_eq_false, unmarked]
    norm_num
  · rw [count, Nat.primeCounting']
    norm_num [Nat.count_succ]

end BytecodeBench.Sieve
