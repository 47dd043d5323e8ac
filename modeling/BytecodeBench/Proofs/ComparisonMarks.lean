import BytecodeBench.Proofs.CoverageLevels
import BytecodeBench.Proofs.Watching

/-! The marks of a comparison. Two integers that are not negative leave a mark for that, and one for each
leading byte that their words share. Two negative integers have a sign in common as well and leave no
mark, however alike they are. -/

namespace BytecodeBench.Coverage

variable {c after : Coverage} {place : Nat} {a b : Int}

/-! Cells. -/

/-- Each of some cells was hit once more, and no other. -/
structure Hits (c : Coverage) (places : List Nat) (after : Coverage) : Prop where
  size : after.size = c.size
  count : ∀ i, after.count i = if i ∈ places then min (c.count i + 1) 255 else c.count i

theorem Hits.refl (c : Coverage) : Hits c [] c := ⟨rfl, fun i => by simp⟩

private theorem count_empty (size i : Nat) : (empty size).count i = 0 := by
  unfold count empty
  rw [Array.getD_eq_getD_getElem?, Array.getElem?_replicate]
  split <;> rfl

private theorem hit_eq (inside : place < c.size) :
    c.hit place = .ok ⟨c.cells.modify place fun n => min (n + 1) 255, place⟩ := by
  have forward : ¬(place : Int) < 0 := by omega
  have found : Position.fromEitherEnd c.size place = some place := by
    simp [Position.fromEitherEnd, forward, inside]
  simp [hit, found]

private theorem hits_one (inside : place < c.size) : ∃ after, c.hit place = .ok after ∧ Hits c [place] after := by
  refine ⟨_, hit_eq inside, by simp [size], ?_⟩
  intro i
  have cell : (c.cells.modify place fun n => min (n + 1) 255)[i]? =
      if place = i then (c.cells[i]?).map fun n => min (n + 1) 255 else c.cells[i]? := Array.getElem?_modify
  unfold count
  rw [Array.getD_eq_getD_getElem?, Array.getD_eq_getD_getElem?, cell]
  by_cases same : place = i
  · subst same
    simp [getElem?_cells inside]
  · simp [same, Ne.symm same]

theorem Hits.trans {middle : Coverage} {first rest : List Nat} (before : Hits c first middle)
    (following : Hits middle rest after) (apart : ∀ i ∈ first, i ∉ rest) : Hits c (first ++ rest) after := by
  refine ⟨following.size.trans before.size, ?_⟩
  intro i
  rw [following.count, before.count]
  by_cases early : i ∈ first
  · simp [early, apart i early]
  · simp [early]

/-- Different cells that a map has are all hit, each of them once. -/
theorem hitAll_hits {places : List Nat} (distinct : places.Nodup) (inside : ∀ i ∈ places, i < c.size) :
    ∃ after, c.hitAll (places.map Nat.cast) = (after, none) ∧ Hits c places after := by
  induction places generalizing c with
  | nil => exact ⟨c, rfl, Hits.refl c⟩
  | cons place places ih =>
    obtain ⟨own, others⟩ := List.nodup_cons.mp distinct
    obtain ⟨here, later⟩ := List.forall_mem_cons.mp inside
    obtain ⟨middle, done, one⟩ := hits_one here
    obtain ⟨after, all, rest⟩ := ih others fun i member => one.size ▸ later i member
    refine ⟨after, ?_, one.trans rest ?_⟩
    · rw [List.map_cons, hitAll, done]
      exact all
    · intro i member
      rw [List.mem_singleton.mp member]
      exact own

/-! Bytes. -/

/-- A byte of the word of 32 bits that stands for an integer, counted from the most significant one. -/
def leadingByte (n : Int) (i : Nat) : BitVec 8 := (BitVec.ofInt 32 n).extractLsb' (24 - 8 * i) 8

/-- Two words share exactly so many of their three upper bytes, from the most significant one on. -/
structure Share (a b : Int) (bytes : Nat) : Prop where
  few : bytes ≤ 3
  same : ∀ i < bytes, leadingByte a i = leadingByte b i
  apart : bytes < 3 → leadingByte a bytes ≠ leadingByte b bytes

def SameSign (a b : Int) : Prop := a < 0 ↔ b < 0

private theorem toNat_leadingByte {i : Nat} (positive : 0 ≤ a) (upper : i < 3) :
    (leadingByte a i).toNat = byteAt a.toNat (24 - 8 * i) := by
  obtain ⟨n, rfl⟩ := Int.eq_ofNat_of_zero_le positive
  have word : (BitVec.ofInt 32 n).toNat = n % 4294967296 := by simp
  have bytes : i = 0 ∨ i = 1 ∨ i = 2 := by omega
  unfold leadingByte byteAt
  rw [BitVec.extractLsb'_toNat, word, Nat.shiftRight_eq_div_pow, Int.toNat_natCast]
  rcases bytes with rfl | rfl | rfl
  · change n % 4294967296 / 16777216 % 256 = n / 16777216 % 256
    omega
  · change n % 4294967296 / 65536 % 256 = n / 65536 % 256
    omega
  · change n % 4294967296 / 256 % 256 = n / 256 % 256
    omega

theorem leadingByte_eq_iff {i : Nat} (left : 0 ≤ a) (right : 0 ≤ b) (upper : i < 3) :
    leadingByte a i = leadingByte b i ↔ byteAt a.toNat (24 - 8 * i) = byteAt b.toNat (24 - 8 * i) := by
  rw [← BitVec.toNat_inj, toNat_leadingByte left upper, toNat_leadingByte right upper]

/-- The bytes are compared one after the other, up to the first that differs. -/
theorem share_takeWhile (left : 0 ≤ a) (right : 0 ≤ b) :
    Share a b ([24, 16, 8].takeWhile fun shift => byteAt a.toNat shift == byteAt b.toNat shift).length := by
  have first := leadingByte_eq_iff left right (i := 0) (by omega)
  have second := leadingByte_eq_iff left right (i := 1) (by omega)
  have third := leadingByte_eq_iff left right (i := 2) (by omega)
  by_cases one : byteAt a.toNat 24 = byteAt b.toNat 24
  · by_cases two : byteAt a.toNat 16 = byteAt b.toNat 16
    · by_cases three : byteAt a.toNat 8 = byteAt b.toNat 8
      · simp only [List.takeWhile, one, two, three, beq_self_eq_true, List.length_cons, List.length_nil]
        refine ⟨le_rfl, ?_, fun more => absurd more (lt_irrefl _)⟩
        intro i below
        obtain rfl | rfl | rfl : i = 0 ∨ i = 1 ∨ i = 2 := by omega
        · exact first.mpr one
        · exact second.mpr two
        · exact third.mpr three
      · simp only [List.takeWhile, one, two, beq_self_eq_true, beq_eq_false_iff_ne.mpr three, List.length_cons,
          List.length_nil]
        refine ⟨by omega, ?_, fun _ same => three (third.mp same)⟩
        intro i below
        obtain rfl | rfl : i = 0 ∨ i = 1 := by omega
        · exact first.mpr one
        · exact second.mpr two
    · simp only [List.takeWhile, one, beq_self_eq_true, beq_eq_false_iff_ne.mpr two, List.length_cons, List.length_nil]
      refine ⟨by omega, ?_, fun _ same => two (second.mp same)⟩
      intro i below
      obtain rfl : i = 0 := by omega
      exact first.mpr one
  · simp only [List.takeWhile, beq_eq_false_iff_ne.mpr one, List.length_nil]
    exact ⟨by omega, fun i below => absurd below (Nat.not_lt_zero i), fun _ same => one (first.mp same)⟩

/-! Comparisons. -/

def dueMarks (place bytes : Nat) : List Nat := (place + 4) :: (List.range bytes).map (place + 1 + ·)

private theorem dueMarks_distinct {bytes : Nat} (few : bytes ≤ 3) : (dueMarks place bytes).Nodup := by
  refine List.nodup_cons.mpr ⟨?_, List.nodup_range.map fun _ _ same => Nat.add_left_cancel same⟩
  intro member
  obtain ⟨i, inside, same⟩ := List.mem_map.mp member
  have below := List.mem_range.mp inside
  omega

private theorem dueMarks_inside {bytes size : Nat} (few : bytes ≤ 3) (room : place + 4 < size) :
    ∀ i ∈ dueMarks place bytes, i < size := by
  refine List.forall_mem_cons.mpr ⟨room, ?_⟩
  intro i member
  obtain ⟨j, inside, rfl⟩ := List.mem_map.mp member
  have below := List.mem_range.mp inside
  omega

/-- A comparison has left its marks: for a common sign, and for each leading byte that is shared then. -/
def Marked (c : Coverage) (place : Nat) (a b : Int) (after : Coverage) : Prop :=
  (SameSign a b → ∃ bytes, Share a b bytes ∧ Hits c (dueMarks place bytes) after) ∧ (¬SameSign a b → Hits c [] after)

private theorem compareIntegers_nonnegative (left : 0 ≤ a) (right : 0 ≤ b) :
    ∃ bytes, Share a b bytes ∧
      c.compareIntegers place (.int a) (.int b) = c.hitAll ((dueMarks place bytes).map Nat.cast) := by
  refine ⟨_, share_takeWhile left right, ?_⟩
  have judged : bothNonNegative (.int a) (.int b) = .ok (decide (0 ≤ a ∧ 0 ≤ b)) := bothNonNegative_integer rfl rfl
  have marks : integerMarks a b = 4 :: (List.range ([24, 16, 8].takeWhile fun shift =>
      byteAt a.toNat shift == byteAt b.toNat shift).length).map fun i : Nat => (i : Int) + 1 := by
    simp [integerMarks, left, right]
  unfold compareIntegers
  rw [judged, decide_eq_true ⟨left, right⟩]
  dsimp only [Datum.integer?]
  rw [marks]
  congr 1
  simp [dueMarks, Int.add_comm 1, Int.add_assoc]

theorem compareIntegers_negative (negative : a < 0 ∨ b < 0) : c.compareIntegers place (.int a) (.int b) = (c, none) := by
  have judged : bothNonNegative (.int a) (.int b) = .ok (decide (0 ≤ a ∧ 0 ≤ b)) := bothNonNegative_integer rfl rfl
  have unmarked : ¬(0 ≤ a ∧ 0 ≤ b) := by omega
  unfold compareIntegers
  rw [judged, decide_eq_false unmarked]

private theorem negatives_unmarked (left : a < 0) (right : b < 0) (fresh : c.count (place + 4) = 0) :
    ¬∃ after, c.compareIntegers place (.int a) (.int b) = (after, none) ∧ Marked c place a b after := by
  rintro ⟨after, done, marked⟩
  rw [compareIntegers_negative (Or.inl left)] at done
  cases done
  obtain ⟨bytes, -, hits⟩ := marked.1 ⟨fun _ => right, fun _ => left⟩
  have counted := hits.count (place + 4)
  simp [dueMarks, fresh] at counted

/-- A comparison leaves the marks that it ought to exactly if its sides are not both negative; if they are, it leaves
none. -/
theorem integers_marked_iff_not_both_negative (place size : Nat) (room : place + 4 < size) (a b : Int) :
    ((∀ c : Coverage, c.size = size →
      ∃ after, c.compareIntegers place (.int a) (.int b) = (after, none) ∧ Marked c place a b after) ↔ ¬(a < 0 ∧ b < 0)) ∧
    (a < 0 ∧ b < 0 → ∀ c : Coverage, c.compareIntegers place (.int a) (.int b) = (c, none)) := by
  refine ⟨⟨?_, ?_⟩, fun negative c => compareIntegers_negative (Or.inl negative.1)⟩
  · rintro marked ⟨left, right⟩
    exact negatives_unmarked left right (count_empty size _) (marked (empty size) (size_empty size))
  · rintro mixed c rfl
    by_cases both : 0 ≤ a ∧ 0 ≤ b
    · obtain ⟨left, right⟩ := both
      obtain ⟨bytes, share, same⟩ := compareIntegers_nonnegative left right
      obtain ⟨after, done, hits⟩ := hitAll_hits (dueMarks_distinct share.few) (dueMarks_inside share.few room)
      refine ⟨after, same.trans done, fun _ => ⟨bytes, share, hits⟩, fun other => absurd ?_ other⟩
      exact ⟨fun negative => absurd left (Int.not_le.mpr negative), fun negative => absurd right (Int.not_le.mpr negative)⟩
    · refine ⟨c, compareIntegers_negative (by omega), ?_, fun _ => Hits.refl c⟩
      intro same
      unfold SameSign at same
      omega

/-- Three bytes on the way to a constant. -/
theorem constant_nearly_met : 7 + 4 < 1024 ∧ ∀ c : Coverage, c.size = 1024 →
    ∃ after, c.compareIntegers 7 (.int 0x12345678) (.int 0x12345600) = (after, none) ∧
      Marked c 7 0x12345678 0x12345600 after := by
  have room : 7 + 4 < 1024 := by decide
  obtain ⟨marked, -⟩ := integers_marked_iff_not_both_negative 7 1024 room 0x12345678 0x12345600
  exact ⟨room, marked.mpr (by decide)⟩

/-- An integer that is negative is not even marked against itself. -/
theorem equal_negatives_unmarked : ¬∃ after,
    (empty 1024).compareIntegers 0 (.int (-1)) (.int (-1)) = (after, none) ∧ Marked (empty 1024) 0 (-1) (-1) after :=
  negatives_unmarked (by decide) (by decide) (count_empty _ _)

end BytecodeBench.Coverage
