import BytecodeBench.Instruction.Basic
import BytecodeBench.Table

/-! Laws of tables: what is found under a key after a write, and where new keys go. Keys need not be
equal to count as the same key, so only an equivalence is assumed of them. -/

namespace BytecodeBench

theorem Operand.beq_iff {a b : Operand} : (a == b) = true ↔ a.toInt = b.toInt :=
  beq_iff_eq (α := Int)

/-- Spellings of one number are one key. -/
instance : EquivBEq Operand where
  rfl := Operand.beq_iff.mpr rfl
  symm same := Operand.beq_iff.mpr (Operand.beq_iff.mp same).symm
  trans first second := Operand.beq_iff.mpr ((Operand.beq_iff.mp first).trans (Operand.beq_iff.mp second))

@[simp] theorem Operand.beq_number (m n : Int) : (Operand.number m == Operand.number n) = (m == n) := rfl

namespace Table

variable {κ ν : Type} [BEq κ]

theorem find?_cons (key other : κ) (value : ν) (table : Table κ ν) :
    Table.find? key ((other, value) :: table) = if key == other then some value else table.find? key := by
  simp only [Table.find?, List.lookup_cons]
  cases key == other <;> rfl

theorem find?_congr [EquivBEq κ] {first second : κ} (same : first == second) (table : Table κ ν) :
    table.find? first = table.find? second := by
  induction table with
  | nil => rfl
  | cons row table ih =>
    obtain ⟨other, held⟩ := row
    rw [find?_cons, find?_cons, ih, BEq.congr_left same]

theorem mem_of_find? {key : κ} {value : ν} {table : Table κ ν} (found : table.find? key = some value) :
    ∃ other, (other, value) ∈ table := by
  induction table with
  | nil => cases found
  | cons row table ih =>
    obtain ⟨other, held⟩ := row
    rw [find?_cons] at found
    split at found
    · cases found
      exact ⟨other, List.mem_cons_self⟩
    · obtain ⟨later, member⟩ := ih found
      exact ⟨later, List.mem_cons_of_mem _ member⟩

/-- A write is found under its key and changes nothing else. -/
theorem find?_insert [EquivBEq κ] (query key : κ) (value : ν) (table : Table κ ν) :
    (table.insert key value).find? query = if query == key then some value else table.find? query := by
  induction table with
  | nil => exact find?_cons query key value []
  | cons row table ih =>
    obtain ⟨other, held⟩ := row
    simp only [Table.insert]
    by_cases same : key == other
    · have swap : (query == key) = (query == other) := BEq.congr_right same
      simp only [same, ↓reduceIte, find?_cons, swap]
      split <;> rfl
    · simp only [same, Bool.false_eq_true, ↓reduceIte, find?_cons, ih]
      by_cases held : query == other
      · have apart : (query == key) = false := by
          apply Bool.eq_false_iff.mpr
          intro found
          exact same (BEq.trans (BEq.symm found) held)
        simp [held, apart]
      · simp [held]

theorem find?_insert_self [EquivBEq κ] (key : κ) (value : ν) (table : Table κ ν) :
    (table.insert key value).find? key = some value := by
  simp [find?_insert]

theorem mem_insert [LawfulBEq κ] {key : κ} {value : ν} {table : Table κ ν} {row : κ × ν}
    (member : row ∈ table.insert key value) : row ∈ table ∨ row = (key, value) := by
  induction table with
  | nil => exact Or.inr (List.mem_singleton.mp member)
  | cons first table ih =>
    obtain ⟨other, held⟩ := first
    rw [Table.insert] at member
    split at member
    next same =>
      rcases List.mem_cons.mp member with rfl | later
      · exact Or.inr (by rw [eq_of_beq same])
      · exact Or.inl (List.mem_cons_of_mem _ later)
    · rcases List.mem_cons.mp member with rfl | later
      · exact Or.inl List.mem_cons_self
      · rcases ih later with old | new
        · exact Or.inl (List.mem_cons_of_mem _ old)
        · exact Or.inr new

theorem mem_insert_self [LawfulBEq κ] (key : κ) (value : ν) (table : Table κ ν) : (key, value) ∈ table.insert key value := by
  induction table with
  | nil => exact List.mem_singleton_self _
  | cons first table ih =>
    obtain ⟨other, held⟩ := first
    rw [Table.insert]
    split
    next same =>
      rw [eq_of_beq same]
      exact List.mem_cons_self
    · exact List.mem_cons_of_mem _ ih

/-- What is taken out is not found any more, and nothing else is lost. -/
theorem find?_filter [LawfulBEq κ] (query key : κ) (table : Table κ ν) :
    Table.find? query (table.filter fun row => row.1 != key) = if query == key then none else table.find? query := by
  induction table with
  | nil =>
    split <;> rfl
  | cons row table ih =>
    obtain ⟨other, held⟩ := row
    rw [List.filter_cons]
    by_cases same : other = key
    · subst same
      simp only [bne_self_eq_false, Bool.false_eq_true, ↓reduceIte, ih, find?_cons]
      split <;> rfl
    · have kept : (other != key) = true := bne_iff_ne.mpr same
      simp only [kept, ↓reduceIte, find?_cons, ih]
      by_cases sought : query = key
      · subst sought
        simp [Ne.symm same]
      · simp [sought]

def mapValues {μ : Type} (change : ν → μ) (table : Table κ ν) : Table κ μ := table.map fun row => (row.1, change row.2)

theorem find?_mapValues {μ : Type} (change : ν → μ) (key : κ) (table : Table κ ν) :
    (table.mapValues change).find? key = (table.find? key).map change := by
  induction table with
  | nil => rfl
  | cons row table ih =>
    obtain ⟨other, held⟩ := row
    rw [find?_cons, apply_ite (Option.map change), ← ih]
    exact find?_cons key other (change held) (mapValues change table)

theorem insert_mapValues {μ : Type} (change : ν → μ) (key : κ) (value : ν) (table : Table κ ν) :
    (table.mapValues change).insert key (change value) = (table.insert key value).mapValues change := by
  induction table with
  | nil => rfl
  | cons row table ih =>
    obtain ⟨other, held⟩ := row
    simp only [mapValues, List.map_cons, Table.insert] at ih ⊢
    split
    · rfl
    · rw [ih]
      rfl

/-- A new key goes to the end. -/
theorem insert_of_absent {key : κ} (value : ν) {table : Table κ ν} (absent : table.find? key = none) :
    table.insert key value = table ++ [(key, value)] := by
  induction table with
  | nil => rfl
  | cons row table ih =>
    obtain ⟨other, held⟩ := row
    rw [find?_cons] at absent
    split at absent
    · cases absent
    · next apart => simp [Table.insert, apart, ih absent]

/-- No key is repeated. -/
theorem nodup_insert [LawfulBEq κ] {key : κ} {value : ν} {table : Table κ ν} (distinct : (table.map Prod.fst).Nodup) :
    ((table.insert key value).map Prod.fst).Nodup := by
  induction table with
  | nil => simp [Table.insert]
  | cons first table ih =>
    obtain ⟨other, held⟩ := first
    obtain ⟨single, rest⟩ := List.nodup_cons.mp distinct
    rw [Table.insert]
    split
    · exact distinct
    next apart =>
      refine List.nodup_cons.mpr ⟨?_, ih rest⟩
      intro member
      obtain ⟨row, inside, same⟩ := List.mem_map.mp member
      rcases mem_insert inside with old | rfl
      · exact single (List.mem_map.mpr ⟨row, old, same⟩)
      · exact apart (beq_iff_eq.mpr same)

end Table
end BytecodeBench
