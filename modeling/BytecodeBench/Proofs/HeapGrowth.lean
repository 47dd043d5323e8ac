import BytecodeBench.Machine.Plain
import BytecodeBench.Proofs.Computations
import BytecodeBench.Proofs.Tables

/-! How the heap of a machine grows. Entries are numbered from zero in the order of their allocation,
and neither an entry nor the reference of a literal ever changes. What is kept of a string is left
open: the laws hold for texts as they do for signs. -/

namespace BytecodeBench.State

variable {L : Type}

/-- The part of a state that the laws of the heap are about. -/
def memory (s : State L) : Table Operand Datum × Int × Table L Int := (s.heap, s.next, s.pool)

theorem memory_proceedWith (s : State L) (f : Frame) (stack : List Slot) :
    (s.proceedWith f stack).memory = s.memory := rfl

theorem memory_branch (s : State L) (f : Frame) (stack : List Slot) (target : Operand) (taken : Bool) :
    (s.branch f stack target taken).memory = s.memory := by
  cases taken <;> rfl

theorem memory_leave (s : State L) (result : List Slot) : (s.leave result).1.memory = s.memory := by
  simp only [leave]
  split <;> rfl

/-! The effects that all machines share leave the heap alone. -/

theorem increment_memory (s : State L) (f : Frame) (index amount : Operand) :
    Yields (fun after => after.memory = s.memory) (s.increment f index amount) := by
  refine .bind fun type _ => ?_
  split
  · exact .bind fun _ _ => .bind fun _ _ => .pure rfl
  · exact .throw

theorem pop_memory (s : State L) (f : Frame) : Yields (fun after => after.memory = s.memory) (s.pop f) := by
  unfold pop
  split
  · exact .pure rfl
  · exact .throw

theorem load_memory (s : State L) (f : Frame) (index : Operand) :
    Yields (fun after => after.memory = s.memory) (s.load f index) := by
  unfold load
  split
  · exact .pure rfl
  · exact .throw

theorem store_memory (s : State L) (f : Frame) (index : Operand) :
    Yields (fun after => after.memory = s.memory) (s.store f index) := by
  unfold store
  split
  · exact .pure rfl
  · exact .throw

theorem duplicate_memory (s : State L) (f : Frame) :
    Yields (fun after => after.memory = s.memory) (s.duplicate f) := by
  unfold duplicate
  split
  · exact .pure rfl
  · exact .throw

theorem combined_memory (s : State L) (op : ArrayStore → Datum → Datum → Except Fault (Datum × ArrayStore))
    (a b : Slot) : Yields (fun result => result.2.memory = s.memory) (s.combined op a b) := by
  refine .bind fun _ _ => ?_
  split
  · refine .bind fun _ _ => ?_
    split
    · exact .bind fun _ _ => .bind fun _ _ => .bind fun _ _ => .pure rfl
    · exact .throw
  · exact .throw

/-- A new entry is found under the reference that allocation gives. -/
theorem alloc_entry (s : State L) (d : Datum) : (s.alloc d).2.heap.find? (.number s.next) = some d :=
  Table.find?_insert_self _ _ _

variable [BEq L] {content : L → Datum} {s : State L}

/-- A heap that only allocation has written to. -/
structure HeapValid (content : L → Datum) (s : State L) : Prop where
  counted : 0 ≤ s.next
  keys : s.heap.map Prod.fst = (List.range s.next.toNat).map fun n : Nat => Operand.number n
  /-- Nothing but strings is kept, so an entry cannot change from within. -/
  entries : ∀ ref d, s.heap.find? ref = some d → ∃ literal, d = content literal
  pooled : ∀ literal ref, s.pool.find? literal = some ref →
    0 ≤ ref ∧ ref < s.next ∧ s.heap.find? (.number ref) = some (content literal)

structure HeapGrows (before after : State L) : Prop where
  next : before.next ≤ after.next
  heap : ∀ ref d, before.heap.find? ref = some d → after.heap.find? ref = some d
  pool : ∀ literal ref, before.pool.find? literal = some ref → after.pool.find? literal = some ref

theorem HeapGrows.refl (s : State L) : HeapGrows s s :=
  ⟨Int.le_refl _, fun _ _ found => found, fun _ _ found => found⟩

theorem HeapGrows.trans {before middle after : State L}
    (first : HeapGrows before middle) (last : HeapGrows middle after) : HeapGrows before after :=
  ⟨Int.le_trans first.next last.next, fun ref d found => last.heap ref d (first.heap ref d found),
    fun literal ref found => last.pool literal ref (first.pool literal ref found)⟩

theorem HeapValid.of_memory {after : State L} (valid : HeapValid content s) (same : after.memory = s.memory) :
    HeapValid content after := by
  simp only [memory, Prod.mk.injEq] at same
  obtain ⟨heap, next, pool⟩ := same
  constructor
  · rw [next]; exact valid.counted
  · rw [heap, next]; exact valid.keys
  · rw [heap]; exact valid.entries
  · rw [heap, next, pool]; exact valid.pooled

theorem HeapGrows.of_memory {before after : State L} (grows : HeapGrows before s) (same : after.memory = s.memory) :
    HeapGrows before after := by
  simp only [memory, Prod.mk.injEq] at same
  obtain ⟨heap, next, pool⟩ := same
  constructor
  · rw [next]; exact grows.next
  · rw [heap]; exact grows.heap
  · rw [pool]; exact grows.pool

theorem HeapValid.initial (content : L → Datum) (method : AbsMethodId) (args : List Value) (arrays : ArrayStore) :
    HeapValid content (State.ofCall method args arrays) := by
  constructor
  · exact Int.le_refl 0
  · rfl
  · intro ref d found; cases found
  · intro literal ref found; cases found

/-- No entry stands where the next one will be. -/
theorem HeapValid.absent (valid : HeapValid content s) : s.heap.find? (.number s.next) = none := by
  apply List.lookup_eq_none_iff.mpr
  intro row member
  have key : row.1 ∈ s.heap.map Prod.fst := List.mem_map_of_mem member
  rw [valid.keys] at key
  obtain ⟨n, small, same⟩ := List.mem_map.mp key
  rw [← same]
  have below := List.mem_range.mp small
  have apart : (s.next == (n : Int)) = false := by
    apply beq_false_of_ne
    omega
  rw [bne, Operand.beq_number, apart]
  rfl

/-- The references of different literals are different, as long as their contents are. -/
theorem HeapValid.pool_injective (valid : HeapValid content s) (distinct : content.Injective)
    {first second : L} {ref : Int} (one : s.pool.find? first = some ref) (other : s.pool.find? second = some ref) :
    first = second := by
  have kept := (valid.pooled first ref one).2.2
  rw [(valid.pooled second ref other).2.2] at kept
  exact (distinct (Option.some.inj kept)).symm

theorem HeapValid.alloc_grows (valid : HeapValid content s) (d : Datum) : HeapGrows s (s.alloc d).2 := by
  refine ⟨?_, ?_, fun _ _ found => found⟩
  · simp only [alloc]; omega
  · intro ref held found
    simp only [alloc]
    rw [Table.find?_insert]
    split
    next same =>
      have absent : s.heap.find? ref = none := by
        rw [Table.find?_congr same]
        exact valid.absent
      rw [absent] at found
      cases found
    · exact found

theorem HeapValid.alloc (valid : HeapValid content s) (literal : L) :
    HeapValid content (s.alloc (content literal)).2 := by
  have grows := valid.alloc_grows (content literal)
  constructor
  · have := valid.counted
    simp only [State.alloc]
    omega
  · have size : (s.next + 1).toNat = s.next.toNat + 1 := by have := valid.counted; omega
    have number : Operand.number s.next = Operand.number (s.next.toNat : Int) := by
      rw [Int.toNat_of_nonneg valid.counted]
    have heap : (s.alloc (content literal)).2.heap = s.heap ++ [(.number s.next, content literal)] :=
      Table.insert_of_absent _ valid.absent
    have next : (s.alloc (content literal)).2.next = s.next + 1 := rfl
    rw [heap, next, size, List.map_append, valid.keys, List.range_succ, List.map_append, number]
    rfl
  · intro ref d found
    simp only [State.alloc] at found
    rw [Table.find?_insert] at found
    split at found
    · cases found; exact ⟨literal, rfl⟩
    · exact valid.entries ref d found
  · intro pooled ref found
    obtain ⟨least, below, held⟩ := valid.pooled pooled ref found
    exact ⟨least, Int.lt_of_lt_of_le below grows.next, grows.heap _ _ held⟩

theorem intern_frames (s : State L) (literal : L) (d : Datum) :
    (s.intern literal d).2.frames = s.frames ∧ (s.intern literal d).2.arrays = s.arrays := by
  unfold State.intern
  split
  · exact ⟨rfl, rfl⟩
  · exact ⟨rfl, rfl⟩

section Interning

variable [LawfulBEq L]

/-- A literal stands for its content, under the reference that the pool has for it. -/
structure Interned (content : L → Datum) (s : State L) (literal : L) (slot : Slot) (ref : Int) : Prop where
  slot : slot = .reference (.int ref)
  pool : s.pool.find? literal = some ref
  heap : s.heap.find? (.number ref) = some (content literal)

theorem HeapValid.intern (valid : HeapValid content s) (literal : L) :
    HeapValid content (s.intern literal (content literal)).2 ∧
      HeapGrows s (s.intern literal (content literal)).2 ∧
      ∃ ref, Interned content (s.intern literal (content literal)).2 literal
        (s.intern literal (content literal)).1 ref := by
  unfold State.intern
  split
  next ref found => exact ⟨valid, .refl s, ref, rfl, found, (valid.pooled literal ref found).2.2⟩
  next absent =>
    -- The entry is in place before the pool refers to it.
    have fresh := valid.alloc literal
    have grows := valid.alloc_grows (content literal)
    refine ⟨⟨fresh.counted, fresh.keys, fresh.entries, ?_⟩, ⟨grows.next, grows.heap, ?_⟩, s.next, rfl, ?_, alloc_entry _ _⟩
    · intro other ref found
      dsimp only at found
      rw [Table.find?_insert] at found
      split at found
      next same =>
        cases found
        rw [eq_of_beq same]
        have next : (s.alloc (content literal)).2.next = s.next + 1 := rfl
        exact ⟨valid.counted, by dsimp only; omega, alloc_entry _ _⟩
      · exact fresh.pooled other ref found
    · intro other ref found
      dsimp only
      rw [Table.find?_insert]
      split
      next same =>
        rw [eq_of_beq same, absent] at found
        cases found
      · exact found
    · exact Table.find?_insert_self _ _ _

end Interning

end BytecodeBench.State
