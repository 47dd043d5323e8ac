import BytecodeBench.Proofs.Handles
import BytecodeBench.Proofs.Programs
import BytecodeBench.Proofs.Tables

/-! Programs whose constants mention no arrays but those that the program comes with. Any code is made into
such a program when the lists among its constants are moved to a store. -/

namespace BytecodeBench

namespace Operation

def constants : Operation → List Datum
  | .push v => [v.content]
  | _ => []

def ConstantBelow (bound : Nat) (operation : Operation) : Prop := ∀ d ∈ operation.constants, d.Below bound

def Writes : Operation → Prop
  | .arrayStore _ => True
  | _ => False

end Operation

namespace Program

def ReadOnly (program : Program) : Prop := program.BuiltFrom fun operation => ¬ operation.Writes

/-- The constants of the code mention no arrays but those that the program comes with. -/
structure Closed (program : Program) : Prop where
  sealed : program.constants.Sealed
  below : program.BuiltFrom (Operation.ConstantBelow program.constants.cells.size)

end Program

namespace Instruction

def constants (code : List Instruction) : List Datum := code.flatMap (·.operation.constants)

theorem load_receives (i : Instruction) {store : ArrayStore} (sealed : store.Sealed)
    (below : i.operation.ConstantBelow store.cells.size) :
    store.Receives (i.load store).2 (i.load store).1.operation.constants := by
  obtain ⟨offset, operation⟩ := i
  cases operation with
  | push v => exact ArrayStore.load_receives v.content store sealed (below v.content List.mem_cons_self)
  | _ => exact .unchanged sealed (List.forall_mem_nil _)

theorem loadAll_receives {code : List Instruction} {store : ArrayStore} (sealed : store.Sealed)
    (below : ∀ i ∈ code, i.operation.ConstantBelow store.cells.size) :
    store.Receives (loadAll store code).2 (constants (loadAll store code).1) := by
  induction code generalizing store with
  | nil => exact .unchanged sealed (List.forall_mem_nil _)
  | cons i rest ih =>
    obtain ⟨belowFirst, belowRest⟩ := List.forall_mem_cons.mp below
    have first := load_receives i sealed belowFirst
    refine first.append (ih first.sealed fun j member d pushed => ?_)
    exact (belowRest j member d pushed).mono first.grown.size

end Instruction

namespace Program

variable {table : Table AbsMethodId (List Instruction)}

private theorem loadTable_receives {store : ArrayStore} (sealed : store.Sealed)
    (below : ∀ row ∈ table, ∀ i ∈ row.2, i.operation.ConstantBelow store.cells.size) :
    store.Receives (loadTable store table).2 ((loadTable store table).1.flatMap fun row => Instruction.constants row.2) := by
  induction table generalizing store with
  | nil => exact .unchanged sealed (List.forall_mem_nil _)
  | cons row rest ih =>
    obtain ⟨belowFirst, belowRest⟩ := List.forall_mem_cons.mp below
    have first := Instruction.loadAll_receives sealed belowFirst
    refine first.append (ih first.sealed fun other member i inside d pushed => ?_)
    exact (belowRest other member i inside d pushed).mono first.grown.size

private theorem ofTable_code {method : AbsMethodId} {code : Array Instruction}
    (found : (ofTable table).code method = .ok code) :
    ∃ row ∈ (loadTable {} table).1, code = row.2.toArray := by
  simp only [ofTable] at found
  split at found
  next stored lookup =>
    cases found
    obtain ⟨key, member⟩ := Table.mem_of_find? lookup
    obtain ⟨row, present, same⟩ := List.mem_map.mp member
    exact ⟨row, present, (congrArg Prod.snd same).symm⟩
  · cases found

/-- Code whose constants are plain data makes a program that is closed. -/
theorem ofTable_closed (plain : ∀ row ∈ table, ∀ i ∈ row.2, i.operation.ConstantBelow 0) : (ofTable table).Closed := by
  have nothing : ArrayStore.Sealed {} := by
    intro handle items found
    cases found
  have received := loadTable_receives nothing plain
  refine ⟨received.sealed, ?_⟩
  intro method code found i inside d pushed
  obtain ⟨row, present, rfl⟩ := ofTable_code found
  apply received.below d
  exact List.mem_flatMap.mpr ⟨row, present, List.mem_flatMap.mpr ⟨i, List.mem_toArray.mp inside, pushed⟩⟩

section Allowed

variable {allowed : Operation → Prop} (stable : ∀ v content, allowed (.push v) → allowed (.push { v with content }))
include stable

private theorem load_allowed (store : ArrayStore) {i : Instruction} (built : allowed i.operation) :
    allowed (i.load store).1.operation := by
  obtain ⟨offset, operation⟩ := i
  cases operation with
  | push v => exact stable v _ built
  | _ => exact built

private theorem loadAll_allowed (store : ArrayStore) {code : List Instruction} (built : ∀ i ∈ code, allowed i.operation) :
    ∀ i ∈ (Instruction.loadAll store code).1, allowed i.operation := by
  induction code generalizing store with
  | nil => exact List.forall_mem_nil _
  | cons i rest ih =>
    obtain ⟨first, others⟩ := List.forall_mem_cons.mp built
    exact List.forall_mem_cons.mpr ⟨load_allowed stable store first, ih _ others⟩

private theorem loadTable_allowed (store : ArrayStore) (built : ∀ row ∈ table, ∀ i ∈ row.2, allowed i.operation) :
    ∀ row ∈ (loadTable store table).1, ∀ i ∈ row.2, allowed i.operation := by
  induction table generalizing store with
  | nil => exact List.forall_mem_nil _
  | cons row rest ih =>
    obtain ⟨first, others⟩ := List.forall_mem_cons.mp built
    exact List.forall_mem_cons.mpr ⟨loadAll_allowed stable store first, ih _ others⟩

/-- What is allowed whatever the constants is allowed in the program. -/
theorem ofTable_builtFrom (built : ∀ row ∈ table, ∀ i ∈ row.2, allowed i.operation) : (ofTable table).BuiltFrom allowed := by
  intro method code found i inside
  obtain ⟨row, present, rfl⟩ := ofTable_code found
  exact loadTable_allowed stable {} built row present i (List.mem_toArray.mp inside)

end Allowed
end Program
end BytecodeBench
