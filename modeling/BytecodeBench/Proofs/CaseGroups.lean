import BytecodeBench.Case
import BytecodeBench.Proofs.ComparisonSorts
import BytecodeBench.Proofs.Tables
import BytecodeBench.Proofs.TypeOrder
import Mathlib.Data.List.Induction
import Mathlib.Data.List.Nodup

/-! Cases by method. Grouping puts every case in the group of its method, behind those that came before it, and loses
none. Sorting, however it is done, only arranges the groups, and since no two of them are of one method there is only one
arrangement. -/

namespace BytecodeBench

namespace Table

variable {κ ν : Type} [BEq κ]

/-- With no key repeated, each row is what is found under its key. -/
theorem mem_iff_find? [LawfulBEq κ] {table : Table κ ν} (distinct : (table.map Prod.fst).Nodup) {key : κ} {value : ν} :
    (key, value) ∈ table ↔ table.find? key = some value := by
  induction table with
  | nil => simp [Table.find?]
  | cons row table ih =>
    obtain ⟨other, held⟩ := row
    obtain ⟨single, rest⟩ := List.nodup_cons.mp distinct
    rw [find?_cons, List.mem_cons, Prod.mk.injEq, ih rest]
    by_cases same : key = other
    · subst same
      have absent : Table.find? key table ≠ some value := by
        intro found
        exact single (List.mem_map.mpr ⟨(key, value), (ih rest).mpr found, rfl⟩)
      simp only [BEq.rfl, ↓reduceIte, absent, true_and, or_false, Option.some.injEq, eq_comm]
    · simp [same]

/-- Adding an item to the list under a key adds it to all lists together. -/
theorem flatMap_update_perm {α : Type} (key : κ) (item : α) (table : Table κ (List α)) :
    ((table.update key [] (· ++ [item])).flatMap Prod.snd).Perm (table.flatMap Prod.snd ++ [item]) := by
  induction table with
  | nil => simp [Table.update, Table.insert, Table.find?]
  | cons row table ih =>
    obtain ⟨other, held⟩ := row
    rw [Table.update, find?_cons, Table.insert]
    split
    · simpa using (List.perm_append_singleton item (table.flatMap Prod.snd)).symm.append_left held
    · simpa [Table.update] using ih.append_left held

end Table

namespace Case

variable {cases other : List Case} {groups others : Table AbsMethodId (List Case)}

def casesOf (id : AbsMethodId) (cases : List Case) : List Case := cases.filter (·.method = id)

theorem group_concat (cases : List Case) (c : Case) :
    group (cases ++ [c]) = (group cases).update c.method [] (· ++ [c]) := List.foldl_append

private theorem casesOf_concat (id : AbsMethodId) (cases : List Case) (c : Case) :
    casesOf id (cases ++ [c]) = casesOf id cases ++ if c.method = id then [c] else [] := by
  simp [casesOf, List.filter_cons]

private theorem find?_group (id : AbsMethodId) (cases : List Case) :
    (group cases).find? id = if casesOf id cases = [] then none else some (casesOf id cases) := by
  induction cases using List.reverseRecOn with
  | nil => rfl
  | append_singleton cases c ih =>
    rw [group_concat, Table.update, Table.find?_insert, casesOf_concat]
    by_cases own : c.method = id
    · subst own
      rw [if_pos BEq.rfl, ih]
      by_cases first : casesOf c.method cases = []
      · simp [first]
      · simp [first]
    · have apart : (id == c.method) = false := beq_false_of_ne (Ne.symm own)
      simp [apart, own, ih]

theorem group_nodup (cases : List Case) : ((group cases).map Prod.fst).Nodup := by
  induction cases using List.reverseRecOn with
  | nil => exact List.nodup_nil
  | append_singleton cases c ih =>
    rw [group_concat]
    exact Table.nodup_insert ih

theorem mem_group {id : AbsMethodId} {own : List Case} :
    (id, own) ∈ group cases ↔ own ≠ [] ∧ own = casesOf id cases := by
  rw [Table.mem_iff_find? (group_nodup cases), find?_group]
  split
  next none => simp [none]
  next some =>
    rw [Option.some.injEq]
    constructor
    · rintro rfl
      exact ⟨some, rfl⟩
    · exact fun both => both.2.symm

private theorem group_perm (cases : List Case) : ((group cases).flatMap Prod.snd).Perm cases := by
  induction cases using List.reverseRecOn with
  | nil => exact List.Perm.nil
  | append_singleton cases c ih =>
    rw [group_concat]
    exact (Table.flatMap_update_perm c.method c (group cases)).trans (ih.append_right [c])

/-- Lists with the same cases of each method have the same groups. -/
theorem group_congr (same : ∀ id, casesOf id other = casesOf id cases) : (group other).Perm (group cases) := by
  refine (List.perm_ext_iff_of_nodup (group_nodup other).of_map (group_nodup cases).of_map).mpr ?_
  rintro ⟨id, own⟩
  rw [mem_group, mem_group, same id]

/-! Sorted groups. -/

section Sorted

variable {sort again : Sorting.Procedure (AbsMethodId × List Case)} (arranges : Sorting.Arranges sort)
include arranges

theorem byMethod_perm (done : byMethod sort cases = .ok groups) : groups.Perm (group cases) := arranges.perm done

private theorem byMethod_nodup (done : byMethod sort cases = .ok groups) : (groups.map Prod.fst).Nodup :=
  ((byMethod_perm arranges done).map Prod.fst).nodup_iff.mpr (group_nodup cases)

theorem byMethod_chain (done : byMethod sort cases = .ok groups) :
    (groups.map Prod.fst).IsChain fun m n => m.relate .lt n = .ok true := by
  have ordered : (groups.map Prod.fst).IsChain (Sorting.InOrder (AbsMethodId.relate .lt)) :=
    (List.isChain_map Prod.fst).mpr (arranges.inOrder done)
  have distinct := byMethod_nodup arranges done
  rw [List.isChain_iff_forall_rel_of_append_cons_cons] at ordered ⊢
  intro m n before after whole
  rw [whole] at distinct
  have apart : m ≠ n := List.ne_of_not_mem_cons (List.nodup_cons.mp (List.nodup_append.mp distinct).2.1).1
  rcases ordered whole with less | notLess
  · exact less
  · exact AbsMethodId.relate_of_not_less notLess apart

private theorem byMethod_rising (done : byMethod sort cases = .ok groups) :
    groups.Pairwise fun a b => a.1.rank < b.1.rank := by
  have chain := (byMethod_chain arranges done).imp fun _ _ less => AbsMethodId.rank_lt_of_relate less
  exact ((List.isChain_map Prod.fst).mp chain).pairwise

/-- Groups of different methods can only be arranged in one way. -/
theorem byMethod_unique (arrangesAgain : Sorting.Arranges again) (done : byMethod sort cases = .ok groups)
    (also : byMethod again other = .ok others) (same : ∀ id, casesOf id other = casesOf id cases) : others = groups := by
  -- Both lists rise strictly, so no two groups can have changed places.
  have rearranged : others.Perm groups :=
    (byMethod_perm arrangesAgain also).trans ((group_congr same).trans (byMethod_perm arranges done).symm)
  refine rearranged.eq_of_pairwise ?_ (byMethod_rising arrangesAgain also) (byMethod_rising arranges done)
  intro a b _ _ less greater
  exact absurd greater less.asymm

end Sorted

/-- The same cases in another order, those of each method in the same one. -/
def Rearranged (other cases : List Case) : Prop := other.Perm cases ∧ ∀ id, casesOf id other = casesOf id cases

/-- Groups by method divide the cases, and depend on nothing but the order of the cases of each method, whatever
procedure sorts them. -/
theorem groups_divide_cases {sort : Sorting.Procedure (AbsMethodId × List Case)} (arranges : Sorting.Arranges sort)
    (done : byMethod sort cases = .ok groups) :
    (groups.map Prod.fst).Nodup ∧
    ((groups.map Prod.fst).IsChain fun m n => m.relate .lt n = .ok true) ∧
    (∀ id own, (id, own) ∈ groups → own ≠ [] ∧ own = casesOf id cases) ∧
    (groups.flatMap Prod.snd).Perm cases ∧
    ∀ again other others, Sorting.Arranges again → Rearranged other cases → byMethod again other = .ok others →
      others = groups := by
  refine ⟨byMethod_nodup arranges done, byMethod_chain arranges done, ?_, ?_, ?_⟩
  · intro id own member
    exact mem_group.mp ((byMethod_perm arranges done).mem_iff.mp member)
  · exact ((byMethod_perm arranges done).flatMap_right Prod.snd).trans (group_perm cases)
  · intro again other others arrangesAgain rearranged also
    exact byMethod_unique arranges arrangesAgain done also rearranged.2

def sampleMethod (name : String) (params : Parameters) : AbsMethodId := ⟨⟨"a.B"⟩, ⟨name, params, none⟩⟩

def sampleCase (name : String) (value : Value) (result : String) : Case :=
  ⟨sampleMethod name [value.type], ⟨[value]⟩, result⟩

/-- Cases of an overloaded method with a case of another one between them. -/
def sampleCases : List Case := [
  sampleCase "m" (.array .int [.int 1, .int 2]) "ok",
  sampleCase "k" (.boolean true) "*",
  sampleCase "m" (.int 0) "divide by zero",
  sampleCase "m" (.array .int []) "out of bounds"]

def sampleGroups : Table AbsMethodId (List Case) := [
  (sampleMethod "k" [.boolean], [sampleCase "k" (.boolean true) "*"]),
  (sampleMethod "m" [.int], [sampleCase "m" (.int 0) "divide by zero"]),
  (sampleMethod "m" [.array .int], [sampleCase "m" (.array .int [.int 1, .int 2]) "ok",
    sampleCase "m" (.array .int []) "out of bounds"])]

theorem sampleGroups_divide_sampleCases :
    byMethod Sorting.sort sampleCases = .ok sampleGroups ∧ (sampleGroups.map Prod.fst).Nodup ∧
      (sampleGroups.flatMap Prod.snd).Perm sampleCases := by
  have done : byMethod Sorting.sort sampleCases = .ok sampleGroups := by with_unfolding_all rfl
  obtain ⟨distinct, -, -, whole, -⟩ := groups_divide_cases Sorting.sorts.toArranges done
  exact ⟨done, distinct, whole⟩

end Case
end BytecodeBench
