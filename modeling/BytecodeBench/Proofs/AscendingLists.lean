import BytecodeBench.Folder
import BytecodeBench.SourceTree.Literals
import Mathlib.Data.List.Sort
import Mathlib.Data.String.Basic

/-! Lists in ascending order without repetitions: the names in a folder and the literals of a source. Such a list is known
by its members alone. -/

namespace BytecodeBench

variable {α : Type} [BEq α] [LawfulBEq α]

private theorem eraseDups_nodup (items : List α) : items.eraseDups.Nodup := by
  cases items with
  | nil => simp
  | cons item items =>
    rw [List.eraseDups_cons, List.nodup_cons]
    refine ⟨?_, eraseDups_nodup _⟩
    simp
termination_by items.length
decreasing_by exact Nat.lt_succ_of_le (List.length_filter_le _ _)

namespace SourceFile

theorem mem_ascending {atMost : α → α → Bool} {items : List α} {a : α} : a ∈ ascending atMost items ↔ a ∈ items := by
  rw [ascending, List.mem_mergeSort, List.mem_eraseDups]

theorem sortedLT_ascending [LinearOrder α] {atMost : α → α → Bool} (order : ∀ a b, atMost a b = true ↔ a ≤ b)
    (items : List α) : (ascending atMost items).SortedLT := by
  have distinct : (ascending atMost items).Nodup := (List.mergeSort_perm _ _).nodup_iff.mpr (eraseDups_nodup items)
  have ordered : (ascending atMost items).Pairwise fun a b => atMost a b = true := by
    refine List.pairwise_mergeSort (fun a b c first second => ?_) (fun a b => ?_) _
    · rw [order] at first second ⊢
      exact first.trans second
    · rw [Bool.or_eq_true, order, order]
      exact le_total a b
  refine List.Pairwise.sortedLT ((ordered.and distinct).imp ?_)
  rintro a b ⟨le, apart⟩
  exact lt_of_le_of_ne ((order a b).mp le) apart

end SourceFile

namespace Folder

theorem mem_sortedNames {names : List String} {name : String} : name ∈ sortedNames names ↔ name ∈ names :=
  SourceFile.mem_ascending

theorem sortedNames_nodup (names : List String) : (sortedNames names).Nodup :=
  (SourceFile.sortedLT_ascending (fun _ _ => decide_eq_true_iff) names).nodup

end Folder
end BytecodeBench
