import BytecodeBench.Proofs.Computations
import BytecodeBench.Sorting
import Mathlib.Data.List.Chain

/-! Sorting by a comparison that can fail. Whatever the comparison is, a sort that ends has only rearranged the items,
and has compared any two that now stand next to each other and found them in order. A sort of items that can all be
compared ends. This is all that is asked of a procedure, and `sort` is one that does it. -/

namespace BytecodeBench.Sorting

open scoped List

variable {α : Type} {less : α → α → Except Fault Bool} {items sorted before rest result : List α} {item last : α}
  {falling : Bool} {low high i : Nat}

/-- A comparison has found two items in order: the first is less, or the second is not. -/
def InOrder (less : α → α → Except Fault Bool) (a b : α) : Prop := less a b = .ok true ∨ less b a = .ok false

/-- A procedure that only rearranges, and ends with no neighbours that it has not found in order. -/
structure Arranges (sort : Procedure α) : Prop where
  perm : ∀ {less items result}, sort less items = .ok result → result ~ items
  inOrder : ∀ {less items result}, sort less items = .ok result → result.IsChain (InOrder less)

/-- A procedure that also ends where any two items can be compared. -/
structure Sorts (sort : Procedure α) : Prop extends Arranges sort where
  ends : ∀ {less items}, (∀ a ∈ items, ∀ b ∈ items, ∃ is, less a b = .ok is) → ∃ result, sort less items = .ok result

/-! What a sort that ends has done. -/

/-- The item is not less than what stands before one position, and less than what stands at another. -/
structure Fits (less : α → α → Except Fault Bool) (items : List α) (item : α) (low high : Nat) : Prop where
  within : high ≤ items.length
  behind : ∀ j a, j + 1 = low → items[j]? = some a → less item a = .ok false
  ahead : ∀ a, items[high]? = some a → less item a = .ok true

/-- Bisection keeps both ends fitting until they meet. -/
theorem place_fits (done : place less items item low high = .ok i) (ends : low ≤ high)
    (fits : Fits less items item low high) : Fits less items item i i := by
  -- A bound of its own for each stage of the search, for the positions asked there to exist.
  have bound := fits.within
  fun_induction place less items item low high with
  | case1 low high narrow middle missing =>
    rw [List.getElem?_eq_none_iff] at missing
    omega
  | case2 low high narrow middle other found lower upper =>
    obtain ⟨is, compared, rest⟩ := bind_eq_ok.mp done
    have here {a : α} (there : items[middle]? = some a) : less item a = .ok is := by
      rw [found] at there
      cases there
      exact compared
    cases is with
    | true =>
      have closer : middle ≤ items.length := by omega
      exact lower rest (by omega) ⟨closer, fits.behind, fun a there => here there⟩ closer
    | false =>
      refine upper rest (by omega) ⟨bound, ?_, fits.ahead⟩ bound
      intro j a next there
      cases next
      exact here there
  | case3 low high met =>
    obtain rfl : low = high := by omega
    cases done
    exact fits

private theorem insert_eq_ok (done : insert less items item = .ok result) :
    ∃ i, Fits less items item i i ∧ result = items.take i ++ item :: items.drop i := by
  obtain ⟨i, found, same⟩ := bind_eq_ok.mp done
  have whole : Fits less items item 0 items.length :=
    ⟨le_rfl, fun j a impossible => absurd impossible j.succ_ne_zero, fun a there => by simp at there⟩
  cases same
  exact ⟨i, place_fits found (Nat.zero_le _) whole, rfl⟩

private theorem insert_perm (done : insert less items item = .ok result) : result ~ item :: items := by
  obtain ⟨i, -, rfl⟩ := insert_eq_ok done
  refine List.perm_middle.trans ?_
  rw [List.take_append_drop]

private theorem insert_inOrder (done : insert less items item = .ok result) (chain : items.IsChain (InOrder less)) :
    result.IsChain (InOrder less) := by
  obtain ⟨i, fits, rfl⟩ := insert_eq_ok done
  have after : (item :: items.drop i).IsChain (InOrder less) := by
    refine (chain.drop i).cons ?_
    intro a first
    rw [List.head?_drop] at first
    exact Or.inl (fits.ahead a first)
  refine (chain.take i).append after ?_
  intro a final b first
  cases first
  cases i with
  | zero => cases final
  | succ j =>
    have inside : j < items.length := fits.within
    rw [List.getLast?_take] at final
    exact Or.inr (fits.behind j a rfl (by simpa [inside] using final))

private theorem insertAll_perm (done : insertAll less sorted items = .ok result) : result ~ sorted ++ items := by
  induction items generalizing sorted with
  | nil =>
    cases done
    rw [List.append_nil]
  | cons item items ih =>
    obtain ⟨grown, inserted, rest⟩ := bind_eq_ok.mp done
    calc
      result ~ grown ++ items := ih rest
      _ ~ item :: sorted ++ items := (insert_perm inserted).append_right items
      _ ~ sorted ++ item :: items := List.perm_middle.symm

private theorem insertAll_inOrder (done : insertAll less sorted items = .ok result)
    (chain : sorted.IsChain (InOrder less)) :
    result.IsChain (InOrder less) := by
  induction items generalizing sorted with
  | nil =>
    cases done
    exact chain
  | cons item items ih =>
    obtain ⟨grown, inserted, rest⟩ := bind_eq_ok.mp done
    exact ih rest (insert_inOrder inserted chain)

private theorem run_perm (done : run less falling last before items = .ok (sorted, rest)) :
    sorted ++ rest ~ last :: before ++ items := by
  induction items generalizing last before with
  | nil =>
    cases done
    rfl
  | cons item items ih =>
    obtain ⟨is, compared, further⟩ := bind_eq_ok.mp done
    split at further
    · calc
        sorted ++ rest ~ item :: (last :: before) ++ items := ih further
        _ ~ last :: before ++ item :: items := List.perm_middle.symm
    · cases further
      rfl

/-- In a run, last item first, each item has been compared with the one before it, always with the same answer. -/
theorem run_compared (done : run less falling last before items = .ok (sorted, rest))
    (chain : (last :: before).IsChain fun new old => less new old = .ok falling) :
    sorted.IsChain fun new old => less new old = .ok falling := by
  induction items generalizing last before with
  | nil =>
    cases done
    exact chain
  | cons item items ih =>
    obtain ⟨is, compared, further⟩ := bind_eq_ok.mp done
    split at further
    next same =>
      subst same
      exact ih further (List.isChain_cons_cons.mpr ⟨compared, chain⟩)
    · cases further
      exact chain

/-- Of a falling run the last item comes first, of any other one the first. -/
theorem run_turned {first second : α} (done : run less falling second [first] items = .ok (sorted, rest)) :
    (if falling then sorted else sorted.reverse) ++ rest ~ first :: second :: items := by
  have turned : (if falling then sorted else sorted.reverse) ~ sorted := by
    split
    · rfl
    · exact sorted.reverse_perm
  calc
    (if falling then sorted else sorted.reverse) ++ rest ~ sorted ++ rest := turned.append_right rest
    _ ~ second :: [first] ++ items := run_perm done
    _ ~ first :: second :: items := List.Perm.swap first second items

private theorem sort_perm (done : sort less items = .ok result) : result ~ items := by
  match items with
  | [] =>
    cases done
    rfl
  | [item] =>
    cases done
    rfl
  | first :: second :: items =>
    obtain ⟨falling, -, further⟩ := bind_eq_ok.mp done
    obtain ⟨⟨reversed, rest⟩, begun, final⟩ := bind_eq_ok.mp further
    exact (insertAll_perm final).trans (run_turned begun)

/-- Neighbours in a sorted list have been compared and found in order. -/
theorem sort_inOrder (done : sort less items = .ok result) : result.IsChain (InOrder less) := by
  match items with
  | [] =>
    cases done
    exact .nil
  | [item] =>
    cases done
    exact .singleton item
  | first :: second :: items =>
    obtain ⟨falling, compared, further⟩ := bind_eq_ok.mp done
    obtain ⟨⟨reversed, rest⟩, begun, final⟩ := bind_eq_ok.mp further
    have along := run_compared begun (List.isChain_cons_cons.mpr ⟨compared, .singleton first⟩)
    refine insertAll_inOrder final ?_
    -- The run is last item first, so one that does not fall has to be turned round.
    cases falling with
    | true => exact along.imp fun _ _ less => Or.inl less
    | false => exact List.isChain_reverse.mpr (along.imp fun _ _ less => Or.inr less)

/-! When a sort ends. -/

private theorem place_ends (answers : ∀ a ∈ items, ∃ is, less item a = .ok is) (low high : Nat) :
    ∃ i, place less items item low high = .ok i := by
  fun_induction place less items item low high with
  | case1 low high narrow middle missing => exact ⟨low, rfl⟩
  | case2 low high narrow middle other found lower upper =>
    obtain ⟨is, compared⟩ := answers other (List.mem_of_getElem? found)
    rw [compared]
    cases is with
    | true => exact lower
    | false => exact upper
  | case3 low high met => exact ⟨low, rfl⟩

private theorem insertAll_ends (answers : ∀ a ∈ sorted ++ items, ∀ b ∈ sorted ++ items, ∃ is, less a b = .ok is) :
    ∃ result, insertAll less sorted items = .ok result := by
  induction items generalizing sorted with
  | nil => exact ⟨sorted, rfl⟩
  | cons item items ih =>
    have own : ∀ a ∈ sorted, ∃ is, less item a = .ok is := fun a member =>
      answers item (List.mem_append_right _ List.mem_cons_self) a (List.mem_append_left _ member)
    obtain ⟨i, placed⟩ := place_ends own 0 sorted.length
    have inserted : insert less sorted item = .ok (sorted.take i ++ item :: sorted.drop i) :=
      bind_eq_ok.mpr ⟨i, placed, rfl⟩
    have same : sorted.take i ++ item :: sorted.drop i ++ items ~ sorted ++ item :: items :=
      ((insert_perm inserted).append_right items).trans List.perm_middle.symm
    obtain ⟨result, rest⟩ := ih fun a first b second => answers a (same.mem_iff.mp first) b (same.mem_iff.mp second)
    exact ⟨result, bind_eq_ok.mpr ⟨_, inserted, rest⟩⟩

private theorem run_ends (answers : ∀ a ∈ last :: items, ∀ b ∈ last :: items, ∃ is, less a b = .ok is) (falling : Bool)
    (before : List α) : ∃ parts, run less falling last before items = .ok parts := by
  induction items generalizing last before with
  | nil => exact ⟨_, rfl⟩
  | cons item items ih =>
    obtain ⟨is, compared⟩ := answers item (by simp) last (by simp)
    obtain ⟨parts, rest⟩ := ih (fun a first b second =>
      answers a (List.mem_cons_of_mem _ first) b (List.mem_cons_of_mem _ second)) (last :: before)
    by_cases same : is = falling
    · exact ⟨parts, bind_eq_ok.mpr ⟨is, compared, by rw [if_pos same, rest]⟩⟩
    · exact ⟨_, bind_eq_ok.mpr ⟨is, compared, if_neg same⟩⟩

private theorem sort_ends (answers : ∀ a ∈ items, ∀ b ∈ items, ∃ is, less a b = .ok is) :
    ∃ result, sort less items = .ok result := by
  match items with
  | [] => exact ⟨[], rfl⟩
  | [item] => exact ⟨[item], rfl⟩
  | first :: second :: items =>
    obtain ⟨falling, compared⟩ := answers second (by simp) first (by simp)
    obtain ⟨⟨reversed, rest⟩, begun⟩ := run_ends (fun a one b other =>
      answers a (List.mem_cons_of_mem _ one) b (List.mem_cons_of_mem _ other)) falling [first]
    have same := run_turned begun
    obtain ⟨result, final⟩ := insertAll_ends fun a one b other =>
      answers a (same.mem_iff.mp one) b (same.mem_iff.mp other)
    exact ⟨result, bind_eq_ok.mpr ⟨falling, compared, bind_eq_ok.mpr ⟨(reversed, rest), begun, final⟩⟩⟩

theorem sorts : Sorts (@sort α) where
  perm := sort_perm
  inOrder := sort_inOrder
  ends := sort_ends

end BytecodeBench.Sorting
