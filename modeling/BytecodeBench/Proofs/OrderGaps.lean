import BytecodeBench.Proofs.CaseGroups
import Mathlib.Data.List.Permutation

/-! Where the order has gaps. For two things that can be compared exactly one of less, equal and greater holds, but for
a primitive type next to itself. Overloads that cannot be compared have no order, and then they cannot be sorted or
grouped either. -/

namespace BytecodeBench

/-- An order settles how two things stand to each other: all its questions have answers, and exactly one of less, equal
and greater holds. -/
def Settles {α : Type} (less : α → α → Verdict) (a b : α) : Prop :=
  (less a b = .ok true ∧ a ≠ b ∧ less b a = .ok false) ∨
  (less a b = .ok false ∧ a = b ∧ less b a = .ok false) ∨
  (less a b = .ok false ∧ a ≠ b ∧ less b a = .ok true)

/-- An order that is one of ranks wherever it is asked settles what it is asked. -/
theorem Settles.of_ranks {α κ : Type} [LinearOrder κ] [DecidableLT κ] {rank : α → κ} (injective : Function.Injective rank)
    {less : α → α → Verdict} {a b : α} (forth : less a b = .ok (decide (rank a < rank b)))
    (back : less b a = .ok (decide (rank b < rank a))) : Settles less a b := by
  unfold Settles
  rw [forth, back]
  rcases lt_trichotomy (rank a) (rank b) with less | same | greater
  · refine Or.inl ⟨by simpa using less, ?_, by simpa using less.le⟩
    rintro rfl
    exact less.false
  · exact Or.inr (Or.inl ⟨by simp [same], injective same, by simp [same]⟩)
  · refine Or.inr (Or.inr ⟨by simpa using greater.le, ?_, by simpa using greater⟩)
    rintro rfl
    exact greater.false

theorem Settles.answered {α : Type} {less : α → α → Verdict} {a b : α} (settles : Settles less a b) :
    ∃ answer, less a b = .ok answer := by
  rcases settles with ⟨answer, -, -⟩ | ⟨answer, -, -⟩ | ⟨answer, -, -⟩ <;> exact ⟨_, answer⟩

namespace JvmType

variable {a b c : JvmType}

theorem settles_iff : Settles (relate .lt) a b ↔ a.Comparable b ∧ (a = b → a.ordersAlone = true) := by
  constructor
  · intro settles
    obtain ⟨answer, given⟩ := settles.answered
    refine ⟨comparable_of_relate given, ?_⟩
    rintro rfl
    rcases settles with ⟨-, apart, -⟩ | ⟨notLess, -, -⟩ | ⟨-, apart, -⟩
    · exact absurd rfl apart
    · rw [relate_self] at notLess
      simpa using notLess
    · exact absurd rfl apart
  · rintro ⟨comparable, alone⟩
    by_cases same : a = b
    · subst same
      have self : relate .lt a a = .ok false := by rw [relate_self, alone rfl, Bool.not_true]
      exact Or.inr (Or.inl ⟨self, rfl, self⟩)
    · exact Settles.of_ranks rank_injective (relate_lt comparable same) (relate_lt comparable.symm (Ne.symm same))

theorem rank_lt_of_relate (less : relate .lt a b = .ok true) (apart : a ≠ b) : a.rank < b.rank := by
  have known := relate_lt (comparable_of_relate less) apart
  rw [less] at known
  simpa using known

/-- What is less than something less is less too, if the two can be compared. -/
theorem relate_trans (first : relate .lt a b = .ok true) (second : relate .lt b c = .ok true) :
    relate .lt a c = .ok true ↔ a.Comparable c := by
  refine ⟨comparable_of_relate, fun comparable => ?_⟩
  by_cases start : a = b
  · rw [start]
    exact second
  by_cases final : b = c
  · rw [← final]
    exact first
  have ranks : a.rank < c.rank := (rank_lt_of_relate first start).trans (rank_lt_of_relate second final)
  have apart : a ≠ c := by
    rintro rfl
    exact ranks.false
  rw [relate_lt comparable apart, decide_eq_true ranks]

end JvmType

theorem AbsMethodId.settles_iff {m n : AbsMethodId} : Settles (relate .lt) m n ↔ m.Comparable n := by
  constructor
  · intro settles
    obtain ⟨answer, given⟩ := settles.answered
    exact comparable_of_relate given
  · intro comparable
    exact Settles.of_ranks rank_injective (relate_lt comparable) (relate_lt comparable.symm)

namespace Case

variable {cases : List Case} {sort : Sorting.Procedure (AbsMethodId × List Case)}

theorem byMethod_ends (sorts : Sorting.Sorts sort)
    (comparable : ∀ c ∈ cases, ∀ d ∈ cases, c.method.Comparable d.method) :
    ∃ groups, byMethod sort cases = .ok groups := by
  have owned {id : AbsMethodId} {own : List Case} (member : (id, own) ∈ group cases) : ∃ c ∈ cases, c.method = id := by
    obtain ⟨filled, rfl⟩ := mem_group.mp member
    obtain ⟨c, found⟩ := List.exists_mem_of_ne_nil _ filled
    obtain ⟨known, method⟩ := List.mem_filter.mp found
    exact ⟨c, known, of_decide_eq_true method⟩
  refine sorts.ends ?_
  rintro ⟨m, own⟩ first ⟨n, others⟩ second
  obtain ⟨c, known, rfl⟩ := owned first
  obtain ⟨d, also, rfl⟩ := owned second
  exact ⟨_, AbsMethodId.relate_lt (comparable c known d also)⟩

/-- Two cases can be grouped only if their methods can be compared. -/
theorem comparable_of_byMethod {c d : Case} {groups : Table AbsMethodId (List Case)} (arranges : Sorting.Arranges sort)
    (done : byMethod sort [c, d] = .ok groups) : c.method.Comparable d.method := by
  by_cases same : c.method = d.method
  · rw [same]
    exact fun _ => .refl _
  · have apart : (d.method == c.method) = false := beq_false_of_ne (Ne.symm same)
    have rows : group [c, d] = [(c.method, [c]), (d.method, [d])] := by
      have first : group [c] = [(c.method, [c])] := rfl
      have absent : Table.find? d.method [(c.method, [c])] = none := by
        rw [Table.find?_cons, apart]
        rfl
      rw [← List.singleton_append, group_concat, first, Table.update, absent]
      exact Table.insert_of_absent [d] absent
    have methods := (byMethod_perm arranges done).map Prod.fst
    have chain := byMethod_chain arranges done
    rw [rows] at methods
    -- The two methods are neighbours, in one order or the other.
    rcases List.perm_pair.mp methods with kept | turned
    · rw [kept, List.isChain_pair] at chain
      exact AbsMethodId.comparable_of_relate chain
    · rw [turned, List.isChain_pair] at chain
      exact (AbsMethodId.comparable_of_relate chain).symm

theorem byMethod_pair_iff {c d : Case} (sorts : Sorting.Sorts sort) :
    (∃ groups, byMethod sort [c, d] = .ok groups) ↔ c.method.Comparable d.method := by
  constructor
  · intro ends
    obtain ⟨groups, done⟩ := ends
    exact comparable_of_byMethod sorts.toArranges done
  · intro comparable
    refine byMethod_ends sorts ?_
    simp only [List.mem_cons, List.not_mem_nil, or_false]
    rintro x (rfl | rfl) y (rfl | rfl)
    · exact fun _ => .refl _
    · exact comparable
    · exact comparable.symm
    · exact fun _ => .refl _

end Case

/-- The order of types and methods is total just where things can be compared, and then every procedure that sorts
ends. -/
theorem order_settles_what_is_comparable (a b c : JvmType) (m n : AbsMethodId) (ids : List AbsMethodId) (one two : Case)
    (cases : List Case) :
    (Settles (JvmType.relate .lt) a b ↔ a.Comparable b ∧ (a = b → a.ordersAlone = true)) ∧
    (a.relate .lt b = .ok true → b.relate .lt c = .ok true → (a.relate .lt c = .ok true ↔ a.Comparable c)) ∧
    (Settles (AbsMethodId.relate .lt) m n ↔ m.Comparable n) ∧
    (∀ sort, Sorting.Sorts sort → (∀ m ∈ ids, ∀ n ∈ ids, m.Comparable n) →
      ∃ sorted, sort (AbsMethodId.relate .lt) ids = .ok sorted) ∧
    ∀ sort, Sorting.Sorts sort →
      ((∀ c ∈ cases, ∀ d ∈ cases, c.method.Comparable d.method) → ∃ groups, Case.byMethod sort cases = .ok groups) ∧
      ((∃ groups, Case.byMethod sort [one, two] = .ok groups) ↔ one.method.Comparable two.method) := by
  refine ⟨JvmType.settles_iff, JvmType.relate_trans, AbsMethodId.settles_iff, ?_,
    fun sort sorts => ⟨Case.byMethod_ends sorts, Case.byMethod_pair_iff sorts⟩⟩
  intro sort sorts comparable
  exact sorts.ends fun m first n second => ⟨_, AbsMethodId.relate_lt (comparable m first n second)⟩

/-- A class stands between two primitive types, which keep their order, and overloads for a number and for an array
of numbers are sorted and grouped. -/
theorem byte_class_short_settled :
    let overloads := [Case.sampleMethod "m" [.array .int], Case.sampleMethod "m" [.int], Case.sampleMethod "k" []]
    JvmType.byte.relate .lt (.object ⟨"a.B"⟩) = .ok true ∧ (JvmType.object ⟨"a.B"⟩).relate .lt .short = .ok true ∧
      JvmType.byte.relate .lt .short = .ok true ∧
      (∃ sorted, Sorting.sort (AbsMethodId.relate .lt) overloads = .ok sorted) ∧
      ∃ groups, Case.byMethod Sorting.sort Case.sampleCases = .ok groups := by
  intro overloads
  have first : JvmType.byte.relate .lt (.object ⟨"a.B"⟩) = .ok true := by decide
  have second : (JvmType.object ⟨"a.B"⟩).relate .lt .short = .ok true := by decide
  have sortable : ∀ m ∈ overloads, ∀ n ∈ overloads, m.Comparable n := by
    simp [overloads, Case.sampleMethod, AbsMethodId.Comparable, MethodId.Comparable, JvmType.ComparableAll,
      JvmType.Comparable, JvmType.ordersAlone, JvmType.ComparableResults]
  have groupable : ∀ c ∈ Case.sampleCases, ∀ d ∈ Case.sampleCases, c.method.Comparable d.method := by
    simp [Case.sampleCases, Case.sampleCase, Case.sampleMethod, AbsMethodId.Comparable, MethodId.Comparable,
      JvmType.ComparableAll, JvmType.Comparable, JvmType.ordersAlone, JvmType.ComparableResults, Value.int, Value.array,
      Value.boolean]
  obtain ⟨-, passed, -, sorted, grouped⟩ := order_settles_what_is_comparable .byte (.object ⟨"a.B"⟩) .short
    (Case.sampleMethod "m" [.int]) (Case.sampleMethod "k" []) overloads (Case.sampleCase "m" (.int 0) "ok")
    (Case.sampleCase "k" (.int 0) "ok") Case.sampleCases
  exact ⟨first, second, (passed first second).mpr (Or.inr (Or.inl rfl)), sorted _ Sorting.sorts sortable,
    (grouped _ Sorting.sorts).1 groupable⟩

/-- A type that is less than itself, and two overloads of a method that have no order and cannot be grouped. -/
theorem int_and_overloads_not_settled :
    ¬Settles (JvmType.relate .lt) .int .int ∧ JvmType.int.relate .lt .int = .ok true ∧
      (JvmType.array .int).relate .lt (.object ⟨"java/lang/String"⟩) = .error .noOrder ∧
      Case.byMethod Sorting.sort [Case.sampleCase "m" (.array .int []) "ok", Case.sampleCase "m" (.string "") "ok"] =
        .error .noOrder := by
  refine ⟨?_, by decide, by decide, by with_unfolding_all rfl⟩
  rw [JvmType.settles_iff]
  rintro ⟨-, alone⟩
  exact absurd (alone rfl) (by decide)

end BytecodeBench
