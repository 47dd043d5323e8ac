import BytecodeBench.Jvm.Identifier
import Mathlib.Data.List.Lex
import Mathlib.Data.Prod.Lex
import Mathlib.Data.String.Basic
import Mathlib.Order.WithBot

/-! The order of types and of methods. All types have a rank, and where the order of two different types has an answer it
is that of their ranks. There is none for two types of different forms that both order alone; a primitive type counts as
less than itself. Methods are ordered by the first part in which they differ, so the order of two methods is that of
their ranks wherever it has an answer. -/

namespace BytecodeBench

theorem Relation.lt_holds_compare (a b : String) : Relation.lt.holds (compare a b) = decide (a < b) := by
  rw [Relation.holds, Bool.eq_iff_iff, Ordering.isLT_iff_eq_lt, decide_eq_true_eq]
  exact compare_lt_iff_lt

namespace JvmType

variable {a b : JvmType}

/-! Ranks. -/

def letter : JvmType → Char
  | boolean => 'Z'
  | int => 'I'
  | byte => 'B'
  | char => 'C'
  | short => 'S'
  | long => 'J'
  | float => 'F'
  | double => 'D'
  | reference => 'A'
  | string => 'L'
  | object _ => 'L'
  | array _ => '['

/-- Where a type stands among all types: by the letters of its descriptor, and a class by its name. -/
def rank : JvmType → List (Char ×ₗ WithBot String)
  | object name => [toLex ('L', ↑name.text)]
  | array contains => toLex ('[', ⊥) :: contains.rank
  | t => [toLex (t.letter, ⊥)]

private theorem rank_head (t : JvmType) : ∃ name rest, t.rank = toLex (t.letter, name) :: rest := by
  cases t <;> exact ⟨_, _, rfl⟩

theorem rank_injective : Function.Injective rank := by
  intro a b same
  induction a generalizing b with
  | array contains ih =>
    cases b with
    | array other => exact congrArg array (ih (List.cons.inj same).2)
    | _ => simp [rank, letter] at same
  | object name =>
    cases b with
    | object other =>
      obtain ⟨text⟩ := name
      obtain ⟨known⟩ := other
      simpa [rank] using same
    | _ => simp [rank, letter] at same
  | _ => cases b <;> simp_all [rank, letter]

private theorem encode_head (t : JvmType) : ∃ rest, t.encode.toList = t.letter :: rest := by
  cases t <;> simp [encode, letter]

/-- The descriptor of a primitive type is a letter that no other type begins with. -/
theorem letter_primitive (primitive : a.ordersAlone = false) (apart : a ≠ b) : a.letter ≠ b.letter := by
  cases a <;> cases b <;> simp_all [ordersAlone, letter]

/-- Next to a primitive type the first letters decide. -/
theorem encode_le_iff (primitive : a.ordersAlone = false) (apart : a ≠ b) : a.encode ≤ b.encode ↔ a.rank < b.rank := by
  have single : a.encode.toList = [a.letter] ∧ a.rank = [toLex (a.letter, ⊥)] := by
    cases a <;> simp_all [ordersAlone, encode, rank, letter]
  have letters := letter_primitive primitive apart
  obtain ⟨rest, written⟩ := encode_head b
  obtain ⟨name, others, standing⟩ := rank_head b
  rw [← String.not_lt, String.lt_iff_toList_lt, single.1, single.2, written, standing, List.cons_lt_cons_iff,
    List.cons_lt_cons_iff, Prod.Lex.toLex_lt_toLex]
  simp [letters, letters.symm, lt_iff_le_and_ne]

/-! The order of types. -/

/-- Two types can be compared: behind the array marks they share stand two classes, or a primitive type on some side,
or the same type twice. -/
def Comparable : JvmType → JvmType → Prop
  | array a, array b => a.Comparable b
  | object _, object _ => True
  | a, b => a = b ∨ a.ordersAlone = false ∨ b.ordersAlone = false

theorem Comparable.refl (a : JvmType) : a.Comparable a := by
  induction a with
  | array contains ih => exact ih
  | object name => trivial
  | _ => exact Or.inl rfl

theorem comparable_mixed (objects : ∀ x y, a = object x → b = object y → False)
    (arrays : ∀ x y, a = array x → b = array y → False) :
    a.Comparable b ↔ a = b ∨ a.ordersAlone = false ∨ b.ordersAlone = false := by
  rw [Comparable]
  · exact arrays
  · exact objects

theorem Comparable.symm (comparable : a.Comparable b) : b.Comparable a := by
  fun_induction Comparable a b with
  | case1 a b ih => exact ih comparable
  | case2 => trivial
  | case3 a b arrays objects =>
    have mirrored := comparable_mixed (fun x y first second => objects y x second first)
      (fun x y first second => arrays y x second first)
    exact mirrored.mpr (comparable.imp Eq.symm Or.symm)

/-- A primitive type counts as less than itself. -/
theorem relate_self (a : JvmType) : relate .lt a a = .ok (!a.ordersAlone) := by
  cases a <;> simp [relate, relateByDescriptor, ordersAlone, Relation.holds]

theorem relate_lt (comparable : a.Comparable b) (apart : a ≠ b) : relate .lt a b = .ok (decide (a.rank < b.rank)) := by
  fun_induction relate .lt a b with
  | case1 => exact absurd rfl apart
  | case2 => exact absurd rfl apart
  | case3 a b =>
    rw [Relation.lt_holds_compare, Except.ok.injEq, decide_eq_decide, rank, rank, List.cons_lt_cons_iff,
      Prod.Lex.toLex_lt_toLex]
    simp
  | case4 => exact absurd rfl apart
  | case5 a b different ih =>
    rw [ih comparable different, Except.ok.injEq, decide_eq_decide, rank, rank, List.cons_lt_cons_iff]
    simp
  | case6 a b _ _ objects arrays primitive =>
    rw [Bool.not_eq_true'] at primitive
    rw [Except.ok.injEq, relateByDescriptor, decide_eq_decide]
    exact encode_le_iff primitive apart
  | case7 a b _ _ objects arrays alone also =>
    rcases (comparable_mixed objects arrays).mp comparable with same | left | right
    · exact absurd same apart
    · simp [left] at alone
    · rw [right] at also
      cases also
  | case8 a b _ _ objects arrays alone primitive =>
    -- The primitive type stands on the right, so it is the one that answers, for the opposite question.
    rw [Bool.not_eq_true] at primitive
    have different : (b != a) = true := bne_iff_ne.mpr apart.symm
    have less : decide (b.encode ≤ a.encode) = decide (b.rank < a.rank) :=
      decide_eq_decide.mpr (encode_le_iff primitive apart.symm)
    have ranks : a.rank ≠ b.rank := rank_injective.ne apart
    simp only [relateByDescriptor, Relation.swap, less, different, Bool.and_true]
    rw [Except.ok.injEq, ← decide_not, decide_eq_decide, not_lt, ranks.le_iff_lt]

/-- Types that cannot be compared have no order. -/
theorem comparable_of_relate {r : Relation} {answer : Bool} (done : relate r a b = .ok answer) : a.Comparable b := by
  fun_induction relate r a b with
  | case1 => exact Comparable.refl reference
  | case2 => exact Comparable.refl string
  | case3 => trivial
  | case4 a => exact Comparable.refl (array a)
  | case5 a b different ih => exact ih done
  | case6 a b _ _ objects arrays primitive =>
    exact (comparable_mixed objects arrays).mpr (Or.inr (Or.inl (by simpa using primitive)))
  | case7 => cases done
  | case8 a b _ _ objects arrays alone primitive =>
    exact (comparable_mixed objects arrays).mpr (Or.inr (Or.inr (by simpa using primitive)))

/-! The order of parameters and results. -/

variable {as bs : List JvmType}

def ComparableAll : List JvmType → List JvmType → Prop
  | a :: as, b :: bs => if a = b then ComparableAll as bs else a.Comparable b
  | _, _ => True

theorem relateAll_lt (comparable : ComparableAll as bs) :
    relateAll .lt as bs = .ok (decide (as.map rank < bs.map rank)) := by
  fun_induction relateAll .lt as bs with
  | case1 bs => cases bs <;> simp [Relation.holds, compare, compareOfLessAndEq]
  | case2 as filled => cases as <;> simp [Relation.holds, compare, compareOfLessAndEq]
  | case3 as a bs ih =>
    rw [ComparableAll, if_pos rfl] at comparable
    rw [ih comparable, Except.ok.injEq, decide_eq_decide, List.map_cons, List.map_cons, List.cons_lt_cons_iff]
    simp
  | case4 a as b bs different =>
    rw [ComparableAll, if_neg different] at comparable
    rw [relate_lt comparable different, Except.ok.injEq, decide_eq_decide, List.map_cons, List.map_cons,
      List.cons_lt_cons_iff]
    simp [rank_injective.eq_iff, different]

theorem comparableAll_of_relateAll {r : Relation} {answer : Bool} (done : relateAll r as bs = .ok answer) :
    ComparableAll as bs := by
  fun_induction relateAll r as bs with
  | case1 bs => simp [ComparableAll]
  | case2 as filled => simp [ComparableAll]
  | case3 as a bs ih =>
    rw [ComparableAll, if_pos rfl]
    exact ih done
  | case4 a as b bs different =>
    rw [ComparableAll, if_neg different]
    exact comparable_of_relate done

theorem ComparableAll.refl (as : List JvmType) : ComparableAll as as := by
  induction as with
  | nil => trivial
  | cons a as ih =>
    rw [ComparableAll, if_pos rfl]
    exact ih

theorem ComparableAll.symm (comparable : ComparableAll as bs) : ComparableAll bs as := by
  fun_induction ComparableAll as bs with
  | case1 as b bs ih =>
    rw [ComparableAll, if_pos rfl]
    exact ih comparable
  | case2 a as b bs different =>
    rw [ComparableAll, if_neg (Ne.symm different)]
    exact Comparable.symm comparable
  | case3 as bs shorter =>
    rw [ComparableAll]
    · trivial
    · exact fun b bs a as second first => shorter a as b bs first second

/-- Where a result stands: a method that returns nothing comes first. -/
def resultRank : Option JvmType → WithBot (List (Char ×ₗ WithBot String))
  | none => ⊥
  | some t => ↑t.rank

def ComparableResults : Option JvmType → Option JvmType → Prop
  | some a, some b => a.Comparable b
  | none, none => True
  | _, _ => False

theorem ComparableResults.refl (x : Option JvmType) : ComparableResults x x := by
  cases x with
  | none => trivial
  | some a => exact Comparable.refl a

theorem ComparableResults.symm {x y : Option JvmType} (comparable : ComparableResults x y) : ComparableResults y x := by
  cases x <;> cases y
  · trivial
  · exact comparable
  · exact comparable
  · exact Comparable.symm comparable

theorem resultRank_injective : Function.Injective resultRank := by
  intro x y same
  cases x <;> cases y
  · rfl
  · exact absurd same WithBot.bot_ne_coe
  · exact absurd same WithBot.coe_ne_bot
  · exact congrArg some (rank_injective (WithBot.coe_injective same))

theorem relateOptional_lt {x y : Option JvmType} (comparable : ComparableResults x y) (apart : x ≠ y) :
    relateOptional .lt x y = .ok (decide (resultRank x < resultRank y)) := by
  cases x <;> cases y
  · exact absurd rfl apart
  · exact comparable.elim
  · exact comparable.elim
  next a b =>
    rw [relateOptional, relate_lt comparable (fun same => apart (congrArg some same)), Except.ok.injEq,
      decide_eq_decide, resultRank, resultRank, WithBot.coe_lt_coe]

theorem comparableResults_of_relateOptional {r : Relation} {x y : Option JvmType} {answer : Bool}
    (done : relateOptional r x y = .ok answer) : ComparableResults x y := by
  cases x <;> cases y
  · trivial
  · cases done
  · cases done
  · exact comparable_of_relate done

end JvmType

/-! The order of methods. -/

namespace MethodId

variable {m n : MethodId}

def rank (m : MethodId) : String ×ₗ List (List (Char ×ₗ WithBot String)) ×ₗ WithBot (List (Char ×ₗ WithBot String)) :=
  toLex (m.name, toLex (m.params.map JvmType.rank, JvmType.resultRank m.returns))

def Comparable (m n : MethodId) : Prop :=
  m.name = n.name → JvmType.ComparableAll m.params n.params ∧
    (m.params = n.params → JvmType.ComparableResults m.returns n.returns)

theorem Comparable.refl (m : MethodId) : m.Comparable m := fun _ => ⟨.refl _, fun _ => .refl _⟩

theorem Comparable.symm (comparable : m.Comparable n) : n.Comparable m := by
  intro names
  obtain ⟨params, results⟩ := comparable names.symm
  exact ⟨params.symm, fun same => (results same.symm).symm⟩

theorem relate_eq (r : Relation) (m n : MethodId) : m.relate r n =
    if m.name = n.name then
      if m.params = n.params then
        if m.returns = n.returns then .ok (r.holds .eq) else JvmType.relateOptional r m.returns n.returns
      else JvmType.relateAll r m.params n.params
    else .ok (r.holds (compare m.name n.name)) := by
  simp [relate, Relation.lexicographic]

theorem rank_injective : Function.Injective rank := by
  intro m n same
  obtain ⟨name, params, returns⟩ := m
  obtain ⟨other, others, result⟩ := n
  have parts : name = other ∧ params.map JvmType.rank = others.map JvmType.rank ∧
      JvmType.resultRank returns = JvmType.resultRank result := by
    simpa [rank] using same
  obtain ⟨rfl, lists, results⟩ := parts
  rw [List.map_injective_iff.mpr JvmType.rank_injective lists, JvmType.resultRank_injective results]

theorem rank_lt_iff : m.rank < n.rank ↔ m.name < n.name ∨ m.name = n.name ∧
    (m.params.map JvmType.rank < n.params.map JvmType.rank ∨
      m.params = n.params ∧ JvmType.resultRank m.returns < JvmType.resultRank n.returns) := by
  rw [rank, rank, Prod.Lex.toLex_lt_toLex, Prod.Lex.toLex_lt_toLex,
    (List.map_injective_iff.mpr JvmType.rank_injective).eq_iff]

theorem relate_lt (comparable : m.Comparable n) : m.relate .lt n = .ok (decide (m.rank < n.rank)) := by
  rw [relate_eq]
  split
  next names =>
    obtain ⟨params, results⟩ := comparable names
    split
    next same =>
      split
      next equal => simp [Relation.holds, rank_lt_iff, names, same, equal]
      next different =>
        rw [JvmType.relateOptional_lt (results same) different]
        simp [rank_lt_iff, names, same]
    next different =>
      rw [JvmType.relateAll_lt params]
      simp [rank_lt_iff, names, different]
  next different =>
    rw [Relation.lt_holds_compare]
    simp [rank_lt_iff, different]

theorem comparable_of_relate {r : Relation} {answer : Bool} (done : m.relate r n = .ok answer) : m.Comparable n := by
  intro names
  rw [relate_eq, if_pos names] at done
  split at done
  next same =>
    refine ⟨same ▸ .refl _, fun _ => ?_⟩
    split at done
    next equal => exact equal ▸ .refl _
    next => exact JvmType.comparableResults_of_relateOptional done
  next different => exact ⟨JvmType.comparableAll_of_relateAll done, fun same => absurd same different⟩

end MethodId

namespace AbsMethodId

variable {m n : AbsMethodId}

def rank (m : AbsMethodId) :
    String ×ₗ String ×ₗ List (List (Char ×ₗ WithBot String)) ×ₗ WithBot (List (Char ×ₗ WithBot String)) :=
  toLex (m.className.text, m.method.rank)

def Comparable (m n : AbsMethodId) : Prop := m.className = n.className → m.method.Comparable n.method

theorem Comparable.symm (comparable : m.Comparable n) : n.Comparable m := fun classes => (comparable classes.symm).symm

theorem relate_eq (r : Relation) (m n : AbsMethodId) : m.relate r n =
    if m.className = n.className then
      if m.method = n.method then .ok (r.holds .eq) else m.method.relate r n.method
    else .ok (r.holds (compare m.className.text n.className.text)) := by
  simp [relate, Relation.lexicographic]

theorem rank_lt_iff : m.rank < n.rank ↔ m.className.text < n.className.text ∨
    m.className.text = n.className.text ∧ m.method.rank < n.method.rank := by
  rw [rank, rank, Prod.Lex.toLex_lt_toLex]

theorem relate_lt (comparable : m.Comparable n) : m.relate .lt n = .ok (decide (m.rank < n.rank)) := by
  rw [relate_eq]
  split
  next classes =>
    split
    next same => simp [Relation.holds, rank_lt_iff, classes, same]
    next different =>
      rw [MethodId.relate_lt (comparable classes)]
      simp [rank_lt_iff, classes]
  next different =>
    have texts : m.className.text ≠ n.className.text := fun same => different (congrArg ClassName.mk same)
    rw [Relation.lt_holds_compare]
    simp [rank_lt_iff, texts]

theorem comparable_of_relate {r : Relation} {answer : Bool} (done : m.relate r n = .ok answer) : m.Comparable n := by
  intro classes
  rw [relate_eq, if_pos classes] at done
  split at done
  next same => exact same ▸ .refl _
  next => exact MethodId.comparable_of_relate done

theorem rank_injective : Function.Injective rank := by
  intro m n same
  obtain ⟨⟨text⟩, method⟩ := m
  obtain ⟨⟨other⟩, another⟩ := n
  have parts : text = other ∧ method.rank = another.rank := by
    simpa [rank] using same
  obtain ⟨rfl, methods⟩ := parts
  rw [MethodId.rank_injective methods]

theorem rank_lt_of_relate (less : m.relate .lt n = .ok true) : m.rank < n.rank := by
  have known := relate_lt (comparable_of_relate less)
  rw [less] at known
  simpa using known

/-- Of two different methods one is less, if an answer is given at all. -/
theorem relate_of_not_less (notLess : n.relate .lt m = .ok false) (apart : m ≠ n) : m.relate .lt n = .ok true := by
  have comparable := comparable_of_relate notLess
  have known := relate_lt comparable
  rw [notLess] at known
  have reached : ¬n.rank < m.rank := by simpa using known
  have ranks : m.rank < n.rank := lt_of_le_of_ne (not_lt.mp reached) (rank_injective.ne apart)
  rw [relate_lt comparable.symm, decide_eq_true ranks]

end AbsMethodId
end BytecodeBench
