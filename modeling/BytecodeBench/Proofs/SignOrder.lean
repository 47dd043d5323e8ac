import BytecodeBench.StringSign.Basic
import Mathlib.Order.Defs.Unbundled

/-! The order of signs, the texts they admit, and their joins and meets. A sign has two parts that are
ordered apart: the characters it allows for, and a length. On characters, joins and meets are those of
sets. On lengths they go against the order: a join has the smaller length and a meet the greater one. -/

namespace BytecodeBench

/-! Small sets by their members. -/

namespace SmallSet

variable {κ : Type} [DecidableEq κ] [Listed κ] {a b : SmallSet κ}

@[simp]
theorem contains_ofTest (test : κ → Bool) (k : κ) : (ofTest test).contains k = test k := by
  simp [contains, ofTest, Listed.complete k]

@[simp]
theorem contains_empty (k : κ) : (empty : SmallSet κ).contains k = false := contains_ofTest _ k

@[simp]
theorem contains_union (a b : SmallSet κ) (k : κ) : (a.union b).contains k = (a.contains k || b.contains k) :=
  contains_ofTest _ k

@[simp]
theorem contains_inter (a b : SmallSet κ) (k : κ) : (a.inter b).contains k = (a.contains k && b.contains k) :=
  contains_ofTest _ k

@[simp]
theorem contains_insert (set : SmallSet κ) (k other : κ) :
    (set.insert k).contains other = (k == other || set.contains other) :=
  contains_ofTest _ other

theorem subset_iff : a.subset b = true ↔ ∀ k, a.contains k = true → b.contains k = true := by
  simp [subset, contains]

/-- The order of the list leaves no choice once the members are known. -/
theorem ext_contains (same : ∀ k, a.contains k = b.contains k) : a = b := by
  obtain ⟨members, ordered⟩ := a
  obtain ⟨others, alsoOrdered⟩ := b
  have listed : members = others := by
    rw [← ordered, ← alsoOrdered]
    exact List.filter_congr fun k _ => same k
  subst listed
  rfl

/-- What a set holds after the images of a list were put into it one by one. -/
theorem contains_collected {α : Type} (f : α → κ) (xs : List α) (start : SmallSet κ) (k : κ) :
    (xs.foldl (fun set x => set.insert (f x)) start).contains k = true ↔
      (∃ x ∈ xs, f x = k) ∨ start.contains k = true := by
  induction xs generalizing start with
  | nil => simp
  | cons x xs ih =>
    rw [List.foldl_cons, ih, contains_insert, Bool.or_eq_true, beq_iff_eq]
    simp only [List.mem_cons, exists_eq_or_imp, or_assoc, or_left_comm]

end SmallSet

namespace StringSign

variable {a b c : StringSign} {kind : Char → CharKind} {cs : List Char}

/-! Characters alone. -/

/-- Whatever characters one sign allows for, another one does too. -/
def Narrower (a b : StringSign) : Prop :=
  (∀ k, a.kinds.contains k = true → b.kinds.contains k = true) ∧
    ∀ e, a.encodings.contains e = true → b.encodings.contains e = true

theorem Narrower.refl (a : StringSign) : a.Narrower a := ⟨fun _ => id, fun _ => id⟩

theorem Narrower.trans (first : a.Narrower b) (second : b.Narrower c) : a.Narrower c :=
  ⟨fun k held => second.1 k (first.1 k held), fun e held => second.2 e (first.2 e held)⟩

/-- Signs that allow for the same characters differ in length only. -/
theorem Narrower.antisymm (first : a.Narrower b) (second : b.Narrower a) (length : a.length = b.length) : a = b := by
  have kinds : a.kinds = b.kinds := SmallSet.ext_contains fun k => Bool.eq_iff_iff.mpr ⟨first.1 k, second.1 k⟩
  have encodings : a.encodings = b.encodings := SmallSet.ext_contains fun e => Bool.eq_iff_iff.mpr ⟨first.2 e, second.2 e⟩
  obtain ⟨kindsA, encodingsA, lengthA⟩ := a
  cases kinds
  cases encodings
  cases length
  rfl

theorem join_narrower_iff : (a.join b).Narrower c ↔ a.Narrower c ∧ b.Narrower c := by
  simp only [Narrower, join, SmallSet.contains_union, Bool.or_eq_true, or_imp, forall_and]
  exact and_and_and_comm

theorem narrower_meet_iff : c.Narrower (a.meet b) ↔ c.Narrower a ∧ c.Narrower b := by
  simp only [Narrower, meet, SmallSet.contains_inter, Bool.and_eq_true, imp_and, forall_and]
  exact and_and_and_comm

theorem narrower_join (a b : StringSign) : a.Narrower (a.join b) ∧ b.Narrower (a.join b) :=
  join_narrower_iff.mp (.refl _)

theorem meet_narrower (a b : StringSign) : (a.meet b).Narrower a ∧ (a.meet b).Narrower b :=
  narrower_meet_iff.mp (.refl _)

theorem length_join (a b : StringSign) : (a.join b).length = min a.length b.length := rfl

theorem length_meet (a b : StringSign) : (a.meet b).length = max a.length b.length := rfl

private theorem join_eq_right_iff : a.join b = b ↔ a.Narrower b ∧ b.length ≤ a.length := by
  constructor
  · intro same
    have shorter := length_join a b
    rw [same] at shorter
    exact ⟨same ▸ (narrower_join a b).1, by omega⟩
  · rintro ⟨narrower, shorter⟩
    refine (join_narrower_iff.mpr ⟨narrower, .refl b⟩).antisymm (narrower_join a b).2 ?_
    rw [length_join]
    omega

private theorem meet_eq_left_iff : a.meet b = a ↔ a.Narrower b ∧ b.length ≤ a.length := by
  constructor
  · intro same
    have longer := length_meet a b
    rw [same] at longer
    exact ⟨same ▸ (meet_narrower a b).2, by omega⟩
  · rintro ⟨narrower, shorter⟩
    refine (meet_narrower a b).1.antisymm (narrower_meet_iff.mpr ⟨.refl a, narrower⟩) ?_
    rw [length_meet]
    omega

/-! The order. -/

theorem below_iff : a.below b = true ↔ a.Narrower b ∧ a.length ≤ b.length := by
  simp only [below, Narrower, Bool.and_eq_true, SmallSet.subset_iff, decide_eq_true_eq]

private theorem below_isPartialOrder : IsPartialOrder StringSign fun a b => a.below b = true where
  refl a := below_iff.mpr ⟨.refl a, Int.le_refl _⟩
  trans a b c first second := by
    obtain ⟨narrower, shorter⟩ := below_iff.mp first
    obtain ⟨further, still⟩ := below_iff.mp second
    exact below_iff.mpr ⟨narrower.trans further, Int.le_trans shorter still⟩
  antisymm a b first second := by
    obtain ⟨narrower, shorter⟩ := below_iff.mp first
    obtain ⟨wider, longer⟩ := below_iff.mp second
    exact narrower.antisymm wider (Int.le_antisymm shorter longer)

/-! Texts. -/

private theorem admitsBy_iff :
    a.admitsBy kind cs = true ↔
      (∀ c ∈ cs, a.kinds.contains (kind c) = true) ∧ ∀ c ∈ cs, a.encodings.contains (.of c) = true := by
  simp only [admitsBy, List.all_eq_true, Bool.and_eq_true, imp_and, forall_and]

theorem abstractBy_narrower_iff : (abstractBy kind cs).Narrower a ↔ a.admitsBy kind cs = true := by
  have kinds (k : CharKind) : (abstractBy kind cs).kinds.contains k = true ↔ ∃ c ∈ cs, kind c = k := by
    simpa [abstractBy] using SmallSet.contains_collected kind cs .empty k
  have encodings (e : CharEncoding) : (abstractBy kind cs).encodings.contains e = true ↔ ∃ c ∈ cs, .of c = e := by
    simpa [abstractBy] using SmallSet.contains_collected CharEncoding.of cs .empty e
  simp only [Narrower, kinds, encodings, admitsBy_iff, forall_exists_index, and_imp, forall_apply_eq_imp_iff₂]

theorem Narrower.admits (narrower : a.Narrower b) (admitted : a.admitsBy kind cs = true) : b.admitsBy kind cs = true :=
  abstractBy_narrower_iff.mp ((abstractBy_narrower_iff.mpr admitted).trans narrower)

/-- A text's sign is the least of the signs that admit the text and are long enough for it. The order
respects what signs admit; a meet admits what both signs admit, and a join what either does. -/
theorem abstraction_sound_and_best (kind : Char → CharKind) :
    (∀ cs (a : StringSign),
      (abstractBy kind cs).below a = true ↔ a.admitsBy kind cs = true ∧ (cs.length : Int) ≤ a.length) ∧
    (IsPartialOrder StringSign fun a b => a.below b = true) ∧
    (∀ a b : StringSign, a.below b = true → ∀ cs, a.admitsBy kind cs = true → b.admitsBy kind cs = true) ∧
    (∀ (a b : StringSign) cs,
      (a.meet b).admitsBy kind cs = true ↔ a.admitsBy kind cs = true ∧ b.admitsBy kind cs = true) ∧
    ∀ (a b : StringSign) cs,
      a.admitsBy kind cs = true ∨ b.admitsBy kind cs = true → (a.join b).admitsBy kind cs = true := by
  refine ⟨?_, below_isPartialOrder, ?_, ?_, ?_⟩
  · intro cs a
    rw [below_iff, abstractBy_narrower_iff]
    rfl
  · intro a b below cs
    exact (below_iff.mp below).1.admits
  · intro a b cs
    simp only [← abstractBy_narrower_iff, narrower_meet_iff]
  · rintro a b cs (admitted | admitted)
    · exact (narrower_join a b).1.admits admitted
    · exact (narrower_join a b).2.admits admitted

def digitOrSymbol (c : Char) : CharKind := if c.isDigit then .number else .symbol

def threeUnlettered : StringSign := ⟨.ofTest (· != .letter), .ofTest fun _ => true, 3⟩

theorem threeUnlettered_best :
    (abstractBy digitOrSymbol ['7', 'Ω']).below threeUnlettered = true ∧
      threeUnlettered.admitsBy digitOrSymbol ['7', 'Ω'] = true ∧ ((['7', 'Ω'].length : Nat) : Int) ≤ 3 := by
  have below : (abstractBy digitOrSymbol ['7', 'Ω']).below threeUnlettered = true := by decide
  exact ⟨below, ((abstraction_sound_and_best digitOrSymbol).1 ['7', 'Ω'] threeUnlettered).mp below⟩

/-! Joins and meets in an order. -/

structure LatticeLaws (le : StringSign → StringSign → Bool) (a b : StringSign) : Prop where
  left_le_join : le a (a.join b) = true
  right_le_join : le b (a.join b) = true
  join_least : ∀ c, le a c = true → le b c = true → le (a.join b) c = true
  meet_le_left : le (a.meet b) a = true
  meet_le_right : le (a.meet b) b = true
  meet_greatest : ∀ c, le c a = true → le c b = true → le c (a.meet b) = true
  join_eq_right : le a b = true ↔ a.join b = b
  meet_eq_left : le a b = true ↔ a.meet b = a

/-- The order in which the length of a sign is the least length that it allows for. -/
def tighter (a b : StringSign) : Bool :=
  a.kinds.subset b.kinds && a.encodings.subset b.encodings && decide (b.length ≤ a.length)

theorem tighter_iff : a.tighter b = true ↔ a.Narrower b ∧ b.length ≤ a.length := by
  simp only [tighter, Narrower, Bool.and_eq_true, SmallSet.subset_iff, decide_eq_true_eq]

theorem below_join_iff :
    (a.below (a.join b) = true ↔ a.length ≤ b.length) ∧ (b.below (a.join b) = true ↔ b.length ≤ a.length) := by
  obtain ⟨left, right⟩ := narrower_join a b
  simp only [below_iff, left, right, true_and, length_join]
  omega

private theorem meet_below_iff :
    ((a.meet b).below a = true ↔ b.length ≤ a.length) ∧ ((a.meet b).below b = true ↔ a.length ≤ b.length) := by
  obtain ⟨left, right⟩ := meet_narrower a b
  simp only [below_iff, left, right, true_and, length_meet]
  omega

private theorem join_below (first : a.below c = true) (second : b.below c = true) : (a.join b).below c = true := by
  obtain ⟨narrower, shorter⟩ := below_iff.mp first
  obtain ⟨also, -⟩ := below_iff.mp second
  exact below_iff.mpr ⟨join_narrower_iff.mpr ⟨narrower, also⟩, Int.le_trans (Int.min_le_left _ _) shorter⟩

private theorem below_meet (first : c.below a = true) (second : c.below b = true) : c.below (a.meet b) = true := by
  obtain ⟨narrower, shorter⟩ := below_iff.mp first
  obtain ⟨also, -⟩ := below_iff.mp second
  exact below_iff.mpr ⟨narrower_meet_iff.mpr ⟨narrower, also⟩, Int.le_trans shorter (Int.le_max_left _ _)⟩

/-- Joins and meets are those of the order in which lengths are least lengths. -/
theorem tighter_lattice (a b : StringSign) : LatticeLaws tighter a b where
  left_le_join := tighter_iff.mpr ⟨(narrower_join a b).1, Int.min_le_left _ _⟩
  right_le_join := tighter_iff.mpr ⟨(narrower_join a b).2, Int.min_le_right _ _⟩
  join_least c first second := by
    obtain ⟨narrower, longer⟩ := tighter_iff.mp first
    obtain ⟨also, still⟩ := tighter_iff.mp second
    exact tighter_iff.mpr ⟨join_narrower_iff.mpr ⟨narrower, also⟩, Int.le_min.mpr ⟨longer, still⟩⟩
  meet_le_left := tighter_iff.mpr ⟨(meet_narrower a b).1, Int.le_max_left _ _⟩
  meet_le_right := tighter_iff.mpr ⟨(meet_narrower a b).2, Int.le_max_right _ _⟩
  meet_greatest c first second := by
    obtain ⟨narrower, longer⟩ := tighter_iff.mp first
    obtain ⟨also, still⟩ := tighter_iff.mp second
    exact tighter_iff.mpr ⟨narrower_meet_iff.mpr ⟨narrower, also⟩, Int.max_le.mpr ⟨longer, still⟩⟩
  join_eq_right := tighter_iff.trans join_eq_right_iff.symm
  meet_eq_left := tighter_iff.trans meet_eq_left_iff.symm

/-- In the order of signs, a join is below every common bound and a meet above every one, and they are
bounds themselves only of signs of equal length. In the order that turns lengths around they always
are. -/
theorem lattice_laws_iff_same_length (a b : StringSign) :
    (LatticeLaws below a b ↔ a.length = b.length) ∧
    (∀ c : StringSign, a.below c = true → b.below c = true → (a.join b).below c = true) ∧
    (∀ c : StringSign, c.below a = true → c.below b = true → c.below (a.meet b) = true) ∧
    LatticeLaws tighter a b := by
  refine ⟨⟨?_, ?_⟩, fun _ => join_below, fun _ => below_meet, tighter_lattice a b⟩
  · intro laws
    have shorter := below_join_iff.1.mp laws.left_le_join
    have longer := below_join_iff.2.mp laws.right_le_join
    omega
  · intro same
    -- Between signs of equal length the two orders are the same.
    have turned : a.below b = true ↔ a.tighter b = true := by
      rw [below_iff, tighter_iff, same]
    exact {
      left_le_join := below_join_iff.1.mpr (by omega)
      right_le_join := below_join_iff.2.mpr (by omega)
      join_least := fun _ => join_below
      meet_le_left := meet_below_iff.1.mpr (by omega)
      meet_le_right := meet_below_iff.2.mpr (by omega)
      meet_greatest := fun _ => below_meet
      join_eq_right := turned.trans (tighter_lattice a b).join_eq_right
      meet_eq_left := turned.trans (tighter_lattice a b).meet_eq_left }

def narrowLetters (length : Int) : StringSign := ⟨.ofTest (· == .letter), .ofTest (· == .latin1), length⟩

/-- The longer of two signs is not below their join; and the shorter one is below it, but their join is
not the longer one. -/
theorem longer_not_below_join :
    (narrowLetters 2).below ((narrowLetters 2).join (narrowLetters 1)) = false ∧
      (narrowLetters 1).below (narrowLetters 2) = true ∧
      (narrowLetters 1).join (narrowLetters 2) ≠ narrowLetters 2 := by
  decide

end StringSign
end BytecodeBench
