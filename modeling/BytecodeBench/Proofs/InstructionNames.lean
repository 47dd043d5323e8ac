import BytecodeBench.Instruction.Spelling
import BytecodeBench.Proofs.Integers
import Mathlib.Tactic.IntervalCases

/-! The two names of an instruction. The real instruction and the mnemonic of it are chosen apart, each by its own test of
the operands. For loads and stores the tests come to the same; for constants they differ at five, which is a small constant
under one name only, and at texts, which have the mnemonic of the null reference. -/

namespace BytecodeBench.Instruction

variable {content : Datum} {n : Int}

/-! Constants. -/

inductive IsConstant : Value → Prop
  | integer {content : Datum} {n : Int} (integer : content.integer? = some n) : IsConstant ⟨.int, content⟩
  | text (s : String) : IsConstant ⟨.reference, .text s⟩
  | null : IsConstant ⟨.reference, .null⟩

/-- The constants that have a real instruction of one kind and the mnemonic of another: five and texts. -/
inductive Misnamed : Value → Prop
  | five {content : Datum} (five : content.integer? = some 5) : Misnamed ⟨.int, content⟩
  | text (s : String) : Misnamed ⟨.reference, .text s⟩

structure SamePush (real mnemonic : String) : Prop where
  small : mnemonic = "iconst_i" ↔ ∃ rest, real = "iconst_" ++ rest
  loaded : mnemonic = "ldc" ↔ ∃ rest, real = "ldc" ++ rest
  null : mnemonic = "aconst_null" ↔ real = "aconst_null"

private theorem smallConstant?_inside (integer : content.integer? = some n) (least : -1 ≤ n) (most : n ≤ 5) :
    ∃ rest, smallConstant? content = some ("iconst_" ++ rest) := by
  have found (k : Int) : content.same (.int k) = decide (n = k) := Datum.same_integer integer rfl
  unfold smallConstant?
  simp only [found]
  interval_cases n
  · exact ⟨"m1", rfl⟩
  · exact ⟨"0", rfl⟩
  · exact ⟨"1", rfl⟩
  · exact ⟨"2", rfl⟩
  · exact ⟨"3", rfl⟩
  · exact ⟨"4", rfl⟩
  · exact ⟨"5", rfl⟩

private theorem smallConstant?_outside (integer : content.integer? = some n) (outside : n < -1 ∨ 5 < n) :
    smallConstant? content = none := by
  have found (k : Int) : content.same (.int k) = decide (n = k) := Datum.same_integer integer rfl
  unfold smallConstant?
  rw [List.findSome?_eq_none_iff]
  rintro ⟨k, name⟩ member
  have near : -1 ≤ k ∧ k ≤ 5 := by
    simp only [List.mem_cons, List.not_mem_nil, or_false, Prod.mk.injEq] at member
    omega
  dsimp only
  rw [found, decide_eq_false (by omega)]
  rfl

/-- The mnemonic of an integer has a test of its own, with five on the other side. -/
theorem pushMnemonic_integer (i : Instruction) (integer : content.integer? = some n) :
    i.pushMnemonic ⟨.int, content⟩ = .ok (if -2 < n ∧ n < 5 then "iconst_i" else "ldc") := by
  have above : Datum.relate .lt (.int (-2)) content = .ok (decide (-2 < n)) := by
    rw [Datum.relate_integer .lt rfl integer, Relation.holds_compare]
  have below : content.relate .lt (.int 5) = .ok (decide (n < 5)) := by
    rw [Datum.relate_integer .lt integer rfl, Relation.holds_compare]
  unfold pushMnemonic
  dsimp only
  rw [above, below]
  by_cases least : -2 < n <;> by_cases most : n < 5 <;> simp [least, most, bind, Except.bind, pure, Except.pure]

/-- Texts that begin with different characters are different. -/
theorem ne_of_head {s t : String} (apart : s.toList.head? ≠ t.toList.head?) : s ≠ t := fun same => apart (same ▸ rfl)

private theorem samePush_small (rest : String) : SamePush ("iconst_" ++ rest) "iconst_i" where
  small := iff_of_true rfl ⟨rest, rfl⟩
  loaded := iff_of_false (by decide) fun ⟨_, same⟩ => ne_of_head (by simp) same
  null := iff_of_false (by decide) (ne_of_head (by simp))

private theorem samePush_loaded (rest : String) : SamePush ("ldc" ++ rest) "ldc" where
  small := iff_of_false (by decide) fun ⟨_, same⟩ => ne_of_head (by simp) same
  loaded := iff_of_true rfl ⟨rest, rfl⟩
  null := iff_of_false (by decide) (ne_of_head (by simp))

private theorem samePush_null : SamePush "aconst_null" "aconst_null" where
  small := iff_of_false (by decide) fun ⟨_, same⟩ => ne_of_head (by simp) same
  loaded := iff_of_false (by decide) fun ⟨_, same⟩ => ne_of_head (by simp) same
  null := iff_of_true rfl rfl

private theorem push_named (offset : Datum) {value : Value} (constant : IsConstant value) :
    ∃ name mnemonic, real ⟨offset, .push value⟩ = .ok name ∧ Instruction.mnemonic ⟨offset, .push value⟩ = .ok mnemonic ∧
      (SamePush name mnemonic ↔ ¬ Misnamed value) := by
  cases constant with
  | @integer content n integer =>
    have judged := pushMnemonic_integer ⟨offset, .push ⟨.int, content⟩⟩ integer
    have five : Misnamed ⟨.int, content⟩ ↔ n = 5 := by
      constructor
      · rintro ⟨five⟩
        exact Option.some_inj.mp (integer.symm.trans five)
      · rintro rfl
        exact .five integer
    by_cases inside : -1 ≤ n ∧ n ≤ 5
    · obtain ⟨rest, small⟩ := smallConstant?_inside integer inside.1 inside.2
      have named : real ⟨offset, .push ⟨.int, content⟩⟩ = .ok ("iconst_" ++ rest) := by
        simp only [real, realPush, small]
      refine ⟨_, _, named, judged, ?_⟩
      rw [five]
      by_cases last : n = 5
      · subst last
        refine iff_of_false (fun same => ?_) (fun other => other rfl)
        exact absurd (same.small.mpr ⟨rest, rfl⟩) (by decide)
      · rw [if_pos (by omega)]
        exact iff_of_true (samePush_small rest) last
    · have named : real ⟨offset, .push ⟨.int, content⟩⟩ = .ok ("ldc" ++ (" [" ++ content.display ++ "]")) := by
        simp only [real, realPush, smallConstant?_outside integer (by omega)]
        rw [← String.append_assoc, ← String.append_assoc]
        rfl
      refine ⟨_, _, named, judged, ?_⟩
      rw [five, if_neg (by omega)]
      exact iff_of_true (samePush_loaded _) (by omega)
  | text s =>
    have named : real ⟨offset, .push ⟨.reference, .text s⟩⟩ = .ok ("ldc" ++ (" [\"" ++ s ++ "\"]")) := by
      simp only [real, realPush]
      rw [← String.append_assoc, ← String.append_assoc]
      rfl
    refine ⟨_, "aconst_null", named, rfl, iff_of_false (fun same => ?_) fun other => other (.text s)⟩
    exact absurd (same.loaded.mpr ⟨_, rfl⟩) (by decide)
  | null =>
    exact ⟨_, _, rfl, rfl, iff_of_true samePush_null nofun⟩

/-! Loads and stores. -/

/-- An instruction on a local variable, what it is called whatever the variable, and the index of the variable. -/
inductive Accesses : Operation → String → Operand → Prop
  | loadInt (index : Operand) : Accesses (.load .int index) "iload" index
  | loadReference (index : Operand) : Accesses (.load .reference index) "aload" index
  | storeInt (index : Operand) : Accesses (.store .int index) "istore" index
  | storeReference (index : Operand) : Accesses (.store .reference index) "astore" index

/-- A real instruction and a mnemonic have one stem, and both have the index attached to it or neither has. -/
structure SameAccess (stem index real mnemonic : String) : Prop where
  attached : mnemonic = stem ++ "_n" ↔ real = stem ++ "_" ++ index
  detached : mnemonic = stem ↔ real = stem ++ " " ++ index
  either : mnemonic = stem ++ "_n" ∨ mnemonic = stem

private theorem sameAccess_attached (stem index : String) :
    SameAccess stem index (stem ++ "_" ++ index) (stem ++ "_n") where
  attached := iff_of_true rfl rfl
  detached := by
    refine iff_of_false (fun same => ?_) (fun same => ?_)
    · simpa using congrArg String.length same
    · simpa using congrArg String.toList same
  either := Or.inl rfl

private theorem sameAccess_detached (stem index : String) : SameAccess stem index (stem ++ " " ++ index) stem where
  attached := by
    refine iff_of_false (fun same => ?_) (fun same => ?_)
    · simpa using congrArg String.length same
    · simpa using congrArg String.toList same
  detached := iff_of_true rfl rfl
  either := Or.inr rfl

/-- Both names are chosen by whether the index is less than four. -/
theorem access_named (offset : Datum) {operation : Operation} {stem : String} {index : Operand}
    (accesses : Accesses operation stem index) :
    ∃ name mnemonic, real ⟨offset, operation⟩ = .ok name ∧ Instruction.mnemonic ⟨offset, operation⟩ = .ok mnemonic ∧
      SameAccess stem index.display name mnemonic := by
  by_cases early : index.toInt < 4
  · refine ⟨stem ++ "_" ++ index.display, stem ++ "_n", ?_, ?_, sameAccess_attached stem index.display⟩ <;>
      cases accesses <;> simp [real, realLocal, Instruction.mnemonic, localMnemonic, early]
  · refine ⟨stem ++ " " ++ index.display, stem, ?_, ?_, sameAccess_detached stem index.display⟩ <;>
      cases accesses <;> simp [real, realLocal, Instruction.mnemonic, localMnemonic, early]

/-- The two names of a constant are for the same instruction unless it is five or a text, and those of a load or a store
always are. -/
theorem names_agree_unless_five_or_text (offset : Datum) :
    (∀ value, IsConstant value → ∃ name mnemonic, real ⟨offset, .push value⟩ = .ok name ∧
      Instruction.mnemonic ⟨offset, .push value⟩ = .ok mnemonic ∧ (SamePush name mnemonic ↔ ¬ Misnamed value)) ∧
    ∀ operation stem index, Accesses operation stem index → ∃ name mnemonic, real ⟨offset, operation⟩ = .ok name ∧
      Instruction.mnemonic ⟨offset, operation⟩ = .ok mnemonic ∧ SameAccess stem index.display name mnemonic :=
  ⟨fun _ constant => push_named offset constant, fun _ _ _ accesses => access_named offset accesses⟩

/-- The last small constant under both names, and the first variable without a form of its own. -/
theorem four_named : IsConstant (.int 4) ∧
    (∃ name mnemonic, real ⟨.int 0, .push (.int 4)⟩ = .ok name ∧
      Instruction.mnemonic ⟨.int 0, .push (.int 4)⟩ = .ok mnemonic ∧ SamePush name mnemonic) ∧
    ∃ name mnemonic, real ⟨.int 1, .load .reference (.number 4)⟩ = .ok name ∧
      Instruction.mnemonic ⟨.int 1, .load .reference (.number 4)⟩ = .ok mnemonic ∧ SameAccess "aload" "4" name mnemonic := by
  have constant : IsConstant (.int 4) := .integer rfl
  obtain ⟨name, mnemonic, named, known, same⟩ := (names_agree_unless_five_or_text (.int 0)).1 _ constant
  refine ⟨constant, ⟨name, mnemonic, named, known, same.mpr ?_⟩, ?_⟩
  · rintro ⟨five⟩
    cases five
  · exact (names_agree_unless_five_or_text (.int 1)).2 _ _ _ (.loadReference (.number 4))

/-- Five has a short instruction and the mnemonic of a long one, and a text the mnemonic of the null reference. -/
theorem five_and_text_misnamed :
    (real ⟨.int 0, .push (.int 5)⟩ = .ok "iconst_5" ∧ Instruction.mnemonic ⟨.int 0, .push (.int 5)⟩ = .ok "ldc" ∧
      ¬ SamePush "iconst_5" "ldc") ∧
    real ⟨.int 0, .push ⟨.reference, .text "a"⟩⟩ = .ok "ldc [\"a\"]" ∧
      Instruction.mnemonic ⟨.int 0, .push ⟨.reference, .text "a"⟩⟩ = .ok "aconst_null" ∧
      ¬ SamePush "ldc [\"a\"]" "aconst_null" := by
  refine ⟨⟨rfl, rfl, fun same => ?_⟩, rfl, rfl, fun same => ?_⟩
  · exact absurd (same.small.mpr ⟨"5", rfl⟩) (by decide)
  · exact absurd (same.loaded.mpr ⟨" [\"a\"]", rfl⟩) (by decide)

end BytecodeBench.Instruction
