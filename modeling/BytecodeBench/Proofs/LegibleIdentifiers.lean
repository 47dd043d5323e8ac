import BytecodeBench.Proofs.Descriptors

/-! Method identifiers that are read back from their texts. A text is cut at its last dot, at the last
closing parenthesis behind that and at the last `:(` before it. Types without such characters leave these
cuts where they belong, whatever colons and parentheses the name of the method has. -/

namespace BytecodeBench

def separators : List Char := ['\n', '.', ';', ':', '(', ')']

namespace JvmType

/-- Types that are told by their descriptors within a longer text: those of the primitive letters, objects
of classes without separators in their names, and arrays of such types. -/
inductive Legible : JvmType → Prop
  | primitive {letter : Char} {t : JvmType} : primitive? letter = some t → Legible t
  | object {name : ClassName} : (∀ c ∈ separators, c ∉ name.text.toList) → Legible (object name)
  | array {contains : JvmType} : Legible contains → Legible (array contains)

variable {t : JvmType} {ts : List JvmType}

theorem Legible.describable (legible : t.Legible) : t.Describable := by
  induction legible with
  | primitive found => exact .primitive (primitive?_eq_some.mp found)
  | object plain => exact .object (plain '.' (by decide)) (plain ';' (by decide))
  | array _ ih => exact ih.array

theorem Legible.encode_avoids (legible : t.Legible) {c : Char} (separator : c ∈ separators) (unmarked : c ≠ ';') :
    c ∉ t.encode.toList := by
  have unlettered : ∀ c ∈ separators, primitive? c = none ∧ c ≠ 'L' ∧ c ≠ '[' :=
    Text.forall_of_all (by decide)
  obtain ⟨letterless, classless, bracketless⟩ := unlettered c separator
  induction legible with
  | primitive found =>
    rw [primitive?_encode found, List.mem_singleton]
    rintro rfl
    rw [found] at letterless
    cases letterless
  | object plain =>
    rw [encode_object (plain '.' (by decide))]
    simp [classless, unmarked, plain c separator]
  | array _ ih =>
    rw [encode_array, List.mem_cons]
    rintro (bracket | inside)
    · exact bracketless bracket
    · exact ih inside

theorem readAll_legible (legible : ∀ t ∈ ts, t.Legible) : readAll (Parameters.encode ts).toList = .ok ts :=
  (decomposes_encode fun t member => (legible t member).describable).readAll

end JvmType

theorem Parameters.encode_avoids {ts : List JvmType} (legible : ∀ t ∈ ts, t.Legible) {c : Char}
    (separator : c ∈ separators) (unmarked : c ≠ ';') : c ∉ (Parameters.encode ts).toList := by
  rw [Parameters.encode, String.toList_join]
  intro member
  obtain ⟨text, among, inside⟩ := List.mem_flatMap.mp member
  obtain ⟨t, listed, rfl⟩ := List.mem_map.mp among
  exact (legible t listed).encode_avoids separator unmarked inside

namespace MethodId

variable {name params result : List Char} {returns : Option JvmType} {m : MethodId}

private theorem encodeResult_avoids (legible : ∀ t ∈ returns, t.Legible) {c : Char} (separator : c ∈ separators)
    (unmarked : c ≠ ';') : c ∉ (encodeResult returns).toList := by
  cases returns with
  | none =>
    have letterless : ∀ c ∈ separators, c ∉ "V".toList := Text.forall_of_all (by decide)
    exact letterless c separator
  | some t => exact (legible t rfl).encode_avoids separator unmarked

private theorem decodeResult_legible (legible : ∀ t ∈ returns, t.Legible) :
    decodeResult (encodeResult returns).toList = .ok returns := by
  cases returns with
  | none => rfl
  | some t =>
    have read : JvmType.read (t.encode.toList ++ []) = .ok (t, []) := (legible t rfl).describable.describes.readFrom
    rw [List.append_nil] at read
    have typed : t.encode.toList ≠ ['V'] := by
      intro void
      rw [void] at read
      cases read
    unfold decodeResult
    rw [encodeResult, if_neg typed, read]
    rfl

/-- Only the last parenthesis and the last `:(` count, so a name may hold others. -/
theorem cut_written (unbroken : '\n' ∉ name ++ ":(".toList ++ params ++ ")".toList ++ result)
    (uncolonned : ':' ∉ params) (unclosed : ')' ∉ result) :
    cut (name ++ ":(".toList ++ params ++ ")".toList ++ result) = some (name, params, result) := by
  have outer : Text.breakOnLast? [')'] (name ++ ":(".toList ++ params ++ ")".toList ++ result) =
      some (name ++ ":(".toList ++ params, result) := Text.breakOnLast?_append unclosed
  have inner : Text.breakOnLast? [':', '('] (name ++ ":(".toList ++ params) = some (name, params) := by
    apply Text.breakOnLast?_append
    simpa using uncolonned
  unfold cut
  rw [Text.firstLine_of_notMem unbroken, outer, Option.bind_eq_bind, Option.bind_some]
  dsimp only
  rw [inner]
  rfl

theorem encode_avoids (legible : ∀ t ∈ m.types, t.Legible) {c : Char} (separator : c ∈ ['\n', '.'])
    (absent : c ∉ m.name.toList) : c ∉ m.encode.toList := by
  have known : ∀ c ∈ ['\n', '.'], c ∈ separators ∧ c ≠ ';' ∧ c ∉ ":(".toList ∧ c ∉ ")".toList :=
    Text.forall_of_all (by decide)
  obtain ⟨among, unmarked, opening, closing⟩ := known c separator
  obtain ⟨params, returns⟩ := forall_mem_types.mp legible
  have paramsAvoid := Parameters.encode_avoids params among unmarked
  have resultAvoids := encodeResult_avoids returns among unmarked
  simp only [encode, String.toList_append, List.mem_append, not_or]
  exact ⟨⟨⟨⟨absent, opening⟩, paramsAvoid⟩, closing⟩, resultAvoids⟩

theorem read_legible (unbroken : '\n' ∉ m.name.toList) (legible : ∀ t ∈ m.types, t.Legible) :
    read m.encode.toList = .ok m := by
  obtain ⟨params, returns⟩ := forall_mem_types.mp legible
  have line : '\n' ∉ m.encode.toList := encode_avoids legible (by decide) unbroken
  have uncolonned : ':' ∉ m.params.encode.toList := Parameters.encode_avoids params (by decide) (by decide)
  have unclosed : ')' ∉ (encodeResult m.returns).toList := encodeResult_avoids returns (by decide) (by decide)
  simp only [encode, String.toList_append] at line ⊢
  unfold read
  rw [cut_written line uncolonned unclosed]
  dsimp only
  rw [decodeResult_legible returns, JvmType.readAll_legible params, String.ofList_toList]
  rfl

end MethodId

private theorem cutAbsolute_written {className : ClassName} {rest : List Char} (named : className.text ≠ "")
    (unbroken : '\n' ∉ className.text.toList ++ '.' :: rest) (dotless : '.' ∉ rest) :
    cutAbsolute (className.text.toList ++ '.' :: rest) = .ok (className, rest) := by
  have cuts : Text.breakOnLast? ['.'] (className.text.toList ++ '.' :: rest) = some (className.text.toList, rest) := by
    have last := @Text.breakOnLast?_append '.' className.text.toList rest [] dotless
    simpa using last
  unfold cutAbsolute
  rw [Text.firstLine_of_notMem unbroken, cuts]
  cases chars : className.text.toList with
  | nil => exact (named (String.toList_eq_nil_iff.mp chars)).elim
  | cons c name =>
    dsimp only
    rw [← chars, String.ofList_toList]

namespace AbsMethodId

/-- What lets an absolute method name be read back. Colons and parentheses in the name of the method are no
hindrance. -/
structure Legible (m : AbsMethodId) : Prop where
  named : m.className.text ≠ ""
  classUnbroken : '\n' ∉ m.className.text.toList
  nameUnbroken : '\n' ∉ m.method.name.toList
  nameDotless : '.' ∉ m.method.name.toList
  types : ∀ t ∈ m.method.types, t.Legible

theorem legible_names_read_back (m : AbsMethodId) (legible : m.Legible) : decode m.encode = .ok m := by
  have dotless : '.' ∉ m.method.encode.toList :=
    MethodId.encode_avoids legible.types (by decide) legible.nameDotless
  have methodUnbroken : '\n' ∉ m.method.encode.toList :=
    MethodId.encode_avoids legible.types (by decide) legible.nameUnbroken
  have line : '\n' ∉ m.className.text.toList ++ '.' :: m.method.encode.toList := by
    simp [legible.classUnbroken, methodUnbroken]
  have shape : m.encode.toList = m.className.text.toList ++ '.' :: m.method.encode.toList := by simp [encode]
  unfold decode
  rw [shape, cutAbsolute_written legible.named line dotless]
  dsimp only [bind, Except.bind]
  rw [MethodId.read_legible legible.nameUnbroken legible.types]
  rfl

/-- A method whose name looks like the end of one signature and the beginning of another. -/
def deceptiveName : AbsMethodId :=
  ⟨⟨"a.B"⟩, ⟨"):(I)V:(", [.array (.object ⟨"x/Y"⟩), .array (.array .int), .object ⟨""⟩], some (.object ⟨"C"⟩)⟩⟩

theorem deceptiveName_read_back :
    deceptiveName.Legible ∧ deceptiveName.encode = "a.B.):(I)V:(:([Lx/Y;[[IL;)LC;" ∧
      decode deceptiveName.encode = .ok deceptiveName := by
  have legible : deceptiveName.Legible := by
    refine ⟨by decide, by decide, by decide, by decide, ?_⟩
    intro t member
    simp only [deceptiveName, MethodId.types, Option.toList, List.cons_append, List.nil_append, List.mem_cons,
      List.not_mem_nil, or_false] at member
    rcases member with rfl | rfl | rfl | rfl
    · exact .array (.object (Text.forall_of_all (by decide)))
    · exact .array (.array (@JvmType.Legible.primitive 'I' _ rfl))
    · exact .object (Text.forall_of_all (by decide))
    · exact .object (Text.forall_of_all (by decide))
  exact ⟨legible, rfl, legible_names_read_back _ legible⟩

end AbsMethodId
end BytecodeBench
