import BytecodeBench.Jvm.Identifier
import BytecodeBench.Proofs.Computations
import BytecodeBench.Proofs.TextCuts

/-! Descriptors and identifiers that can be read are written as they stood. A class name in a descriptor
is written with slashes for its dots, but the extension of an absolute name begins behind the last dot
of the line, so there are none left to replace. -/

namespace BytecodeBench

theorem ClassName.slashed_eq {c : ClassName} (dotless : '.' ∉ c.text.toList) : c.slashed = c.text := by
  have unchanged : ∀ d ∈ c.text.toList, (if d = '.' then '/' else d) = d := by
    intro d member
    exact if_neg fun (dot : d = '.') => dotless (dot ▸ member)
  simp only [slashed, Text.replaceChar]
  rw [List.map_congr_left unchanged, List.map_id', String.ofList_toList]

namespace JvmType

def className? : JvmType → Option ClassName
  | object name => some name
  | array contains => contains.className?
  | _ => none

variable {whole cs rest : List Char} {t : JvmType} {ts : List JvmType}

theorem primitive?_encode {c : Char} (found : primitive? c = some t) : t.encode.toList = [c] := by
  unfold primitive? at found
  split at found <;> cases found <;> rfl

private theorem primitive?_className {c : Char} (found : primitive? c = some t) : t.className? = none := by
  unfold primitive? at found
  split at found <;> cases found <;> rfl

/-- What can stand where a type is read. -/
theorem readFrom_cases (done : readFrom whole cs = .ok (t, rest)) :
    (∃ tail inner, cs = '[' :: tail ∧ t = array inner ∧ readFrom whole tail = .ok (inner, rest)) ∨
    (∃ name, ';' ∉ name ∧ cs = 'L' :: (name ++ ';' :: rest) ∧ t = object ⟨String.ofList name⟩) ∨
    (∃ c, cs = c :: rest ∧ primitive? c = some t) := by
  unfold readFrom at done
  split at done
  · cases done
  next tail =>
    obtain ⟨⟨inner, after⟩, read, last⟩ := bind_eq_ok.mp done
    cases last
    exact Or.inl ⟨tail, inner, rfl, rfl, read⟩
  next tail =>
    split at done
    · cases done
    next mark after dropped =>
      cases done
      have whole := congrArg ('L' :: ·) (Text.eq_of_dropWhile dropped)
      exact Or.inr (Or.inl ⟨_, Text.notMem_takeWhile ';' tail, whole, rfl⟩)
  next c tail _ _ =>
    split at done
    next found =>
      cases done
      exact Or.inr (Or.inr ⟨c, rfl, found⟩)
    · cases done

theorem readFrom_className (dotless : '.' ∉ cs) (done : readFrom whole cs = .ok (t, rest)) :
    ∀ name ∈ t.className?, name.slashed = name.text := by
  induction cs generalizing t with
  | nil => cases done
  | cons c cs ih =>
    rcases readFrom_cases done with ⟨tail, inner, same, rfl, read⟩ | ⟨name, -, same, rfl⟩ | ⟨letter, same, found⟩
    · cases same
      have inside := ih (fun member => dotless (List.mem_cons_of_mem _ member)) read
      exact inside
    · rintro _ ⟨⟩
      apply ClassName.slashed_eq
      rw [String.toList_ofList]
      intro member
      rw [same] at dotless
      exact dotless (List.mem_cons_of_mem _ (List.mem_append_left _ member))
    · rw [primitive?_className found]
      rintro _ ⟨⟩

/-- What is read of a descriptor is the descriptor of the type that it gives. -/
theorem readFrom_encode (dotless : '.' ∉ cs) (done : readFrom whole cs = .ok (t, rest)) :
    cs = t.encode.toList ++ rest := by
  induction cs generalizing t with
  | nil => cases done
  | cons c cs ih =>
    have kept := readFrom_className dotless done
    rcases readFrom_cases done with ⟨tail, inner, same, rfl, read⟩ | ⟨name, -, same, rfl⟩ | ⟨letter, same, found⟩
    · cases same
      rw [ih (fun member => dotless (List.mem_cons_of_mem _ member)) read]
      simp [encode]
    · -- Without dots the name is written as it was read.
      rw [same, encode, kept _ rfl]
      simp
    · rw [same, primitive?_encode found]
      rfl

private theorem readFrom_dotless (dotless : '.' ∉ cs) (done : readFrom whole cs = .ok (t, rest)) : '.' ∉ rest := by
  intro member
  rw [readFrom_encode dotless done] at dotless
  exact dotless (List.mem_append_right _ member)

/-- A list of descriptors is read one by one. -/
theorem readAll_step (step : read cs = .ok (t, rest)) : readAll cs = (do return t :: (← readAll rest)) := by
  cases cs with
  | nil => cases step
  | cons c tail =>
    rw [readAll]
    split
    next failed =>
      rw [step] at failed
      cases failed
    next again =>
      rw [step] at again
      cases again
      rfl

theorem readAll_cases (done : readAll cs = .ok ts) :
    (cs = [] ∧ ts = []) ∨
    ∃ t rest others, read cs = .ok (t, rest) ∧ readAll rest = .ok others ∧ ts = t :: others := by
  cases cs with
  | nil =>
    rw [readAll] at done
    cases done
    exact Or.inl ⟨rfl, rfl⟩
  | cons c tail =>
    cases step : read (c :: tail) with
    | error e =>
      rw [readAll] at done
      split at done
      · cases done
      next succeeded =>
        rw [step] at succeeded
        cases succeeded
    | ok found =>
      obtain ⟨t, rest⟩ := found
      rw [readAll_step step] at done
      obtain ⟨others, inner, last⟩ := bind_eq_ok.mp done
      cases last
      exact Or.inr ⟨t, rest, others, rfl, inner, rfl⟩

theorem readAll_encode (dotless : '.' ∉ cs) (done : readAll cs = .ok ts) : (Parameters.encode ts).toList = cs := by
  induction ts generalizing cs with
  | nil =>
    rcases readAll_cases done with ⟨rfl, -⟩ | ⟨_, _, _, _, _, ⟨⟩⟩
    rfl
  | cons t ts ih =>
    rcases readAll_cases done with ⟨-, ⟨⟩⟩ | ⟨_, rest, _, step, inner, ⟨⟩⟩
    rw [readFrom_encode dotless step, ← ih (readFrom_dotless dotless step) inner]
    simp [Parameters.encode, String.toList_join]

theorem readAll_className (dotless : '.' ∉ cs) (done : readAll cs = .ok ts) :
    ∀ t ∈ ts, ∀ name ∈ t.className?, name.slashed = name.text := by
  induction ts generalizing cs with
  | nil => exact List.forall_mem_nil _
  | cons t ts ih =>
    rcases readAll_cases done with ⟨-, ⟨⟩⟩ | ⟨_, rest, _, step, inner, ⟨⟩⟩
    have others := ih (readFrom_dotless dotless step) inner
    exact List.forall_mem_cons.mpr ⟨readFrom_className dotless step, others⟩

end JvmType

namespace MethodId

def types (m : MethodId) : List JvmType := m.params ++ m.returns.toList

variable {cs : List Char} {m : MethodId}

theorem forall_mem_types {holds : JvmType → Prop} :
    (∀ t ∈ m.types, holds t) ↔ (∀ t ∈ m.params, holds t) ∧ ∀ t ∈ m.returns, holds t := by
  simp only [types, List.forall_mem_append, Option.mem_toList]
  rfl

private theorem decodeResult_cases {returns : Option JvmType} (done : decodeResult cs = .ok returns) :
    (cs = ['V'] ∧ returns = none) ∨ ∃ t, returns = some t ∧ JvmType.read cs = .ok (t, []) := by
  unfold decodeResult at done
  split at done
  next void =>
    cases done
    exact Or.inl ⟨void, rfl⟩
  · obtain ⟨⟨t, rest⟩, inner, last⟩ := bind_eq_ok.mp done
    dsimp only at last
    split at last
    next finished =>
      cases last
      rw [List.isEmpty_iff.mp finished] at inner
      exact Or.inr ⟨t, rfl, inner⟩
    · cases last

private theorem decodeResult_encode {returns : Option JvmType} (dotless : '.' ∉ cs)
    (done : decodeResult cs = .ok returns) :
    (encodeResult returns).toList = cs := by
  rcases decodeResult_cases done with ⟨rfl, rfl⟩ | ⟨t, rfl, read⟩
  · rfl
  · rw [JvmType.readFrom_encode dotless read, List.append_nil]
    rfl

/-- The parts that a signature is read from. -/
theorem read_parts (dotless : '.' ∉ cs) (done : read cs = .ok m) :
    ∃ params result, Text.firstLine cs = m.name.toList ++ ":(".toList ++ params ++ ")".toList ++ result ∧
      ('.' ∉ params ∧ JvmType.readAll params = .ok m.params) ∧ '.' ∉ result ∧ decodeResult result = .ok m.returns := by
  unfold read at done
  split at done
  · cases done
  next name params result cuts =>
    obtain ⟨⟨front, tail⟩, outer, remaining⟩ := Option.bind_eq_some_iff.mp cuts
    obtain ⟨⟨start, middle⟩, inner, same⟩ := Option.bind_eq_some_iff.mp remaining
    cases same
    obtain ⟨returns, resultRead, remaining⟩ := bind_eq_ok.mp done
    obtain ⟨ps, paramsRead, last⟩ := bind_eq_ok.mp remaining
    cases last
    have line := Text.breakOnLast?_eq outer
    rw [Text.breakOnLast?_eq inner] at line
    have fewer : '.' ∉ Text.firstLine cs := fun member => dotless (List.takeWhile_subset _ member)
    rw [line] at fewer
    simp only [List.mem_append, not_or] at fewer
    obtain ⟨⟨⟨-, paramsDotless⟩, -⟩, resultDotless⟩ := fewer
    refine ⟨params, result, ?_, ⟨paramsDotless, paramsRead⟩, resultDotless, resultRead⟩
    rw [line, String.toList_ofList]
    rfl

/-- A signature that can be read is the first line of its text. -/
theorem read_encode (dotless : '.' ∉ cs) (done : read cs = .ok m) : m.encode.toList = Text.firstLine cs := by
  obtain ⟨params, result, line, ⟨paramsDotless, paramsRead⟩, resultDotless, resultRead⟩ := read_parts dotless done
  simp only [encode, String.toList_append, JvmType.readAll_encode paramsDotless paramsRead,
    decodeResult_encode resultDotless resultRead, line]

theorem read_className (dotless : '.' ∉ cs) (done : read cs = .ok m) :
    ∀ t ∈ m.types, ∀ name ∈ t.className?, name.slashed = name.text := by
  obtain ⟨params, result, -, ⟨paramsDotless, paramsRead⟩, resultDotless, resultRead⟩ := read_parts dotless done
  refine forall_mem_types.mpr ⟨JvmType.readAll_className paramsDotless paramsRead, ?_⟩
  intro t returned
  rcases decodeResult_cases resultRead with ⟨-, void⟩ | ⟨found, same, read⟩
  · rw [void] at returned
    cases returned
  · rw [same] at returned
    cases returned
    exact JvmType.readFrom_className resultDotless read

end MethodId

namespace FieldId

variable {cs : List Char} {f : FieldId}

theorem read_parts (dotless : '.' ∉ cs) (done : read cs = .ok f) :
    ∃ descriptor, cs = f.name.toList ++ ':' :: descriptor ∧ '.' ∉ descriptor ∧
      JvmType.read descriptor = .ok (f.type, []) := by
  unfold read at done
  split at done
  · cases done
  next mark descriptor dropped =>
    obtain ⟨⟨type, rest⟩, inner, last⟩ := bind_eq_ok.mp done
    dsimp only at last
    split at last
    next finished =>
      cases last
      rw [List.isEmpty_iff.mp finished] at inner
      have parts := Text.eq_of_dropWhile dropped
      rw [parts] at dotless
      refine ⟨descriptor, ?_, fun member => dotless (List.mem_append_right _ (List.mem_cons_of_mem _ member)), inner⟩
      rw [String.toList_ofList]
      exact parts
    · cases last

theorem read_encode (dotless : '.' ∉ cs) (done : read cs = .ok f) : f.encode.toList = cs := by
  obtain ⟨descriptor, rfl, fewer, typeRead⟩ := read_parts dotless done
  have type := JvmType.readFrom_encode fewer typeRead
  rw [List.append_nil] at type
  simp only [encode, String.toList_append, ← type]
  simp

theorem read_className (dotless : '.' ∉ cs) (done : read cs = .ok f) :
    ∀ name ∈ f.type.className?, name.slashed = name.text := by
  obtain ⟨descriptor, -, fewer, typeRead⟩ := read_parts dotless done
  exact JvmType.readFrom_className fewer typeRead

end FieldId

section Absolute

variable {cs rest : List Char} {className : ClassName}

/-- An absolute name is cut at the last dot of its first line. -/
theorem cutAbsolute_eq (done : cutAbsolute cs = .ok (className, rest)) :
    Text.firstLine cs = className.text.toList ++ '.' :: rest ∧ '.' ∉ rest := by
  unfold cutAbsolute at done
  split at done
  next found =>
    cases done
    refine ⟨?_, Text.breakOnLast?_last found⟩
    simp [Text.breakOnLast?_eq found]
  · cases done

private theorem cutAbsolute_unbroken (done : cutAbsolute cs = .ok (className, rest)) : '\n' ∉ rest := by
  intro member
  have absent := Text.newline_notMem_firstLine cs
  rw [(cutAbsolute_eq done).1] at absent
  exact absent (List.mem_append_right _ (List.mem_cons_of_mem _ member))

/-- Nothing but the first line of a text counts. -/
theorem cutAbsolute_firstLine (done : cutAbsolute cs = .ok (className, rest)) :
    cutAbsolute (Text.firstLine cs) = .ok (className, rest) := by
  unfold cutAbsolute at done ⊢
  rw [Text.firstLine_of_notMem (Text.newline_notMem_firstLine _)]
  split at done
  · exact done
  · cases done

end Absolute

namespace AbsMethodId

variable {s : String} {m : AbsMethodId}

theorem decode_parts (done : decode s = .ok m) :
    ∃ rest, cutAbsolute s.toList = .ok (m.className, rest) ∧ MethodId.read rest = .ok m.method := by
  obtain ⟨⟨className, rest⟩, cuts, remaining⟩ := bind_eq_ok.mp done
  obtain ⟨method, reads, last⟩ := bind_eq_ok.mp remaining
  cases last
  exact ⟨rest, cuts, reads⟩

/-- An identifier that can be read is written as the first line of its text. -/
theorem decode_encode (done : decode s = .ok m) : m.encode.toList = Text.firstLine s.toList := by
  obtain ⟨rest, cuts, reads⟩ := decode_parts done
  obtain ⟨line, dotless⟩ := cutAbsolute_eq cuts
  simp only [encode, String.toList_append, MethodId.read_encode dotless reads,
    Text.firstLine_of_notMem (cutAbsolute_unbroken cuts), line]
  simp

/-- Writing an identifier that was read and reading it again gives it back. -/
theorem decode_encoded (done : decode s = .ok m) : decode m.encode = .ok m := by
  obtain ⟨rest, cuts, reads⟩ := decode_parts done
  unfold decode
  rw [decode_encode done, cutAbsolute_firstLine cuts]
  dsimp only [bind, Except.bind]
  rw [reads]
  rfl

end AbsMethodId

namespace AbsFieldId

variable {s : String} {f : AbsFieldId}

theorem decode_parts (done : decode s = .ok f) :
    ∃ rest, cutAbsolute s.toList = .ok (f.className, rest) ∧ FieldId.read rest = .ok f.field := by
  obtain ⟨⟨className, rest⟩, cuts, remaining⟩ := bind_eq_ok.mp done
  obtain ⟨field, reads, last⟩ := bind_eq_ok.mp remaining
  cases last
  exact ⟨rest, cuts, reads⟩

theorem decode_encode (done : decode s = .ok f) : f.encode.toList = Text.firstLine s.toList := by
  obtain ⟨rest, cuts, reads⟩ := decode_parts done
  obtain ⟨line, dotless⟩ := cutAbsolute_eq cuts
  simp only [encode, String.toList_append, FieldId.read_encode dotless reads, line]
  simp

theorem decode_encoded (done : decode s = .ok f) : decode f.encode = .ok f := by
  obtain ⟨rest, cuts, reads⟩ := decode_parts done
  unfold decode
  rw [decode_encode done, cutAbsolute_firstLine cuts]
  dsimp only [bind, Except.bind]
  rw [reads]
  rfl

end AbsFieldId

/-- Absolute names are written as the first line of what they were read from. No dot was left for a slash
to replace in the types of a method or of a field, and reading the line alone gives the same name. -/
theorem absolute_names_written_as_read (s : String) :
    (∀ m, AbsMethodId.decode s = .ok m →
      m.encode.toList = Text.firstLine s.toList ∧
        (∀ t ∈ m.method.types, ∀ name ∈ t.className?, name.slashed = name.text) ∧
        AbsMethodId.decode m.encode = .ok m) ∧
    (∀ f, AbsFieldId.decode s = .ok f →
      f.encode.toList = Text.firstLine s.toList ∧
        (∀ name ∈ f.field.type.className?, name.slashed = name.text) ∧
        AbsFieldId.decode f.encode = .ok f) := by
  constructor
  · intro m done
    obtain ⟨rest, cuts, reads⟩ := AbsMethodId.decode_parts done
    have names := MethodId.read_className (cutAbsolute_eq cuts).2 reads
    exact ⟨AbsMethodId.decode_encode done, names, AbsMethodId.decode_encoded done⟩
  · intro f done
    obtain ⟨rest, cuts, reads⟩ := AbsFieldId.decode_parts done
    have names := FieldId.read_className (cutAbsolute_eq cuts).2 reads
    exact ⟨AbsFieldId.decode_encode done, names, AbsFieldId.decode_encoded done⟩

theorem sample_names_written_as_read :
    (∃ m, AbsMethodId.decode "a.b.C.run:(La/B;[I)V\na.D" = .ok m ∧ m.encode.toList = "a.b.C.run:(La/B;[I)V".toList ∧
      AbsMethodId.decode m.encode = .ok m) ∧
    ∃ f, AbsFieldId.decode "a.b.C.size:[La/B;" = .ok f ∧ f.encode.toList = "a.b.C.size:[La/B;".toList ∧
      AbsFieldId.decode f.encode = .ok f := by
  have method : AbsMethodId.decode "a.b.C.run:(La/B;[I)V\na.D" =
      .ok ⟨⟨"a.b.C"⟩, ⟨"run", [.object ⟨"a/B"⟩, .array .int], none⟩⟩ := by
    with_unfolding_all rfl
  have field : AbsFieldId.decode "a.b.C.size:[La/B;" = .ok ⟨⟨"a.b.C"⟩, ⟨"size", .array (.object ⟨"a/B"⟩)⟩⟩ := by
    with_unfolding_all rfl
  obtain ⟨written, -, reread⟩ := (absolute_names_written_as_read _).1 _ method
  obtain ⟨fieldWritten, -, fieldReread⟩ := (absolute_names_written_as_read _).2 _ field
  exact ⟨⟨_, method, written, reread⟩, _, field, fieldWritten, fieldReread⟩

end BytecodeBench
