import BytecodeBench.Proofs.Identifiers
import Mathlib.Data.List.Forall2

/-! The grammar of descriptors. A descriptor carries its own end, so a text is made of descriptors in one
way at most. Reading gives the types of these, and refuses every other text as malformed. -/

namespace BytecodeBench

namespace JvmType

def letters : List (Char × JvmType) :=
  [('Z', boolean), ('I', int), ('B', byte), ('C', char), ('S', short), ('J', long), ('F', float), ('D', double)]

inductive Describes : List Char → JvmType → Prop
  | primitive {letter : Char} {t : JvmType} : (letter, t) ∈ letters → Describes [letter] t
  | object {name : List Char} : ';' ∉ name → Describes ('L' :: name ++ [';']) (object ⟨String.ofList name⟩)
  | array {text : List Char} {t : JvmType} : Describes text t → Describes ('[' :: text) (array t)

variable {whole cs text other rest remaining : List Char} {t u : JvmType} {ts us : List JvmType}

theorem primitive?_eq_some {letter : Char} : primitive? letter = some t ↔ (letter, t) ∈ letters := by
  constructor
  · intro found
    unfold primitive? at found
    split at found <;> cases found <;> decide
  · intro listed
    simp only [letters, List.mem_cons, Prod.mk.injEq, List.not_mem_nil, or_false] at listed
    rcases listed with ⟨rfl, rfl⟩ | ⟨rfl, rfl⟩ | ⟨rfl, rfl⟩ | ⟨rfl, rfl⟩ | ⟨rfl, rfl⟩ | ⟨rfl, rfl⟩ | ⟨rfl, rfl⟩ | ⟨rfl, rfl⟩ <;>
      rfl

/-! One descriptor. -/

/-- A descriptor is read up to its end, whatever follows it. -/
theorem Describes.readFrom (describes : Describes text t) : readFrom whole (text ++ rest) = .ok (t, rest) := by
  induction describes with
  | @primitive letter t listed =>
    have found := primitive?_eq_some.mpr listed
    rw [List.singleton_append]
    unfold JvmType.readFrom
    split
    next empty => cases empty
    next bracket => cases bracket; cases found
    next marker => cases marker; cases found
    next same => cases same; rw [found]
  | @object name unmarked =>
    have shape : 'L' :: name ++ [';'] ++ rest = 'L' :: (name ++ ';' :: rest) := by simp
    rw [shape, JvmType.readFrom, Text.dropWhile_append unmarked, Text.takeWhile_append unmarked]
  | array _ ih =>
    rw [List.cons_append, JvmType.readFrom, ih]
    rfl

theorem Describes.nonempty (describes : Describes text t) : text ≠ [] := by
  cases describes <;> simp

/-- Where two descriptors begin a text, they are one. -/
theorem Describes.unique (left : Describes text t) (right : Describes other u)
    (same : text ++ rest = other ++ remaining) : text = other ∧ t = u ∧ rest = remaining := by
  have first := @Describes.readFrom [] _ rest _ left
  rw [same, right.readFrom] at first
  cases first
  exact ⟨List.append_cancel_right same, rfl, rfl⟩

private theorem readFrom_describes (done : readFrom whole cs = .ok (t, rest)) :
    ∃ text, cs = text ++ rest ∧ Describes text t := by
  induction cs generalizing t with
  | nil => cases done
  | cons c cs ih =>
    rcases readFrom_cases done with ⟨tail, inner, same, rfl, read⟩ | ⟨name, unmarked, same, rfl⟩ | ⟨letter, same, found⟩
    · cases same
      obtain ⟨text, rfl, describes⟩ := ih read
      exact ⟨'[' :: text, rfl, describes.array⟩
    · refine ⟨'L' :: name ++ [';'], ?_, .object unmarked⟩
      rw [same]
      simp
    · exact ⟨[letter], same, .primitive (primitive?_eq_some.mp found)⟩

private theorem readFrom_fails : FailsAs .malformed (readFrom whole cs) := by
  induction cs with
  | nil => exact .throw rfl
  | cons c cs ih =>
    unfold readFrom
    split
    · exact .throw rfl
    next tail same =>
      cases same
      exact ih.bind fun _ _ => .pure _
    · split
      · exact .throw rfl
      · exact .pure _
    · split
      · exact .pure _
      · exact .throw rfl

/-! Descriptors one after the other. -/

/-- A text cut into descriptors, with the types that these stand for. -/
def Decomposes (cs : List Char) (pieces : List (List Char)) (ts : List JvmType) : Prop :=
  pieces.flatten = cs ∧ List.Forall₂ Describes pieces ts

variable {pieces others : List (List Char)}

theorem Decomposes.cons (describes : Describes text t) (later : Decomposes cs pieces ts) :
    Decomposes (text ++ cs) (text :: pieces) (t :: ts) :=
  ⟨congrArg (text ++ ·) later.1, .cons describes later.2⟩

theorem Decomposes.readAll (decomposes : Decomposes cs pieces ts) : readAll cs = .ok ts := by
  obtain ⟨rfl, describe⟩ := decomposes
  induction describe with
  | nil =>
    unfold JvmType.readAll
    rfl
  | cons first _ ih =>
    rw [List.flatten_cons, readAll_step first.readFrom, ih]
    rfl

private theorem readAll_decomposes (done : readAll cs = .ok ts) : ∃ pieces, Decomposes cs pieces ts := by
  induction ts generalizing cs with
  | nil =>
    rcases readAll_cases done with ⟨rfl, -⟩ | ⟨_, _, _, _, _, ⟨⟩⟩
    exact ⟨[], rfl, .nil⟩
  | cons t ts ih =>
    rcases readAll_cases done with ⟨-, ⟨⟩⟩ | ⟨_, rest, _, step, inner, ⟨⟩⟩
    obtain ⟨text, rfl, describes⟩ := readFrom_describes step
    obtain ⟨pieces, later⟩ := ih inner
    exact ⟨text :: pieces, later.cons describes⟩

private theorem readAll_fails : FailsAs .malformed (readAll cs) := by
  fun_induction readAll cs with
  | case1 => exact .pure _
  | case2 c tail e step =>
    have failed := readFrom_fails e step
    exact .throw failed
  | case3 c tail t rest step ih => exact ih.bind fun _ _ => .pure _

/-- There is one way at most to cut a text into descriptors. -/
theorem Decomposes.unique (left : Decomposes cs pieces ts) (right : Decomposes cs others us) :
    pieces = others ∧ ts = us := by
  obtain ⟨rfl, describe⟩ := left
  obtain ⟨same, alike⟩ := right
  induction describe generalizing others us with
  | nil =>
    cases alike with
    | nil => exact ⟨rfl, rfl⟩
    | cons first _ => exact absurd (List.append_eq_nil_iff.mp same).1 first.nonempty
  | cons first _ ih =>
    cases alike with
    | nil => exact absurd (List.append_eq_nil_iff.mp same.symm).1 first.nonempty
    | cons second later =>
      obtain ⟨rfl, rfl, tails⟩ := second.unique first same
      obtain ⟨rfl, rfl⟩ := ih tails later
      exact ⟨rfl, rfl⟩

/-! Writing descriptors. -/

inductive Describable : JvmType → Prop
  | primitive {letter : Char} {t : JvmType} : (letter, t) ∈ letters → Describable t
  | object {name : ClassName} : '.' ∉ name.text.toList → ';' ∉ name.text.toList → Describable (object name)
  | array {contains : JvmType} : Describable contains → Describable (array contains)

theorem encode_object {name : ClassName} (dotless : '.' ∉ name.text.toList) :
    (object name).encode.toList = 'L' :: name.text.toList ++ [';'] := by
  rw [encode, ClassName.slashed_eq dotless]
  simp

theorem encode_array (contains : JvmType) : (array contains).encode.toList = '[' :: contains.encode.toList := by
  rw [encode]
  simp

theorem Describable.describes (describable : t.Describable) : Describes t.encode.toList t := by
  induction describable with
  | primitive listed =>
    rw [primitive?_encode (primitive?_eq_some.mpr listed)]
    exact .primitive listed
  | object dotless unmarked =>
    have described := Describes.object unmarked
    rwa [String.ofList_toList, ← encode_object dotless] at described
  | array _ ih =>
    rw [encode_array]
    exact ih.array

theorem decomposes_encode (describable : ∀ t ∈ ts, t.Describable) :
    Decomposes (Parameters.encode ts).toList (ts.map fun t => t.encode.toList) ts := by
  constructor
  · simp [Parameters.encode, String.toList_join, List.flatMap_def, Function.comp_def]
  · rw [List.forall₂_map_left_iff, List.forall₂_same]
    intro t member
    exact (describable t member).describes

end JvmType

namespace Parameters

open JvmType

theorem decode_eq_ok {s : String} {ts : Parameters} :
    decode s = .ok ts ↔ ∃ pieces, Decomposes s.toList pieces ts := by
  constructor
  · intro done
    exact readAll_decomposes done
  · rintro ⟨pieces, decomposes⟩
    exact decomposes.readAll

/-- Parameters are read from the texts that are made of descriptors and from no others. The reading ends, as
each descriptor leaves less text to be read, and it is the inverse of the writing. -/
theorem descriptors_read_exactly :
    (∀ (s : String) (ts : Parameters), decode s = .ok ts ↔ ∃ pieces, Decomposes s.toList pieces ts) ∧
    (∀ (s : String) (pieces others : List (List Char)) (ts us : Parameters),
      Decomposes s.toList pieces ts → Decomposes s.toList others us → pieces = others ∧ ts = us) ∧
    (∀ s : String, (¬ ∃ pieces ts, Decomposes s.toList pieces ts) → ∃ e, decode s = .error e ∧ e.kind = .malformed) ∧
    (∀ (s rest : String) (t : JvmType), JvmType.decode s = .ok (t, rest) → rest.length < s.length) ∧
    (∀ (s : String) (ts : Parameters), '.' ∉ s.toList → decode s = .ok ts → ts.encode = s) ∧
    (∀ ts : Parameters, (∀ t ∈ ts, t.Describable) → decode ts.encode = .ok ts) ∧
    (∀ (t : JvmType) (rest : String), t.Describable → JvmType.decode (t.encode ++ rest) = .ok (t, rest)) := by
  refine ⟨fun s ts => decode_eq_ok, ?_, ?_, ?_, ?_, ?_, ?_⟩
  · intro s pieces others ts us left right
    exact left.unique right
  · intro s indivisible
    cases result : decode s with
    | ok ts =>
      obtain ⟨pieces, decomposes⟩ := decode_eq_ok.mp result
      exact absurd ⟨pieces, ts, decomposes⟩ indivisible
    | error e => exact ⟨e, rfl, readAll_fails e result⟩
  · intro s rest t done
    obtain ⟨⟨found, left⟩, step, last⟩ := bind_eq_ok.mp done
    cases last
    have shorter := read_shorter step
    rwa [String.length_toList, ← String.length_ofList] at shorter
  · intro s ts dotless done
    exact String.toList_inj.mp (readAll_encode dotless done)
  · intro ts describable
    exact (decomposes_encode describable).readAll
  · intro t rest describable
    have read : JvmType.read (t.encode ++ rest).toList = .ok (t, rest.toList) := by
      rw [String.toList_append]
      exact describable.describes.readFrom
    unfold JvmType.decode
    rw [read]
    exact congrArg (fun left => Except.ok (t, left)) String.ofList_toList

/-- Two arrays and a class in one text, a text that ends too early, and text behind a descriptor. -/
theorem nestedArrays_read_exactly :
    decode "[[ILa/B;Z" = .ok [.array (.array .int), .object ⟨"a/B"⟩, .boolean] ∧
    encode [.array (.array .int), .object ⟨"a/B"⟩, .boolean] = "[[ILa/B;Z" ∧
    (∀ pieces ts, Decomposes "[[ILa/B;Z".toList pieces ts → pieces = ["[[I".toList, "La/B;".toList, "Z".toList]) ∧
    (∃ e, decode "ILa/B" = .error e ∧ e.kind = .malformed) ∧
    JvmType.decode ((JvmType.array (.object ⟨"a/B"⟩)).encode ++ ";.I") = .ok (.array (.object ⟨"a/B"⟩), ";.I") ∧
    (";.I" : String).length < ((JvmType.array (.object ⟨"a/B"⟩)).encode ++ ";.I").length := by
  obtain ⟨accepts, unique, refuses, shortens, written, reread, follows⟩ := descriptors_read_exactly
  have integer : JvmType.int.Describable := @Describable.primitive 'I' _ (by decide)
  have named : (JvmType.object ⟨"a/B"⟩).Describable := .object (by decide) (by decide)
  have truth : JvmType.boolean.Describable := @Describable.primitive 'Z' _ (by decide)
  have describable : ∀ t ∈ [JvmType.array (.array .int), .object ⟨"a/B"⟩, .boolean], t.Describable := by
    simp only [List.forall_mem_cons]
    exact ⟨integer.array.array, named, truth, List.forall_mem_nil _⟩
  have done : decode "[[ILa/B;Z" = .ok [.array (.array .int), .object ⟨"a/B"⟩, .boolean] := reread _ describable
  have short : ¬ ∃ pieces ts, Decomposes "ILa/B".toList pieces ts := by
    rintro ⟨pieces, ts, decomposes⟩
    have read := (accepts "ILa/B" ts).mpr ⟨pieces, decomposes⟩
    have failed : decode "ILa/B" = .error .unterminatedClassName := by with_unfolding_all rfl
    rw [failed] at read
    cases read
  have rest := follows (.array (.object ⟨"a/B"⟩)) ";.I" named.array
  refine ⟨done, written _ _ (by decide) done, ?_, refuses _ short, rest, shortens _ _ _ rest⟩
  intro pieces ts decomposes
  exact (unique _ _ _ _ _ decomposes (decomposes_encode describable)).1

end Parameters
end BytecodeBench
