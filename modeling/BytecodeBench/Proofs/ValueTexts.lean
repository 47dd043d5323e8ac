import BytecodeBench.Jvm.ValueList
import BytecodeBench.Proofs.Computations
import BytecodeBench.Proofs.ValueTokens
import Mathlib.Data.List.Forall2

/-! Values and their texts. A value is read back from its text if its integers have few enough digits to be
written, and has no text if they have not. -/

namespace BytecodeBench

open Token (Lexes comma closing integer character truth quotation openInts openChars)

/-- Values of the kinds that are written and read back: a quote does not stand within what it quotes. Contents
may be held to further characters; integers may be of any size. -/
inductive Value.Codable (allowed : Char → Prop) : Value → Prop
  | int (n : Int) : Codable allowed (.int n)
  | boolean (b : Bool) : Codable allowed (.boolean b)
  | char {c : Char} : c ≠ '\'' → allowed c → Codable allowed (.char c)
  | string {text : List Char} : '"' ∉ text → (∀ c ∈ text, allowed c) → Codable allowed (.string (String.ofList text))
  | ints (ns : List Int) : Codable allowed (.array .int (ns.map .int))
  | chars {cs : List Char} : '\'' ∉ cs → (∀ c ∈ cs, allowed c) →
    Codable allowed (.array .char (cs.map fun c => .text c.toString))

def formatChars : List Char := Decimal.digitChars ++ "-'\"[]IC:, truefalse".toList

theorem separator_format : ∀ c ∈ ", ".toList, c ∈ formatChars := Text.forall_of_all (by decide)

structure Value.Spelling (v : Value) (text : List Char) (ts : List Token) : Prop where
  encode : v.encode = .ok (String.ofList text)
  lexes : Lexes text ts
  parses : ∀ input rest, ValueList.value input (ts ++ rest) = .ok (v, rest)

theorem eq_ofList {s : String} {text : List Char} (same : s.toList = text) : s = String.ofList text := by
  rw [← same, String.ofList_toList]

def bracketed (opening : Token) (items : List Token) : List Token :=
  opening :: [comma].intercalate (items.map ([·])) ++ [closing]

/-! Reading arrays. -/

namespace ValueList

variable {input : String} {kind : TokenKind} {t : Token} {d : Datum} {ts rest : List Token} {ds : List Datum}

def Holds (kind : TokenKind) (t : Token) (d : Datum) : Prop := t.kind = kind ∧ itemContent t = .ok d

theorem holds_integer {n : Int} (legible : Decimal.legible n = true) : Holds .int (integer n) (.int n) := by
  have text : (integer n).text = toString n := String.ofList_toList
  refine ⟨rfl, ?_⟩
  unfold itemContent
  rw [text, Decimal.readInt?_toString, if_pos legible]
  rfl

theorem holds_character (c : Char) : Holds .char (character c) (.text c.toString) := by
  have text : c.toString = String.ofList [c] := eq_ofList (by simp)
  rw [text]
  exact ⟨rfl, rfl⟩

private theorem moreItems_series (held : List.Forall₂ (Holds kind) ts ds) :
    moreItems input kind ((ts.flatMap fun t => [comma, t]) ++ closing :: rest) = .ok (ds, closing :: rest) := by
  induction held with
  | nil =>
    unfold moreItems
    rfl
  | @cons t d ts ds holds _ ih =>
    have separated : comma.kind = .comma := rfl
    have shape : ((t :: ts).flatMap fun t => [comma, t]) ++ closing :: rest =
        comma :: t :: ((ts.flatMap fun t => [comma, t]) ++ closing :: rest) := rfl
    rw [shape, moreItems, if_pos separated, if_pos holds.1, holds.2, ih]
    rfl

theorem arrayItems_series (held : List.Forall₂ (Holds kind) ts ds) (item : kind ≠ .closeArray) :
    arrayItems input kind ([comma].intercalate (ts.map ([·])) ++ closing :: rest) = .ok (ds, closing :: rest) := by
  cases held with
  | nil => rfl
  | @cons t d ts ds holds others =>
    have more := @moreItems_series input kind ts rest ds others
    have shape : [comma].intercalate ((t :: ts).map ([·])) ++ closing :: rest =
        t :: ((ts.flatMap fun t => [comma, t]) ++ closing :: rest) := by
      rw [List.map_cons, Text.intercalate_cons, List.flatMap_map]
      rfl
    rw [shape, arrayItems, holds.1, if_neg item, expect, if_pos holds.1]
    dsimp only [bind, Except.bind]
    rw [holds.2]
    dsimp only
    rw [more]
    rfl

end ValueList

/-! Writing contents. -/

namespace Datum

theorem legible_tuple (items : List Datum) : (tuple items).legible = items.all legible := by
  have each : ∀ items, allLegible items = items.all legible := by
    intro items
    induction items with
    | nil => rfl
    | cons item items ih => rw [allLegible, ih, List.all_cons]
  exact each items

theorem shown_of_legible {d : Datum} (legible : d.legible = true) : d.shown = .ok d.display := if_pos legible

theorem shown_of_illegible {d : Datum} (illegible : d.legible = false) : d.shown = .error (.tooManyDigits none) := by
  unfold shown
  rw [illegible]
  rfl

end Datum

theorem Value.quotedBy_of_legible {quote : String} {d : Datum} (legible : d.legible = true) :
    quotedBy quote d = .ok (quote ++ d.display ++ quote) := by
  unfold quotedBy
  rw [Datum.shown_of_legible legible]
  rfl

structure ArrayForm (α : Type) where
  contains : JvmType
  opening : Token
  kind : TokenKind
  token : α → Token
  content : α → Datum
  /-- The text of an item. -/
  write : Datum → Except Fault String
  filled : opening.chars ≠ []
  scans : ∀ rest, Token.scan? (opening.chars ++ rest) = some opening
  open_kind : kind ≠ .closeArray
  holds : ∀ a, (content a).legible = true → ValueList.Holds kind (token a) (content a)
  written : ∀ a, (content a).legible = true → write (content a) = .ok (String.ofList (token a).chars)
  refused : ∀ d, d.legible = false → write d = .error (.tooManyDigits none)
  reads : ∀ input ts, ValueList.value input (opening :: ts) = (do
    let (items, rest) ← ValueList.arrayItems input kind ts
    let (_, rest) ← ValueList.expect input .closeArray rest
    return (.array contains items, rest))
  writes : ∀ items : List Datum, (Value.array contains items).encode = do
    let texts ← items.mapM write
    return String.ofList opening.chars ++ Text.join ", " texts ++ String.ofList closing.chars

namespace ArrayForm

def ints : ArrayForm Int where
  contains := .int
  opening := openInts
  kind := .int
  token := integer
  content := .int
  write := Datum.shown
  filled := nofun
  scans := fun _ => rfl
  open_kind := nofun
  holds := fun _ legible => ValueList.holds_integer legible
  written := fun _ legible => (Datum.shown_of_legible legible).trans (congrArg Except.ok (eq_ofList rfl))
  refused := fun _ illegible => Datum.shown_of_illegible illegible
  reads := fun _ _ => rfl
  writes := fun _ => rfl

def chars : ArrayForm Char where
  contains := .char
  opening := openChars
  kind := .char
  token := character
  content := fun c => .text c.toString
  write := Value.quotedBy "'"
  filled := nofun
  scans := fun _ => rfl
  open_kind := nofun
  holds := fun c _ => ValueList.holds_character c
  written := fun c legible => (Value.quotedBy_of_legible legible).trans
    (congrArg Except.ok (eq_ofList (by simp [Datum.display, character])))
  refused := fun d illegible => by
    unfold Value.quotedBy
    rw [Datum.shown_of_illegible illegible]
    rfl
  reads := fun _ _ => rfl
  writes := fun _ => rfl

variable {α : Type} (form : ArrayForm α) (xs : List α)

def value : Value := .array form.contains (xs.map form.content)

def text : List Char :=
  form.opening.chars ++ ", ".toList.intercalate (xs.map fun a => (form.token a).chars) ++ closing.chars

def tokens : List Token := form.opening :: [comma].intercalate (xs.map fun a => [form.token a]) ++ [closing]

section Writing

variable {form xs}

private theorem legible_items (legible : (form.value xs).content.legible = true) :
    ∀ a ∈ xs, (form.content a).legible = true := by
  have every : (xs.map form.content).all Datum.legible = true := by rw [← Datum.legible_tuple]; exact legible
  simpa using every

theorem encode_value (legible : (form.value xs).content.legible = true) :
    (form.value xs).encode = .ok (String.ofList (form.text xs)) := by
  have items : (xs.map form.content).mapM form.write = .ok (xs.map fun a => String.ofList (form.token a).chars) := by
    have each := legible_items legible
    clear legible
    induction xs with
    | nil => rfl
    | cons a xs ih =>
      obtain ⟨own, others⟩ := List.forall_mem_cons.mp each
      rw [List.map_cons, List.mapM_cons, form.written a own, ih others]
      rfl
  unfold value
  rw [form.writes, items]
  refine congrArg Except.ok (eq_ofList ?_)
  simp [text, Text.join, String.toList_intercalate, Function.comp_def]

theorem encode_illegible (illegible : (form.value xs).content.legible = false) :
    (form.value xs).encode = .error (.tooManyDigits none) := by
  have some : ∃ a ∈ xs, (form.content a).legible = false := by
    have every : (xs.map form.content).all Datum.legible = false := by rw [← Datum.legible_tuple]; exact illegible
    simpa using every
  have items : (xs.map form.content).mapM form.write = .error (.tooManyDigits none) := by
    refine mapM_stops ?_ ?_
    · intro d member
      obtain ⟨a, -, rfl⟩ := List.mem_map.mp member
      cases size : (form.content a).legible with
      | true => exact Or.inl ⟨_, form.written a size⟩
      | false => exact Or.inr (form.refused _ size)
    · obtain ⟨a, member, size⟩ := some
      exact ⟨_, List.mem_map_of_mem member, form.refused _ size⟩
  unfold value
  rw [form.writes, items]
  rfl

end Writing

theorem lexes_value (lexes : ∀ a ∈ xs, Lexes (form.token a).chars [form.token a]) : Lexes (form.text xs) (form.tokens xs) := by
  have pieces : ∀ p ∈ xs.map (fun a => ((form.token a).chars, [form.token a])), Lexes p.1 p.2 := by
    intro p member
    obtain ⟨a, inside, rfl⟩ := List.mem_map.mp member
    exact lexes a inside
  have whole := Token.lexes_array form.filled form.scans pieces
  simp only [List.map_map, Function.comp_def] at whole
  exact whole

theorem parses_items {items : List Token} {contents : List Datum}
    (held : List.Forall₂ (ValueList.Holds form.kind) items contents) (input : String) (rest : List Token) :
    ValueList.value input (bracketed form.opening items ++ rest) = .ok (.array form.contains contents, rest) := by
  have read := @ValueList.arrayItems_series input form.kind _ rest _ held form.open_kind
  unfold bracketed
  simp only [List.cons_append, List.append_assoc, List.nil_append]
  rw [form.reads, read]
  rfl

variable {form xs} in
theorem spelling (legible : (form.value xs).content.legible = true)
    (lexes : ∀ a ∈ xs, Lexes (form.token a).chars [form.token a]) :
    (form.value xs).Spelling (form.text xs) (form.tokens xs) := by
  refine ⟨encode_value legible, form.lexes_value xs lexes, ?_⟩
  have held : List.Forall₂ (ValueList.Holds form.kind) (xs.map form.token) (xs.map form.content) := by
    rw [List.forall₂_map_left_iff, List.forall₂_map_right_iff, List.forall₂_same]
    exact fun a member => form.holds a (legible_items legible a member)
  intro input rest
  have parsed := form.parses_items held input rest
  simp only [bracketed, List.map_map, Function.comp_def] at parsed
  exact parsed

theorem text_allowed {allowed : Char → Prop} (format : ∀ c ∈ formatChars, allowed c)
    (opening : ∀ c ∈ form.opening.chars, c ∈ formatChars) (items : ∀ a ∈ xs, ∀ c ∈ (form.token a).chars, allowed c) :
    ∀ c ∈ form.text xs, allowed c := by
  intro c member
  unfold text at member
  rcases List.mem_append.mp member with front | close
  · rcases List.mem_append.mp front with first | inner
    · exact format c (opening c first)
    · rcases Text.mem_intercalate inner with separator | ⟨part, inside, found⟩
      · exact format c (separator_format c separator)
      · obtain ⟨a, among, rfl⟩ := List.mem_map.mp inside
        exact items a among c found
  · have known : ∀ c ∈ closing.chars, c ∈ formatChars := Text.forall_of_all (by decide)
    exact format c (known c close)

end ArrayForm

namespace Value

variable {allowed : Char → Prop} {v : Value}

private theorem integer_format (n : Int) : ∀ c ∈ (integer n).chars, c ∈ formatChars := by
  intro c member
  unfold integer at member
  rw [Decimal.toList_toString] at member
  rcases List.mem_append.mp member with sign | digit
  · split at sign
    · rw [List.mem_singleton.mp sign]
      decide
    · cases sign
  · exact List.mem_append_left _ (Decimal.toDigits_subset _ c digit)

private theorem character_allowed (format : ∀ c ∈ formatChars, allowed c) {c : Char} (own : allowed c) :
    ∀ d ∈ (character c).chars, allowed d := by
  have quote := format '\'' (by decide)
  intro d member
  simp only [character, List.mem_cons, List.not_mem_nil, or_false] at member
  rcases member with rfl | rfl | rfl
  · exact quote
  · exact own
  · exact quote

/-- A value that can be written has a text, which holds no characters but those of its contents and of
the format. -/
theorem Codable.spelling (codable : v.Codable allowed) (legible : v.content.legible = true)
    (format : ∀ c ∈ formatChars, allowed c) : ∃ text ts, v.Spelling text ts ∧ ∀ c ∈ text, allowed c := by
  cases codable with
  | int n =>
    refine ⟨(integer n).chars, [integer n], ⟨?_, Token.lexes_integer n, ?_⟩, ?_⟩
    · exact (Datum.shown_of_legible legible).trans (congrArg Except.ok (eq_ofList rfl))
    · intro input rest
      rw [List.singleton_append, ValueList.value, (ValueList.holds_integer legible).2]
      rfl
    · exact fun c member => format c (integer_format n c member)
  | boolean b =>
    refine ⟨(truth b).chars, [truth b], ⟨?_, Token.lexes_truth b, ?_⟩, ?_⟩
    · cases b <;> rfl
    · cases b <;> exact fun _ _ => rfl
    · have known : ∀ c ∈ (truth b).chars, c ∈ formatChars := by
        cases b <;> exact Text.forall_of_all (by decide)
      exact fun c member => format c (known c member)
  | @char c unquoted own =>
    refine ⟨(character c).chars, [character c], ⟨?_, Token.lexes_character unquoted, ?_⟩, character_allowed format own⟩
    · refine (quotedBy_of_legible legible).trans (congrArg Except.ok (eq_ofList ?_))
      simp [Value.char, Datum.display, character]
    · intro input rest
      rw [List.singleton_append, ValueList.value, (ValueList.holds_character c).2]
      rfl
  | @string text unquoted own =>
    refine ⟨(quotation text).chars, [quotation text], ⟨?_, Token.lexes_quotation unquoted, ?_⟩, ?_⟩
    · refine (quotedBy_of_legible legible).trans (congrArg Except.ok (eq_ofList ?_))
      simp [Value.string, Datum.display, quotation]
    · intro input rest
      have read : ValueList.value input ([quotation text] ++ rest) =
        .ok (.string (String.ofList (('"' :: text ++ ['"']).drop 1).dropLast), rest) := rfl
      rw [read]
      simp
    · intro c member
      simp only [quotation, List.mem_append, List.mem_cons, List.not_mem_nil, or_false] at member
      rcases member with (rfl | inside) | rfl
      · exact format '"' (by decide)
      · exact own c inside
      · exact format '"' (by decide)
  | ints ns =>
    refine ⟨_, _, @ArrayForm.spelling _ .ints ns legible fun n _ => Token.lexes_integer n, ?_⟩
    exact ArrayForm.ints.text_allowed ns format (Text.forall_of_all (by decide))
      fun n _ c member => format c (integer_format n c member)
  | @chars cs unquoted own =>
    refine ⟨_, _, @ArrayForm.spelling _ .chars cs legible fun c member => ?_, ?_⟩
    · exact Token.lexes_character fun quote => unquoted (quote ▸ member)
    · exact ArrayForm.chars.text_allowed cs format (Text.forall_of_all (by decide))
        fun c member => character_allowed format (own c member)

/-- A value with too many digits has no text. -/
theorem Codable.encode_illegible (codable : v.Codable allowed) (illegible : v.content.legible = false) :
    v.encode = .error (.tooManyDigits none) := by
  cases codable with
  | int n => exact Datum.shown_of_illegible illegible
  | boolean b => cases illegible
  | char => cases illegible
  | string => cases illegible
  | ints ns => exact @ArrayForm.encode_illegible _ .ints ns illegible
  | @chars cs => exact @ArrayForm.encode_illegible _ .chars cs illegible

end Value
end BytecodeBench
