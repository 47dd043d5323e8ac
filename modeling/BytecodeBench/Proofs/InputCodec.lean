import BytecodeBench.Case
import BytecodeBench.Proofs.ValueGrammar

/-! Inputs: parenthesised series of values. Values are read back in their order if their integers have few enough
digits, and else cannot be written; and the values that are read from a text can be written, since quotes bound what
they quote and integers only lose digits. -/

namespace BytecodeBench

open Token (Lexes comma)

section Series

variable {allowed : Char → Prop} {vs : List Value} {pieces : List (List Char × List Token)}

abbrev Spellings : List Value → List (List Char × List Token) → Prop := List.Forall₂ fun v p => v.Spelling p.1 p.2

private theorem spellings_of_codable (format : ∀ c ∈ formatChars, allowed c) (codable : ∀ v ∈ vs, v.Codable allowed)
    (legible : ∀ v ∈ vs, v.content.legible = true) :
    ∃ pieces, Spellings vs pieces ∧ ∀ p ∈ pieces, ∀ c ∈ p.1, allowed c := by
  induction vs with
  | nil => exact ⟨[], .nil, List.forall_mem_nil _⟩
  | cons v vs ih =>
    rw [List.forall_mem_cons] at codable legible
    obtain ⟨text, ts, spelling, own⟩ := codable.1.spelling legible.1 format
    obtain ⟨pieces, spellings, others⟩ := ih codable.2 legible.2
    exact ⟨(text, ts) :: pieces, .cons spelling spellings, List.forall_mem_cons.mpr ⟨own, others⟩⟩

theorem Spellings.encode (spellings : Spellings vs pieces) :
    vs.mapM Value.encode = .ok (pieces.map fun p => String.ofList p.1) := by
  induction spellings with
  | nil => rfl
  | cons spelling _ ih =>
    rw [List.mapM_cons, spelling.encode, ih]
    rfl

theorem Spellings.lexes (spellings : Spellings vs pieces) : ∀ p ∈ pieces, Lexes p.1 p.2 := by
  induction spellings with
  | nil => exact List.forall_mem_nil _
  | cons spelling _ ih => exact List.forall_mem_cons.mpr ⟨spelling.lexes, ih⟩

theorem Spellings.reads (spellings : Spellings vs pieces) : List.Forall₂ ValueList.Reads (pieces.map (·.2)) vs := by
  rw [List.forall₂_map_left_iff]
  exact spellings.flip.imp fun _ _ spelling => spelling.parses

end Series

namespace Input

/-- The closing parenthesis breaks an integer in front of it, and starts no token itself. -/
theorem tokenize_parenthesised {pieces : List (List Char × List Token)} (lexes : ∀ p ∈ pieces, Lexes p.1 p.2) :
    Token.tokenize (String.ofList ('(' :: ", ".toList.intercalate (pieces.map (·.1)) ++ [')'])) =
      [comma].intercalate (pieces.map (·.2)) := by
  have lexed := Token.lexes_series lexes [')'] (by rintro c ⟨⟩; decide)
  have parenthesis : Token.scanAll 0 [')'] = [] := rfl
  rw [parenthesis, List.append_nil] at lexed
  rw [Token.tokenize, String.toList_ofList, ← lexed]
  rfl

theorem decode_eq_ok {s : String} {vs : List Value} :
    decode s = .ok ⟨vs⟩ ↔ (s.toList.head? = some '(' ∨ s.toList.getLast? = some ')') ∧ ValueList.decode s = .ok vs := by
  unfold decode
  cases s.toList with
  | nil => exact ⟨nofun, fun both => both.1.elim nofun nofun⟩
  | cons first rest =>
    dsimp only
    rw [List.head?_cons, Option.some.injEq]
    by_cases enclosed : first = '(' ∨ (first :: rest).getLast? = some ')'
    · have passes : ¬ (first ≠ '(' ∧ (first :: rest).getLast? ≠ some ')') := fun ⟨opens, closes⟩ => enclosed.elim opens closes
      rw [if_neg passes, and_iff_right enclosed]
      cases ValueList.decode s with
      | error cause => exact ⟨nofun, nofun⟩
      | ok vs => exact ⟨fun same => by cases same; rfl, fun same => by cases same; rfl⟩
    · rw [if_pos (not_or.mp enclosed)]
      exact ⟨nofun, fun both => absurd both.1 enclosed⟩

private theorem decode_parenthesised (inner : List Char) :
    decode (String.ofList ('(' :: inner)) = Input.mk <$> ValueList.decode (String.ofList ('(' :: inner)) := by
  unfold decode
  rw [String.toList_ofList]
  dsimp only
  rw [if_neg fun other => other.1 rfl]

/-- Values that can be written have a text in parentheses, from which they are read back in their order. -/
theorem encode_codable {allowed : Char → Prop} (format : ∀ c ∈ formatChars, allowed c) {vs : List Value}
    (codable : ∀ v ∈ vs, v.Codable allowed) (legible : ∀ v ∈ vs, v.content.legible = true) :
    ∃ text, (Input.mk vs).encode = .ok (String.ofList ('(' :: text ++ [')'])) ∧ (∀ c ∈ text, allowed c) ∧
      Input.decode (String.ofList ('(' :: text ++ [')'])) = .ok ⟨vs⟩ := by
  obtain ⟨pieces, spellings, own⟩ := spellings_of_codable format codable legible
  refine ⟨", ".toList.intercalate (pieces.map (·.1)), ?_, ?_, ?_⟩
  · unfold encode
    rw [spellings.encode]
    refine congrArg Except.ok (eq_ofList ?_)
    simp [Text.join, String.toList_intercalate, Function.comp_def]
  · intro c member
    rcases Text.mem_intercalate member with separator | ⟨part, inside, found⟩
    · exact format c (separator_format c separator)
    · obtain ⟨p, among, rfl⟩ := List.mem_map.mp inside
      exact own p among c found
  · have decoded : ValueList.decode (String.ofList ('(' :: ", ".toList.intercalate (pieces.map (·.1)) ++ [')'])) = .ok vs := by
      unfold ValueList.decode
      rw [tokenize_parenthesised spellings.lexes, ValueList.values_series spellings.reads]
      rfl
    rw [List.cons_append] at decoded ⊢
    rw [decode_parenthesised, decoded]
    rfl

theorem encode_illegible {vs : List Value} (codable : ∀ v ∈ vs, v.Codable fun _ => True)
    (illegible : ∃ v ∈ vs, v.content.legible = false) : (Input.mk vs).encode = .error (.tooManyDigits none) := by
  have values : vs.mapM Value.encode = .error (.tooManyDigits none) := by
    refine mapM_stops ?_ ?_
    · intro v member
      have own := codable v member
      cases size : v.content.legible with
      | true =>
        obtain ⟨text, ts, spelling, -⟩ := own.spelling size fun _ _ => trivial
        exact Or.inl ⟨_, spelling.encode⟩
      | false => exact Or.inr (own.encode_illegible size)
    · obtain ⟨v, member, size⟩ := illegible
      exact ⟨v, member, (codable v member).encode_illegible size⟩
  unfold encode
  rw [values]
  rfl

/-- Inputs whose integers can be written are read back from their texts, whatever the contents. Others have none. -/
theorem written_values_read_back (vs : List Value) (codable : ∀ v ∈ vs, v.Codable fun _ => True) :
    ((∀ v ∈ vs, v.content.legible = true) → ∃ text, (Input.mk vs).encode = .ok text ∧ decode text = .ok ⟨vs⟩) ∧
    (¬(∀ v ∈ vs, v.content.legible = true) → (Input.mk vs).encode = .error (.tooManyDigits none)) := by
  constructor
  · intro legible
    obtain ⟨text, encoded, -, decoded⟩ := encode_codable (fun _ _ => trivial) codable legible
    exact ⟨_, encoded, decoded⟩
  · intro some
    refine encode_illegible codable ?_
    simpa using some

/-- Values whose contents look like other values, or like what stands between them. -/
def deceptiveValues : List Value :=
  [.boolean false, .int (-12), .char '"', .string "it's [I:1], (true) 'x'\n", .string "", .array .int [],
    .array .int [.int 0, .int (-1)], .array .char (['"', ']', ','].map fun c => .text c.toString)]

theorem deceptiveValues_read_back :
    (∀ v ∈ deceptiveValues, v.Codable fun _ => True) ∧ (∀ v ∈ deceptiveValues, v.content.legible = true) ∧
      ∃ text, (Input.mk deceptiveValues).encode = .ok text ∧ decode text = .ok ⟨deceptiveValues⟩ := by
  have quoted (s : String) (unquoted : '"' ∉ s.toList) : (Value.string s).Codable fun _ => True := by
    have listed := Value.Codable.string unquoted fun _ _ => trivial
    rwa [String.ofList_toList] at listed
  have codable : ∀ v ∈ deceptiveValues, v.Codable fun _ => True := by
    unfold deceptiveValues
    simp only [List.forall_mem_cons]
    exact ⟨.boolean _, .int _, .char (by decide) trivial, quoted _ (by decide), quoted _ (by decide), .ints [],
      .ints [0, -1], .chars (by decide) fun _ _ => trivial, List.forall_mem_nil _⟩
  have legible : ∀ v ∈ deceptiveValues, v.content.legible = true := by decide
  exact ⟨codable, legible, (written_values_read_back _ codable).1 legible⟩

theorem decode_illegible {n : Int} (illegible : Decimal.legible n = false) :
    decode (String.ofList ('(' :: (toString n).toList ++ [')'])) =
      .error (.tooManyDigits (some (Nat.toDigits 10 n.natAbs).length)) := by
  have numeral : Token.tokenize (String.ofList ('(' :: (toString n).toList ++ [')'])) = [.integer n] := by
    have scanned := @tokenize_parenthesised [((Token.integer n).chars, [.integer n])]
      (List.forall_mem_singleton.mpr (Token.lexes_integer n))
    rwa [List.map_singleton, List.map_singleton, List.intercalate_singleton, List.intercalate_singleton] at scanned
  have refused := ValueList.decode_illegible numeral illegible
  rw [List.cons_append] at refused ⊢
  rw [decode_parenthesised, refused]
  rfl

/-- The least integer with too many digits cannot be written, and cannot be read from its digits. -/
theorem longInteger_unwritable :
    (Value.int Decimal.leastIllegible).Codable (fun _ => True) ∧
      (Input.mk [.int Decimal.leastIllegible]).encode = .error (.tooManyDigits none) ∧
      ∃ e, decode (String.ofList ('(' :: (toString Decimal.leastIllegible).toList ++ [')'])) = .error e ∧
        e.kind = .malformed := by
  have codable : (Value.int Decimal.leastIllegible).Codable fun _ => True := .int _
  refine ⟨codable, ?_, _, decode_illegible Decimal.leastIllegible_illegible, rfl⟩
  exact encode_illegible (List.forall_mem_singleton.mpr codable)
    ⟨_, List.mem_singleton_self _, Decimal.leastIllegible_illegible⟩

end Input

/-! Values that are read. -/

namespace ValueList

variable {allowed : Char → Prop}

/-- Tokens as they stand in texts of certain characters. -/
def Fine (allowed : Char → Prop) (t : Token) : Prop := t.Lexeme ∧ ∀ c ∈ t.chars, allowed c

theorem Fine.character {c : Char} (fine : Fine allowed (.character c)) : c ≠ '\'' ∧ allowed c := by
  obtain ⟨d, unquoted, same⟩ := fine.1.genuine.char rfl
  cases same
  exact ⟨unquoted, fine.2 c (by simp [Token.character])⟩

theorem Fine.quotation {text : List Char} (fine : Fine allowed (.quotation text)) :
    '"' ∉ text ∧ ∀ c ∈ text, allowed c := by
  obtain ⟨other, unquoted, same⟩ := fine.1.genuine.string rfl
  have text_eq : text = other := by simpa [Token.quotation] using same
  rw [text_eq] at fine ⊢
  refine ⟨unquoted, fun c member => fine.2 c ?_⟩
  simp [Token.quotation, member]

private theorem ints_of_items {items : List Token} {contents : List Datum}
    (denote : List.Forall₂ (Item .int) items contents) :
    ∃ ns : List Int, contents = ns.map .int := by
  induction denote with
  | nil => exact ⟨[], rfl⟩
  | cons item _ ih =>
    obtain ⟨ns, rfl⟩ := ih
    cases item with
    | @int t n => exact ⟨n :: ns, rfl⟩

theorem chars_of_items {items : List Token} {contents : List Datum} (denote : List.Forall₂ (Item .char) items contents) :
    ∃ cs : List Char, items = cs.map .character ∧ contents = cs.map fun c => .text c.toString := by
  induction denote with
  | nil => exact ⟨[], rfl, rfl⟩
  | cons item _ ih =>
    obtain ⟨cs, rfl, rfl⟩ := ih
    cases item with
    | char c => exact ⟨c :: cs, rfl, rfl⟩

/-- What a phrase of fine tokens stands for can be written. -/
theorem Denotes.codable {tokens : List Token} {v : Value} (denotes : Denotes tokens v)
    (fine : ∀ t ∈ tokens, Fine allowed t) : v.Codable allowed := by
  cases denotes with
  | int item =>
    cases item with
    | @int t n => exact .int n
  | char item =>
    cases item with
    | char c =>
      obtain ⟨unquoted, own⟩ := (fine _ List.mem_cons_self).character
      exact .char unquoted own
  | boolean b => exact .boolean b
  | string text =>
    obtain ⟨unquoted, own⟩ := (fine _ List.mem_cons_self).quotation
    exact .string unquoted own
  | ints denote =>
    obtain ⟨ns, rfl⟩ := ints_of_items denote
    exact .ints ns
  | chars denote =>
    obtain ⟨cs, rfl, rfl⟩ := chars_of_items denote
    have each (c : Char) (member : c ∈ cs) : c ≠ '\'' ∧ allowed c :=
      (fine _ (mem_bracketed (List.mem_map_of_mem member))).character
    exact .chars (fun quote => (each _ quote).1 rfl) fun c member => (each c member).2

theorem Item.legible {kind : TokenKind} {t : Token} {d : Datum} (item : Item kind t d) : d.legible = true := by
  cases item with
  | int _ read => exact Decimal.legible_of_readInt? read
  | char => rfl

theorem Denotes.legible {tokens : List Token} {v : Value} (denotes : Denotes tokens v) : v.content.legible = true := by
  have every {kind : TokenKind} {items : List Token} {contents : List Datum}
      (denote : List.Forall₂ (Item kind) items contents) : (Datum.tuple contents).legible = true := by
    rw [Datum.legible_tuple, List.all_eq_true]
    exact forall_partnered denote.flip fun _ _ _ item => item.legible
  cases denotes with
  | int item => exact item.legible
  | char item => exact item.legible
  | boolean => rfl
  | string => rfl
  | ints denote => exact every denote
  | chars denote => exact every denote

theorem decode_legible {s : String} {vs : List Value} (done : decode s = .ok vs) : ∀ v ∈ vs, v.content.legible = true := by
  obtain ⟨phrases, denote, -⟩ := decode_eq_ok.mp done
  exact forall_partnered denote.flip fun _ _ _ denotes => denotes.legible

theorem decode_codable {s : String} {vs : List Value} (done : decode s = .ok vs)
    (fine : ∀ t ∈ Token.tokenize s, Fine allowed t) : ∀ v ∈ vs, v.Codable allowed := by
  obtain ⟨phrases, denote, whole⟩ := decode_eq_ok.mp done
  have among (p : List Token) (inside : p ∈ phrases) (t : Token) (member : t ∈ p) : Fine allowed t := by
    apply fine
    rw [whole]
    exact Text.intercalate_mem inside member
  clear done whole
  induction denote with
  | nil => exact List.forall_mem_nil _
  | cons first _ ih =>
    obtain ⟨own, later⟩ := List.forall_mem_cons.mp among
    exact List.forall_mem_cons.mpr ⟨first.codable own, ih later⟩

end ValueList

namespace Input

/-- The values of a text that ends in its only closing parenthesis can be written without one, from the
characters of the text. -/
theorem decode_codable_within {allowed : Char → Prop} {front : List Char} {input : Input} (absent : ')' ∉ front)
    (own : ∀ c ∈ front, allowed c) (done : decode (String.ofList (front ++ [')'])) = .ok input) :
    ∀ v ∈ input.values, v.Codable fun c => c ≠ ')' ∧ allowed c := by
  -- No token reaches the parenthesis at the end, so none holds one.
  refine ValueList.decode_codable (decode_eq_ok.mp done).2 fun t member => ?_
  rw [Token.tokenize, String.toList_ofList] at member
  refine ⟨Token.scanAll_lexeme member, fun c inside => ?_⟩
  have apart : c ≠ ')' := fun same => Token.scanAll_avoids absent member (same ▸ inside)
  refine ⟨apart, own c ?_⟩
  rcases List.mem_append.mp (Token.scanAll_within member inside) with early | last
  · exact early
  · exact absurd (List.mem_singleton.mp last) apart

theorem decode_codable {front : List Char} {input : Input} (absent : ')' ∉ front)
    (done : decode (String.ofList (front ++ [')'])) = .ok input) : ∀ v ∈ input.values, v.Codable (· ≠ ')') := by
  simpa using decode_codable_within absent (fun _ _ => trivial) done

end Input
end BytecodeBench
