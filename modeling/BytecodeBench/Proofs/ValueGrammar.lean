import BytecodeBench.Proofs.ValueTexts

/-! The grammar of value lists. Values stand between commas, and an array has its items, all of one kind,
between brackets. The reader takes the tokens of a text by this grammar, as long as no numeral among them has too
many digits: it gives one value for each phrase, and refuses every other series of tokens as malformed. -/

namespace BytecodeBench.ValueList

open Token (Lexeme comma closing character truth quotation openInts openChars)

inductive Phrase : List Token → Prop
  | int {t : Token} : t.kind = .int → Phrase [t]
  | char {t : Token} : t.kind = .char → Phrase [t]
  | bool {t : Token} : t.kind = .bool → Phrase [t]
  | string {t : Token} : t.kind = .string → Phrase [t]
  | ints {items : List Token} : (∀ t ∈ items, t.kind = .int) → Phrase (bracketed openInts items)
  | chars {items : List Token} : (∀ t ∈ items, t.kind = .char) → Phrase (bracketed openChars items)

/-- Nothing, or phrases with commas between them. -/
def Grammatical (ts : List Token) : Prop := ∃ phrases, (∀ p ∈ phrases, Phrase p) ∧ ts = [comma].intercalate phrases

def Readable (t : Token) : Prop := t.kind = .int → t.digitCount ≤ Decimal.digitLimit

/-- What a token stands for that can be an item of an array. -/
inductive Item : TokenKind → Token → Datum → Prop
  | int {t : Token} {n : Int} : t.kind = .int → Decimal.readInt? t.text = some n → Item .int t (.int n)
  | char (c : Char) : Item .char (character c) (.text c.toString)

inductive Denotes : List Token → Value → Prop
  | int {t : Token} {d : Datum} : Item .int t d → Denotes [t] ⟨.int, d⟩
  | char {t : Token} {d : Datum} : Item .char t d → Denotes [t] ⟨.char, d⟩
  | boolean (b : Bool) : Denotes [truth b] (.boolean b)
  | string (text : List Char) : Denotes [quotation text] (.string (String.ofList text))
  | ints {items : List Token} {contents : List Datum} : List.Forall₂ (Item .int) items contents →
    Denotes (bracketed openInts items) (.array .int contents)
  | chars {items : List Token} {contents : List Datum} : List.Forall₂ (Item .char) items contents →
    Denotes (bracketed openChars items) (.array .char contents)

section Partners

variable {α β : Type} {related : α → β → Prop} {as : List α} {bs : List β}

theorem exists_partners (each : ∀ a ∈ as, ∃ b, related a b) : ∃ bs, List.Forall₂ related as bs := by
  induction as with
  | nil => exact ⟨[], .nil⟩
  | cons a as ih =>
    obtain ⟨⟨b, own⟩, others⟩ := List.forall_mem_cons.mp each
    obtain ⟨bs, rest⟩ := ih others
    exact ⟨b :: bs, .cons own rest⟩

theorem forall_partnered {good : α → Prop} (partners : List.Forall₂ related as bs)
    (each : ∀ a ∈ as, ∀ b, related a b → good a) : ∀ a ∈ as, good a := by
  induction partners with
  | nil => exact List.forall_mem_nil _
  | cons first _ ih =>
    obtain ⟨own, others⟩ := List.forall_mem_cons.mp each
    exact List.forall_mem_cons.mpr ⟨own _ first, ih others⟩

end Partners

variable {input : String} {kind : TokenKind} {ts items tokens : List Token} {phrases : List (List Token)}
  {t : Token} {d : Datum} {contents : List Datum} {v : Value} {vs : List Value}

/-! Tokens. -/

private theorem eq_comma (lexeme : t.Lexeme) (same : t.kind = .comma) : t = comma := by
  cases lexeme <;> first | rfl | cases same

private theorem eq_closing (lexeme : t.Lexeme) (same : t.kind = .closeArray) : t = closing := by
  cases lexeme <;> first | rfl | cases same

theorem Item.holds (item : Item kind t d) : Holds kind t d := by
  cases item with
  | int same read =>
    refine ⟨same, ?_⟩
    unfold itemContent
    rw [same, read]
  | char c => exact holds_character c

theorem digitCount_number (negative : Bool) {digits : List Char} (digital : ∀ c ∈ digits, Text.isDecimalDigit c = true) :
    Token.digitCount ⟨.int, (if negative then ['-'] else []) ++ digits⟩ = digits.length := by
  have sign : (if negative then ['-'] else []).countP Text.isDecimalDigit = 0 := by cases negative <;> decide
  rw [Token.digitCount, List.countP_append, sign, List.countP_eq_length.mpr digital, Nat.zero_add]

/-- Numerals and characters have a content, whatever script a digit is of, unless a numeral is too long. -/
theorem exists_item (lexeme : t.Lexeme) (same : t.kind = kind) (scalar : kind = .int ∨ kind = .char)
    (readable : Readable t) : ∃ d, Item kind t d := by
  subst same
  cases lexeme with
  | number negative filled digital =>
    have few := readable rfl
    rw [digitCount_number negative digital] at few
    exact ⟨_, .int rfl ((Decimal.readInt?_run negative digital filled).trans (if_pos few))⟩
  | character => exact ⟨_, .char _⟩
  | _ => rcases scalar with other | other <;> cases other

theorem Item.readable (item : Item kind t d) (lexeme : t.Lexeme) : Readable t := by
  intro numeral
  cases item with
  | int same read =>
    cases lexeme with
    | number negative filled digital =>
      rw [digitCount_number negative digital]
      by_contra many
      rw [Token.text, Decimal.readInt?_run negative digital filled, if_neg many] at read
      cases read
    | _ => cases same
  | char => cases numeral

/-- What a token of a text is read as is what it stands for. -/
theorem Holds.item (holds : Holds kind t d) (lexeme : t.Lexeme) (scalar : kind = .int ∨ kind = .char) : Item kind t d := by
  obtain ⟨same, content⟩ := holds
  have readable : Readable t := by
    intro numeral
    unfold itemContent at content
    rw [numeral] at content
    dsimp only at content
    split at content
    next read => exact (Item.int numeral read).readable lexeme numeral
    · cases content
  obtain ⟨other, item⟩ := exists_item lexeme same scalar readable
  have equal := item.holds.2.symm.trans content
  cases equal
  exact item

private theorem items_of_holds (held : List.Forall₂ (Holds kind) items contents) (lexemes : ∀ t ∈ items, t.Lexeme)
    (scalar : kind = .int ∨ kind = .char) : List.Forall₂ (Item kind) items contents := by
  induction held with
  | nil => exact .nil
  | cons holds _ ih =>
    obtain ⟨own, others⟩ := List.forall_mem_cons.mp lexemes
    exact .cons (holds.item own scalar) (ih others)

/-! Phrases. -/

private theorem mem_separated (member : t ∈ items) : t ∈ [comma].intercalate (items.map ([·])) :=
  Text.intercalate_mem (List.mem_map_of_mem member) List.mem_cons_self

theorem mem_bracketed {opening : Token} (member : t ∈ items) : t ∈ bracketed opening items :=
  List.mem_append_left _ (List.mem_cons_of_mem _ (mem_separated member))

private theorem bracketed_cases {opening : Token} (member : t ∈ bracketed opening items) :
    t = opening ∨ t = comma ∨ t = closing ∨ t ∈ items := by
  rcases List.mem_append.mp member with front | last
  · rcases List.mem_cons.mp front with first | inner
    · exact Or.inl first
    · rcases Text.mem_intercalate inner with separator | ⟨part, inside, found⟩
      · exact Or.inr (Or.inl (List.mem_singleton.mp separator))
      · obtain ⟨item, among, rfl⟩ := List.mem_map.mp inside
        rw [List.mem_singleton.mp found]
        exact Or.inr (Or.inr (Or.inr among))
  · exact Or.inr (Or.inr (Or.inl (List.mem_singleton.mp last)))

/-- Every phrase of tokens that a text can have stands for a value, if its numerals can be read. -/
theorem Phrase.denotes (phrase : Phrase tokens) (lexemes : ∀ t ∈ tokens, t.Lexeme) (readable : ∀ t ∈ tokens, Readable t) :
    ∃ v, Denotes tokens v := by
  have item {t : Token} {kind : TokenKind} (member : t ∈ tokens) (same : t.kind = kind)
      (scalar : kind = .int ∨ kind = .char) : ∃ d, Item kind t d :=
    exists_item (lexemes t member) same scalar (readable t member)
  cases phrase with
  | int same =>
    obtain ⟨d, content⟩ := item List.mem_cons_self same (Or.inl rfl)
    exact ⟨_, .int content⟩
  | char same =>
    obtain ⟨d, content⟩ := item List.mem_cons_self same (Or.inr rfl)
    exact ⟨_, .char content⟩
  | bool same =>
    cases lexemes _ List.mem_cons_self with
    | truth b => exact ⟨_, .boolean b⟩
    | _ => cases same
  | string same =>
    cases lexemes _ List.mem_cons_self with
    | @quotation text => exact ⟨_, .string text⟩
    | _ => cases same
  | ints alike =>
    obtain ⟨contents, denote⟩ := exists_partners fun t member =>
      item (mem_bracketed member) (alike t member) (Or.inl rfl)
    exact ⟨_, .ints denote⟩
  | chars alike =>
    obtain ⟨contents, denote⟩ := exists_partners fun t member =>
      item (mem_bracketed member) (alike t member) (Or.inr rfl)
    exact ⟨_, .chars denote⟩

theorem Denotes.phrase (denotes : Denotes tokens v) : Phrase tokens := by
  cases denotes with
  | int item => exact .int item.holds.1
  | char item => exact .char item.holds.1
  | boolean b => exact .bool rfl
  | string text => exact .string rfl
  | ints denote => exact .ints (forall_partnered denote fun _ _ _ item => item.holds.1)
  | chars denote => exact .chars (forall_partnered denote fun _ _ _ item => item.holds.1)

/-- What stands for a value has no numeral that cannot be read. -/
theorem Denotes.readable (denotes : Denotes tokens v) (lexemes : ∀ t ∈ tokens, t.Lexeme) : ∀ t ∈ tokens, Readable t := by
  have within {opening : Token} {kind : TokenKind} {items : List Token} {contents : List Datum}
      (denote : List.Forall₂ (Item kind) items contents) (opens : opening.kind = .openArray)
      (lexemes : ∀ t ∈ bracketed opening items, t.Lexeme) : ∀ t ∈ bracketed opening items, Readable t := by
    intro t member
    rcases bracketed_cases member with rfl | rfl | rfl | inside
    · intro numeral
      rw [opens] at numeral
      cases numeral
    · exact nofun
    · exact nofun
    · exact forall_partnered denote (fun u among _ item => item.readable (lexemes u (mem_bracketed among))) t inside
  cases denotes with
  | int item => exact List.forall_mem_singleton.mpr (item.readable (lexemes _ List.mem_cons_self))
  | char item => exact List.forall_mem_singleton.mpr (item.readable (lexemes _ List.mem_cons_self))
  | boolean b => exact List.forall_mem_singleton.mpr nofun
  | string text => exact List.forall_mem_singleton.mpr nofun
  | ints denote => exact within denote rfl lexemes
  | chars denote => exact within denote rfl lexemes

private theorem exists_values (spoken : ∀ p ∈ phrases, Phrase p) (lexemes : ∀ p ∈ phrases, ∀ t ∈ p, t.Lexeme)
    (readable : ∀ p ∈ phrases, ∀ t ∈ p, Readable t) : ∃ vs, List.Forall₂ Denotes phrases vs :=
  exists_partners fun p member => (spoken p member).denotes (lexemes p member) (readable p member)

/-! What a phrase stands for is read from it. -/

/-- The value is read from these tokens, whatever follows them. -/
def Reads (tokens : List Token) (v : Value) : Prop := ∀ input rest, value input (tokens ++ rest) = .ok (v, rest)

theorem Denotes.reads (denotes : Denotes tokens v) : Reads tokens v := by
  intro input rest
  cases denotes with
  | @int t d item | @char t d item =>
    rw [List.singleton_append, value, item.holds.1, item.holds.2]
    rfl
  | boolean b => cases b <;> rfl
  | string text =>
    have first : value input ([quotation text] ++ rest) =
      .ok (.string (String.ofList (('"' :: text ++ ['"']).drop 1).dropLast), rest) := rfl
    rw [first]
    simp
  | ints denote => exact ArrayForm.ints.parses_items (denote.imp fun _ _ item => item.holds) input rest
  | chars denote => exact ArrayForm.chars.parses_items (denote.imp fun _ _ item => item.holds) input rest

private theorem moreValues_series (read : List.Forall₂ Reads phrases vs) :
    moreValues input (phrases.flatMap (comma :: ·)) = .ok (vs, []) := by
  induction read with
  | nil => rw [List.flatMap_nil, moreValues]
  | @cons tokens v phrases vs reads _ ih =>
    have separated : comma.kind = .comma := rfl
    rw [List.flatMap_cons, List.cons_append, moreValues, if_pos separated]
    split
    next failed =>
      rw [reads] at failed
      cases failed
    next again =>
      rw [reads] at again
      cases again
      rw [ih]
      rfl

theorem values_series (read : List.Forall₂ Reads phrases vs) :
    values input ([comma].intercalate phrases) = .ok (vs, []) := by
  cases read with
  | nil => rfl
  | @cons tokens v phrases vs reads others =>
    have first : value input (tokens ++ phrases.flatMap ([comma] ++ ·)) = .ok (v, phrases.flatMap ([comma] ++ ·)) :=
      reads input _
    have following : moreValues input (phrases.flatMap ([comma] ++ ·)) = .ok (vs, []) := moreValues_series others
    rw [Text.intercalate_cons]
    unfold values
    split
    next empty =>
      rw [empty] at first
      cases first
    · rw [first]
      dsimp only [bind, Except.bind]
      rw [following]
      rfl

/-! Whatever is read is a phrase. -/

private theorem expect_takes : Yields (fun r => r.1.kind = kind ∧ ts = r.1 :: r.2) (expect input kind ts) := by
  unfold expect
  split
  · split
    next same => exact .pure ⟨same, rfl⟩
    · exact .throw
  · exact .throw

/-- Tokens of one kind are taken for the items of an array, in the given arrangement. -/
def ItemsTaken (kind : TokenKind) (arranged : List Token → List Token) (ts : List Token)
    (r : List Datum × List Token) : Prop :=
  ∃ items, List.Forall₂ (Holds kind) items r.1 ∧ ts = arranged items ++ r.2

private theorem moreItems_takes (lexemes : ∀ t ∈ ts, t.Lexeme) :
    Yields (ItemsTaken kind (List.flatMap fun t => [comma, t]) ts) (moreItems input kind ts) := by
  fun_induction moreItems input kind ts with
  | case1 => exact .pure ⟨[], .nil, rfl⟩
  | case2 => exact .throw
  | case3 mark separated token rest same ih =>
    obtain ⟨own, later⟩ := List.forall_mem_cons.mp lexemes
    refine .bind fun d content => .bind fun r done => .pure ?_
    obtain ⟨items, held, taken⟩ := ih (List.forall_mem_cons.mp later).2 r done
    refine ⟨token :: items, .cons ⟨same, content⟩ held, ?_⟩
    rw [eq_comma own separated, taken]
    rfl
  | case4 => exact .throw
  | case5 => exact .pure ⟨[], .nil, rfl⟩

private theorem arrayItems_takes (lexemes : ∀ t ∈ ts, t.Lexeme) :
    Yields (ItemsTaken kind (fun items => [comma].intercalate (items.map ([·]))) ts) (arrayItems input kind ts) := by
  unfold arrayItems
  split
  · exact .pure ⟨[], .nil, rfl⟩
  next token tail =>
    split
    · exact .pure ⟨[], .nil, rfl⟩
    · refine .bind fun first taken => .bind fun d content => .bind fun others done => .pure ?_
      obtain ⟨same, whole⟩ := expect_takes first taken
      cases whole
      obtain ⟨items, held, later⟩ := moreItems_takes (List.forall_mem_cons.mp lexemes).2 others done
      refine ⟨first.1 :: items, .cons ⟨same, content⟩ held, ?_⟩
      dsimp only
      rw [List.map_cons, Text.intercalate_cons, List.flatMap_map, later]
      rfl

/-- An array is read up to its closing bracket. -/
theorem array_takes {α : Type} (form : ArrayForm α) (scalar : form.kind = .int ∨ form.kind = .char)
    (stands : ∀ {items contents}, List.Forall₂ (Item form.kind) items contents →
      Denotes (bracketed form.opening items) (.array form.contains contents))
    (lexemes : ∀ t ∈ ts, t.Lexeme) :
    Yields (fun r => ∃ tokens, Denotes tokens r.1 ∧ form.opening :: ts = tokens ++ r.2)
      (value input (form.opening :: ts)) := by
  rw [form.reads]
  refine .bind fun read done => .bind fun closed taken => .pure ?_
  obtain ⟨items, held, whole⟩ := arrayItems_takes lexemes read done
  obtain ⟨same, remaining⟩ := expect_takes closed taken
  have denote : List.Forall₂ (Item form.kind) items read.1 := by
    refine items_of_holds held (fun t member => lexemes t ?_) scalar
    rw [whole]
    exact List.mem_append_left _ (mem_separated member)
  have bracket : closed.1 = closing := by
    refine eq_closing (lexemes _ ?_) same
    rw [whole, remaining]
    exact List.mem_append_right _ List.mem_cons_self
  refine ⟨bracketed form.opening items, stands denote, ?_⟩
  rw [whole, remaining, bracket]
  simp [bracketed]

private theorem value_takes (lexemes : ∀ t ∈ ts, t.Lexeme) :
    Yields (fun r => ∃ tokens, Denotes tokens r.1 ∧ ts = tokens ++ r.2) (value input ts) := by
  cases ts with
  | nil => exact .throw
  | cons token rest =>
    obtain ⟨own, later⟩ := List.forall_mem_cons.mp lexemes
    have alone {v : Value} (denotes : Denotes [token] v) :
        Yields (fun r => ∃ tokens, Denotes tokens r.1 ∧ token :: rest = tokens ++ r.2) (value input (token :: rest)) := by
      rw [show value input (token :: rest) = _ from denotes.reads input rest]
      exact .pure ⟨[token], denotes, rfl⟩
    cases own with
    | comma => exact .throw
    | closing => exact .throw
    | truth b => exact alone (.boolean b)
    | @character c => exact alone (.char (.char c))
    | @quotation text => exact alone (.string text)
    | number negative filled digital =>
      refine .bind fun d content => .pure ⟨[_], .int (Holds.item ⟨rfl, content⟩ ?_ (Or.inl rfl)), rfl⟩
      exact .number negative filled digital
    | openInts => exact array_takes ArrayForm.ints (Or.inl rfl) .ints later
    | openChars => exact array_takes ArrayForm.chars (Or.inr rfl) .chars later

private theorem moreValues_takes (lexemes : ∀ t ∈ ts, t.Lexeme) :
    Yields (fun r => ∃ phrases, List.Forall₂ Denotes phrases r.1 ∧ ts = phrases.flatMap (comma :: ·) ++ r.2)
      (moreValues input ts) := by
  fun_induction moreValues input ts with
  | case1 => exact .pure ⟨[], .nil, rfl⟩
  | case2 => exact .throw
  | case3 mark rest separated v left step ih =>
    obtain ⟨own, later⟩ := List.forall_mem_cons.mp lexemes
    obtain ⟨tokens, denotes, taken⟩ := value_takes later (v, left) step
    refine .bind fun r done => .pure ?_
    have remaining (t : Token) (member : t ∈ left) : t.Lexeme := by
      apply later
      rw [taken]
      exact List.mem_append_right _ member
    obtain ⟨phrases, others, whole⟩ := ih remaining r done
    refine ⟨tokens :: phrases, .cons denotes others, ?_⟩
    rw [eq_comma own separated, taken, whole]
    simp
  | case4 => exact .pure ⟨[], .nil, rfl⟩

private theorem values_takes (lexemes : ∀ t ∈ ts, t.Lexeme) :
    Yields (fun r => ∃ phrases, List.Forall₂ Denotes phrases r.1 ∧ ts = [comma].intercalate phrases ++ r.2)
      (values input ts) := by
  unfold values
  split
  · exact .pure ⟨[], .nil, rfl⟩
  · refine .bind fun first step => .bind fun others done => .pure ?_
    obtain ⟨tokens, denotes, taken⟩ := value_takes lexemes first step
    have remaining (t : Token) (member : t ∈ first.2) : t.Lexeme := by
      apply lexemes
      rw [taken]
      exact List.mem_append_right _ member
    obtain ⟨phrases, following, whole⟩ := moreValues_takes remaining others done
    refine ⟨tokens :: phrases, .cons denotes following, ?_⟩
    rw [taken, whole, Text.intercalate_cons, List.append_assoc]
    rfl

/-- A text is read as the values of its phrases. -/
theorem decode_eq_ok {s : String} :
    decode s = .ok vs ↔ ∃ phrases, List.Forall₂ Denotes phrases vs ∧ Token.tokenize s = [comma].intercalate phrases := by
  unfold decode
  constructor
  · intro done
    obtain ⟨⟨found, rest⟩, read, last⟩ := bind_eq_ok.mp done
    obtain ⟨phrases, denote, whole⟩ := values_takes (fun t member => Token.scanAll_lexeme member) _ read
    dsimp only at last
    split at last
    next finished =>
      cases last
      rw [List.isEmpty_iff.mp finished, List.append_nil] at whole
      exact ⟨phrases, denote, whole⟩
    · cases last
  · rintro ⟨phrases, denote, whole⟩
    rw [whole, values_series (denote.imp fun _ _ denotes => denotes.reads)]
    rfl

/-! Nothing else is read. -/

private theorem expect_fails : FailsAs .malformed (expect input kind ts) := by
  unfold expect
  split
  · split
    · exact .pure _
    · exact .throw rfl
  · exact .throw rfl

theorem itemContent_fails : FailsAs .malformed (itemContent t) := by
  unfold itemContent
  split
  · exact .pure _
  · split
    · exact .pure _
    · exact .throw rfl

private theorem moreItems_fails : FailsAs .malformed (moreItems input kind ts) := by
  fun_induction moreItems input kind ts with
  | case1 => exact .pure _
  | case2 => exact .throw rfl
  | case3 _ _ _ _ _ ih => exact itemContent_fails.bind fun _ _ => ih.bind fun _ _ => .pure _
  | case4 => exact .throw rfl
  | case5 => exact .pure _

private theorem arrayValue_fails : FailsAs .malformed (arrayValue input t ts) := by
  have items {kind : TokenKind} : FailsAs .malformed (arrayItems input kind ts) := by
    unfold arrayItems
    split
    · exact .pure _
    · split
      · exact .pure _
      · exact expect_fails.bind fun _ _ => itemContent_fails.bind fun _ _ => moreItems_fails.bind fun _ _ => .pure _
  unfold arrayValue
  exact items.bind fun _ _ => expect_fails.bind fun _ _ => .pure _

private theorem value_fails : FailsAs .malformed (value input ts) := by
  unfold value
  split
  · exact .throw rfl
  · split
    · exact itemContent_fails.bind fun _ _ => .pure _
    · exact itemContent_fails.bind fun _ _ => .pure _
    · exact .pure _
    · exact .pure _
    · exact arrayValue_fails
    · exact .throw rfl
    · exact .throw rfl

private theorem moreValues_fails : FailsAs .malformed (moreValues input ts) := by
  fun_induction moreValues input ts with
  | case1 => exact .pure _
  | case2 _ _ _ e step => exact .throw (value_fails e step)
  | case3 _ _ _ _ _ _ ih => exact ih.bind fun _ _ => .pure _
  | case4 => exact .pure _

private theorem decode_fails (s : String) : FailsAs .malformed (decode s) := by
  have read : FailsAs .malformed (values s (Token.tokenize s)) := by
    unfold values
    split
    · exact .pure _
    · exact value_fails.bind fun _ _ => moreValues_fails.bind fun _ _ => .pure _
  unfold decode
  refine read.bind fun r _ => ?_
  dsimp only
  split
  · exact .pure _
  · exact .throw rfl

/-- A text is read exactly if its tokens are grammatical and no numeral among them is too long, as one value for each
phrase. Every other text is refused as malformed. -/
theorem values_read_by_grammar (s : String) :
    ((∃ vs, decode s = .ok vs) ↔ Grammatical (Token.tokenize s) ∧ ∀ t ∈ Token.tokenize s, Readable t) ∧
    (∀ phrases, (∀ p ∈ phrases, Phrase p) → Token.tokenize s = [comma].intercalate phrases →
      (∀ t ∈ Token.tokenize s, Readable t) → ∃ vs, decode s = .ok vs ∧ List.Forall₂ Denotes phrases vs) ∧
    (¬(Grammatical (Token.tokenize s) ∧ ∀ t ∈ Token.tokenize s, Readable t) →
      ∃ e, decode s = .error e ∧ e.kind = .malformed) := by
  have among {phrases : List (List Token)} (whole : Token.tokenize s = [comma].intercalate phrases)
      (p : List Token) (inside : p ∈ phrases) (t : Token) (member : t ∈ p) : t ∈ Token.tokenize s := by
    rw [whole]
    exact Text.intercalate_mem inside member
  have reads (phrases : List (List Token)) (spoken : ∀ p ∈ phrases, Phrase p)
      (whole : Token.tokenize s = [comma].intercalate phrases) (readable : ∀ t ∈ Token.tokenize s, Readable t) :
      ∃ vs, decode s = .ok vs ∧ List.Forall₂ Denotes phrases vs := by
    obtain ⟨vs, denote⟩ := exists_values spoken
      (fun p inside t member => Token.scanAll_lexeme (among whole p inside t member))
      (fun p inside t member => readable t (among whole p inside t member))
    exact ⟨vs, decode_eq_ok.mpr ⟨phrases, denote, whole⟩, denote⟩
  have accepts : (∃ vs, decode s = .ok vs) ↔ Grammatical (Token.tokenize s) ∧ ∀ t ∈ Token.tokenize s, Readable t := by
    constructor
    · rintro ⟨vs, done⟩
      obtain ⟨phrases, denote, whole⟩ := decode_eq_ok.mp done
      refine ⟨⟨phrases, forall_partnered denote fun _ _ _ denotes => denotes.phrase, whole⟩, ?_⟩
      intro t member
      rw [whole] at member
      rcases Text.mem_intercalate member with separator | ⟨p, inside, found⟩
      · rw [List.mem_singleton.mp separator]
        exact nofun
      · have own : ∀ t ∈ p, Readable t := forall_partnered denote (fun p inside v denotes =>
          denotes.readable fun t member => Token.scanAll_lexeme (among whole p inside t member)) p inside
        exact own t found
    · rintro ⟨⟨phrases, spoken, whole⟩, readable⟩
      obtain ⟨vs, done, -⟩ := reads phrases spoken whole readable
      exact ⟨vs, done⟩
  refine ⟨accepts, reads, ?_⟩
  intro refused
  cases result : decode s with
  | ok vs => exact absurd (accepts.mp ⟨vs, result⟩) refused
  | error e => exact ⟨e, rfl, decode_fails s e result⟩

/-- Integers with a digit of another script, a character that looks like a comma, and a comma too many. -/
theorem mixedValues_read_by_grammar :
    Token.tokenize "([I:-٣, 7], ',')" =
      [comma].intercalate [bracketed openInts [⟨.int, ['-', '٣']⟩, ⟨.int, ['7']⟩], [character ',']] ∧
    (∃ vs, decode "([I:-٣, 7], ',')" = .ok vs ∧
      List.Forall₂ Denotes [bracketed openInts [⟨.int, ['-', '٣']⟩, ⟨.int, ['7']⟩], [character ',']] vs) ∧
    ∃ e, decode "([C:'x',], 7)" = .error e ∧ e.kind = .malformed := by
  have tokens : Token.tokenize "([I:-٣, 7], ',')" =
      [comma].intercalate [bracketed openInts [⟨.int, ['-', '٣']⟩, ⟨.int, ['7']⟩], [character ',']] := by
    decide +kernel
  have spoken : ∀ p ∈ [bracketed openInts [⟨.int, ['-', '٣']⟩, ⟨.int, ['7']⟩], [character ',']], Phrase p := by
    simp only [List.forall_mem_cons]
    exact ⟨.ints (by decide), .char rfl, List.forall_mem_nil _⟩
  have short : ∀ t ∈ Token.tokenize "([I:-٣, 7], ',')", t.digitCount ≤ 1 := by decide +kernel
  have readable : ∀ t ∈ Token.tokenize "([I:-٣, 7], ',')", Readable t := fun t member _ =>
    (short t member).trans (by decide)
  have ungrammatical : ¬Grammatical (Token.tokenize "([C:'x',], 7)") := by
    intro grammatical
    have few : ∀ t ∈ Token.tokenize "([C:'x',], 7)", t.digitCount ≤ 1 := by decide +kernel
    obtain ⟨vs, done⟩ := (values_read_by_grammar _).1.mpr ⟨grammatical, fun t member _ =>
      (few t member).trans (by decide)⟩
    have surplus : Token.tokenize "([C:'x',], 7)" =
        [openChars, character 'x', comma, closing, comma, ⟨.int, ['7']⟩] := by decide +kernel
    unfold decode at done
    rw [surplus] at done
    cases done
  exact ⟨tokens, (values_read_by_grammar _).2.1 _ spoken tokens readable,
    (values_read_by_grammar _).2.2 fun both => ungrammatical both.1⟩

/-! Numerals that are too long. -/

private theorem digitCount_integer (n : Int) : (Token.integer n).digitCount = (Nat.toDigits 10 n.natAbs).length := by
  have counted := digitCount_number (decide (n < 0)) (Decimal.toDigits_digital n.natAbs)
  simp only [decide_eq_true_eq] at counted
  rwa [← Decimal.toList_toString] at counted

private theorem tokenize_integer (n : Int) : Token.tokenize (toString n) = [Token.integer n] := by
  have lexed := Token.lexes_integer n [] (by rintro c ⟨⟩)
  rwa [List.append_nil] at lexed

theorem decode_illegible {s : String} {n : Int} (numeral : Token.tokenize s = [Token.integer n])
    (illegible : Decimal.legible n = false) :
    decode s = .error (.tooManyDigits (some (Nat.toDigits 10 n.natAbs).length)) := by
  have text : (Token.integer n).text = toString n := String.ofList_toList
  have content : itemContent (Token.integer n) = .error (.tooManyDigits (some (Token.integer n).digitCount)) := by
    unfold itemContent
    rw [text, Decimal.readInt?_toString, illegible]
    rfl
  have first : value s [Token.integer n] = .error (.tooManyDigits (some (Token.integer n).digitCount)) := by
    rw [value, content]
    rfl
  unfold decode values
  rw [numeral, ← digitCount_integer]
  dsimp only
  rw [first]
  rfl

private theorem grammatical_integer (n : Int) : Grammatical (Token.tokenize (toString n)) := by
  refine ⟨[[Token.integer n]], List.forall_mem_singleton.mpr (.int rfl), ?_⟩
  rw [tokenize_integer]
  rfl

/-- The least integer with too many digits is a value by the grammar, and is refused. -/
theorem longInteger_refused :
    Grammatical (Token.tokenize (toString Decimal.leastIllegible)) ∧
      ∃ e, decode (toString Decimal.leastIllegible) = .error e ∧ e.kind = .malformed :=
  ⟨grammatical_integer _, _, decode_illegible (tokenize_integer _) Decimal.leastIllegible_illegible, rfl⟩

end BytecodeBench.ValueList
