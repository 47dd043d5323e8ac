import BytecodeBench.Jvm.Token
import BytecodeBench.Proofs.Numerals
import BytecodeBench.Proofs.TextCuts
import Mathlib.Data.List.Basic

/-! Which tokens a text is made of. Scanning passes over whatever starts no token, so a text in which
tokens stand in order gives them back only if each of them ends where it should. Only integers could run
on, into a digit behind them; all other tokens carry their own end. -/

namespace BytecodeBench

def Breaks (cs : List Char) : Prop := ∀ c ∈ cs.head?, Text.isDecimalDigit c = false

theorem Breaks.append {cs rest : List Char} (first : Breaks cs) (second : Breaks rest) : Breaks (cs ++ rest) := by
  cases cs with
  | nil => exact second
  | cons c cs => exact first

namespace Token

variable {rest : List Char} {t : Token}

/-- The text is made of these tokens, whatever stands behind it but a digit. -/
def Lexes (text : List Char) (ts : List Token) : Prop :=
  ∀ rest, Breaks rest → scanAll 0 (text ++ rest) = ts ++ scanAll 0 rest

private theorem scanAll_passed (cs rest : List Char) : scanAll cs.length (cs ++ rest) = scanAll 0 rest := by
  induction cs with
  | nil => rfl
  | cons c cs ih => exact ih

theorem scanAll_token (filled : t.chars ≠ []) (found : scan? (t.chars ++ rest) = some t) :
    scanAll 0 (t.chars ++ rest) = t :: scanAll 0 rest := by
  obtain ⟨kind, chars⟩ := t
  cases chars with
  | nil => exact (filled rfl).elim
  | cons c cs =>
    have step : scanAll 0 (c :: (cs ++ rest)) = ⟨kind, c :: cs⟩ :: scanAll cs.length (cs ++ rest) := by
      rw [scanAll, show scan? (c :: (cs ++ rest)) = some ⟨kind, c :: cs⟩ from found]
      rfl
    rw [List.cons_append, step, scanAll_passed]

theorem Lexes.token (filled : t.chars ≠ []) (found : ∀ rest, Breaks rest → scan? (t.chars ++ rest) = some t) :
    Lexes t.chars [t] :=
  fun rest breaks => scanAll_token filled (found rest breaks)

theorem Lexes.append {text more : List Char} {ts others : List Token} (first : Lexes text ts) (second : Lexes more others)
    (breaks : Breaks more) : Lexes (text ++ more) (ts ++ others) := by
  intro rest ending
  rw [List.append_assoc, first _ (breaks.append ending), second rest ending, List.append_assoc]

/-! Each kind of token. -/

def comma : Token := ⟨.comma, [',']⟩

def openInts : Token := ⟨.openArray, ['[', 'I', ':']⟩

def openChars : Token := ⟨.openArray, ['[', 'C', ':']⟩

def closing : Token := ⟨.closeArray, [']']⟩

def integer (n : Int) : Token := ⟨.int, (toString n).toList⟩

def character (c : Char) : Token := ⟨.char, ['\'', c, '\'']⟩

def truth (b : Bool) : Token := ⟨.bool, if b then ['t', 'r', 'u', 'e'] else ['f', 'a', 'l', 's', 'e']⟩

def quotation (text : List Char) : Token := ⟨.string, '"' :: text ++ ['"']⟩

inductive Lexeme : Token → Prop
  | comma : Lexeme comma
  | closing : Lexeme closing
  | openInts : Lexeme openInts
  | openChars : Lexeme openChars
  | truth (b : Bool) : Lexeme (truth b)
  | character {c : Char} : c ≠ '\'' → Lexeme (character c)
  | quotation {text : List Char} : '"' ∉ text → Lexeme (quotation text)
  | number (negative : Bool) {digits : List Char} : digits ≠ [] → (∀ c ∈ digits, Text.isDecimalDigit c = true) →
    Lexeme ⟨.int, (if negative then ['-'] else []) ++ digits⟩

theorem Lexeme.filled (lexeme : t.Lexeme) : t.chars ≠ [] := by
  cases lexeme with
  | truth b => cases b <;> exact List.cons_ne_nil _ _
  | number negative filled => exact List.append_ne_nil_of_right_ne_nil _ filled
  | _ => exact List.cons_ne_nil _ _

theorem Lexeme.integer (n : Int) : (Token.integer n).Lexeme := by
  have number := Lexeme.number (decide (n < 0)) Nat.toDigits_ne_nil (Decimal.toDigits_digital n.natAbs)
  simp only [decide_eq_true_eq] at number
  rwa [← Decimal.toList_toString] at number

private theorem scanDigits_eq {sign digits : List Char} (filled : digits ≠ [])
    (digital : ∀ c ∈ digits, Text.isDecimalDigit c = true) (breaks : Breaks rest) :
    scanDigits sign (digits ++ rest) = some ⟨.int, sign ++ digits⟩ := by
  have ends : rest.takeWhile Text.isDecimalDigit = [] := by
    cases rest with
    | nil => rfl
    | cons c rest => rw [List.takeWhile_cons_of_neg (by simp [breaks c rfl])]
  unfold scanDigits
  rw [List.takeWhile_append_of_pos digital, ends, List.append_nil]
  cases digits with
  | nil => exact (filled rfl).elim
  | cons c cs => rfl

/-- A digit starts nothing but an integer. -/
theorem scan?_digit {c : Char} (digit : Text.isDecimalDigit c = true) (cs : List Char) :
    scan? (c :: cs) = scanDigits [] (c :: cs) := by
  unfold scan?
  split
  case h_1 impossible => cases impossible
  case h_11 same => cases same; rfl
  all_goals
    next same =>
      cases same
      exact absurd digit (by decide)

/-- A token is found where it stands, unless it is an integer and a digit follows. -/
theorem scan?_of_lexeme (lexeme : t.Lexeme) (breaks : t.kind = .int → Breaks rest) : scan? (t.chars ++ rest) = some t := by
  cases lexeme with
  | truth b => cases b <;> rfl
  | @character c unquoted =>
    have scanned : scan? ((Token.character c).chars ++ rest) = if c = '\'' then none else some (Token.character c) := rfl
    rw [scanned, if_neg unquoted]
  | @quotation text unquoted =>
    have shape : (Token.quotation text).chars ++ rest = '"' :: (text ++ '"' :: rest) := by simp [Token.quotation]
    rw [shape, scan?, Text.dropWhile_append unquoted, Text.takeWhile_append unquoted]
    rfl
  | @number negative digits filled digital =>
    cases negative with
    | true => exact scanDigits_eq filled digital (breaks rfl)
    | false =>
      have scanned : scanDigits [] (digits ++ rest) = some ⟨.int, digits⟩ := scanDigits_eq filled digital (breaks rfl)
      cases digits with
      | nil => exact (filled rfl).elim
      | cons c cs => exact (scan?_digit (digital c List.mem_cons_self) _).trans scanned
  | _ => rfl

theorem Lexeme.lexes (lexeme : t.Lexeme) : Lexes t.chars [t] :=
  .token lexeme.filled fun _ breaks => scan?_of_lexeme lexeme fun _ => breaks

theorem lexes_integer (n : Int) : Lexes (integer n).chars [integer n] := (Lexeme.integer n).lexes

theorem lexes_character {c : Char} (unquoted : c ≠ '\'') : Lexes (character c).chars [character c] :=
  (Lexeme.character unquoted).lexes

theorem lexes_truth (b : Bool) : Lexes (truth b).chars [truth b] := (Lexeme.truth b).lexes

theorem lexes_quotation {text : List Char} (unquoted : '"' ∉ text) : Lexes (quotation text).chars [quotation text] :=
  (Lexeme.quotation unquoted).lexes

private theorem lexes_closing : Lexes closing.chars [closing] := Lexeme.closing.lexes

/-! Series of texts. -/

private theorem breaks_following (pieces : List (List Char × List Token)) :
    Breaks (pieces.flatMap fun p => ", ".toList ++ p.1) := by
  cases pieces with
  | nil => rintro c ⟨⟩
  | cons p pieces =>
    rintro c ⟨⟩
    decide

/-- Texts that follow others, each behind a comma and a blank. -/
theorem lexes_following {pieces : List (List Char × List Token)} (lexes : ∀ p ∈ pieces, Lexes p.1 p.2) :
    Lexes (pieces.flatMap fun p => ", ".toList ++ p.1) (pieces.flatMap fun p => comma :: p.2) := by
  induction pieces with
  | nil => exact fun _ _ => rfl
  | cons p pieces ih =>
    have others := ih fun q member => lexes q (List.mem_cons_of_mem p member)
    have first : Lexes (", ".toList ++ p.1) (comma :: p.2) := by
      intro rest breaks
      -- The blank behind the comma starts no token.
      have own := lexes p List.mem_cons_self rest breaks
      exact congrArg (comma :: ·) own
    exact first.append others (breaks_following pieces)

theorem lexes_series {pieces : List (List Char × List Token)} (lexes : ∀ p ∈ pieces, Lexes p.1 p.2) :
    Lexes (", ".toList.intercalate (pieces.map (·.1))) ([comma].intercalate (pieces.map (·.2))) := by
  cases pieces with
  | nil => exact fun _ _ => rfl
  | cons p pieces =>
    have others := lexes_following fun q member => lexes q (List.mem_cons_of_mem p member)
    rw [List.map_cons, List.map_cons, Text.intercalate_cons, Text.intercalate_cons, List.flatMap_map, List.flatMap_map]
    exact (lexes p List.mem_cons_self).append others (breaks_following pieces)

/-- A series of texts between brackets. -/
theorem lexes_array {opening : Token} (filled : opening.chars ≠ [])
    (opens : ∀ rest, scan? (opening.chars ++ rest) = some opening)
    {pieces : List (List Char × List Token)} (lexes : ∀ p ∈ pieces, Lexes p.1 p.2) :
    Lexes (opening.chars ++ ", ".toList.intercalate (pieces.map (·.1)) ++ closing.chars)
      (opening :: [comma].intercalate (pieces.map (·.2)) ++ [closing]) := by
  have bracketed := (lexes_series lexes).append lexes_closing (by rintro c ⟨⟩; decide)
  intro rest breaks
  have inner := bracketed rest breaks
  simp only [List.append_assoc, List.cons_append] at inner ⊢
  rw [scanAll_token filled (opens _), inner]

/-! What tokens look like. -/

private theorem scanDigits_lexeme (negative : Bool) {cs : List Char}
    (found : scanDigits (if negative then ['-'] else []) cs = some t) :
    t.Lexeme ∧ t.chars <+: (if negative then ['-'] else []) ++ cs := by
  unfold scanDigits at found
  split at found
  · cases found
  next filled =>
    cases found
    refine ⟨.number negative filled ?_, (List.prefix_append_right_inj _).mpr (List.takeWhile_prefix _)⟩
    intro c member
    exact List.mem_takeWhile_imp member

/-- The token at the beginning of a text is part of it. -/
theorem scan?_lexeme {cs : List Char} (found : scan? cs = some t) : t.Lexeme ∧ t.chars <+: cs := by
  unfold scan? at found
  split at found
  · cases found
  · cases found
    exact ⟨.openInts, _, rfl⟩
  · cases found
    exact ⟨.openChars, _, rfl⟩
  · cases found
    exact ⟨.closing, _, rfl⟩
  · cases found
    exact ⟨.comma, _, rfl⟩
  · cases found
    exact ⟨.truth true, _, rfl⟩
  · cases found
    exact ⟨.truth false, _, rfl⟩
  · split at found
    · cases found
    next unquoted =>
      cases found
      exact ⟨.character unquoted, _, rfl⟩
  next rest =>
    split at found
    · cases found
    next mark tail dropped =>
      cases found
      refine ⟨.quotation (Text.notMem_takeWhile '"' rest), tail, ?_⟩
      calc ('"' :: rest.takeWhile (· ≠ '"') ++ ['"']) ++ tail
        _ = '"' :: (rest.takeWhile (· ≠ '"') ++ '"' :: tail) := by simp
        _ = '"' :: rest := congrArg ('"' :: ·) (Text.eq_of_dropWhile dropped).symm
  · exact scanDigits_lexeme true found
  · exact scanDigits_lexeme false found

/-- Quotes do not stand within what they quote, and no token ends in a parenthesis. -/
structure Genuine (t : Token) : Prop where
  ends : t.chars.getLast? ≠ some ')'
  char : t.kind = .char → ∃ c, c ≠ '\'' ∧ t = character c
  string : t.kind = .string → ∃ text, '"' ∉ text ∧ t = quotation text

theorem Genuine.unquoted (ends : t.chars.getLast? ≠ some ')') (char : t.kind ≠ .char) (string : t.kind ≠ .string) :
    t.Genuine :=
  ⟨ends, fun other => absurd other char, fun other => absurd other string⟩

theorem Lexeme.genuine (lexeme : t.Lexeme) : t.Genuine := by
  cases lexeme with
  | comma => exact .unquoted (by decide) (by decide) (by decide)
  | closing => exact .unquoted (by decide) (by decide) (by decide)
  | openInts => exact .unquoted (by decide) (by decide) (by decide)
  | openChars => exact .unquoted (by decide) (by decide) (by decide)
  | truth b => cases b <;> exact .unquoted (by decide) nofun nofun
  | character unquoted => exact ⟨by simp [Token.character], fun _ => ⟨_, unquoted, rfl⟩, nofun⟩
  | @quotation text unquoted =>
    refine ⟨?_, nofun, fun _ => ⟨text, unquoted, rfl⟩⟩
    dsimp only [Token.quotation]
    rw [List.getLast?_concat]
    decide
  | number negative filled digital =>
    refine .unquoted ?_ nofun nofun
    intro last
    dsimp only at last
    rw [List.getLast?_append_of_ne_nil _ filled] at last
    exact absurd (digital _ (List.mem_of_getLast? last)) (by decide)

theorem mem_scanAll {n : Nat} {cs : List Char} (member : t ∈ scanAll n cs) :
    ∃ suffix, suffix <:+ cs ∧ scan? suffix = some t := by
  induction cs generalizing n with
  | nil => cases n <;> cases member
  | cons c cs ih =>
    have later {n : Nat} (member : t ∈ scanAll n cs) : ∃ suffix, suffix <:+ c :: cs ∧ scan? suffix = some t := by
      obtain ⟨suffix, inside, found⟩ := ih member
      exact ⟨suffix, inside.trans (List.suffix_cons c cs), found⟩
    cases n with
    | succ n => exact later member
    | zero =>
      unfold scanAll at member
      split at member
      next found =>
        rcases List.mem_cons.mp member with rfl | member
        · exact ⟨c :: cs, List.suffix_rfl, found⟩
        · exact later member
      · exact later member

theorem scanAll_within {n : Nat} {cs : List Char} (member : t ∈ scanAll n cs) : t.chars ⊆ cs := by
  obtain ⟨suffix, inside, found⟩ := mem_scanAll member
  exact List.Subset.trans (scan?_lexeme found).2.subset inside.subset

theorem scanAll_lexeme {n : Nat} {cs : List Char} (member : t ∈ scanAll n cs) : t.Lexeme := by
  obtain ⟨suffix, -, found⟩ := mem_scanAll member
  exact (scan?_lexeme found).1

/-- Tokens of a text hold no parenthesis that stands at its very end alone. -/
theorem scanAll_avoids {n : Nat} {cs : List Char} (absent : ')' ∉ cs) (member : t ∈ scanAll n (cs ++ [')'])) :
    ')' ∉ t.chars := by
  obtain ⟨suffix, inside, found⟩ := mem_scanAll member
  obtain ⟨lexeme, start⟩ := scan?_lexeme found
  rcases List.suffix_concat_iff.mp inside with rfl | ⟨front, rfl, earlier⟩
  · cases found
  · rcases List.prefix_concat_iff.mp start with whole | part
    -- A token that reached the end of the text would end in the parenthesis.
    · have ends := lexeme.genuine.ends
      rw [whole, List.getLast?_concat] at ends
      exact (ends rfl).elim
    · intro paren
      exact absent (earlier.subset (part.subset paren))

end Token
end BytecodeBench
