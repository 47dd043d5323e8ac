import BytecodeBench.Proofs.InputCodec
import Mathlib.Data.List.Chain

/-! What reading keeps of the text of an input. The reader takes the tokens and passes over all else; what is
written back are the tokens, each integer in its plain spelling and a blank behind each comma. So a text and
what is written back agree, blanks between values and spellings of integers aside, exactly if nothing but the
parentheses around the values was passed over. -/

namespace BytecodeBench

/-! The text without blanks. -/

namespace Text

def isGap (c : Char) : Bool := c == ' ' || c == '\t'

/-- A quoted character or string at the beginning of a text, with its quotes. -/
def quotation? : List Char → Option (List Char)
  | '\'' :: c :: '\'' :: _ => if c = '\'' then none else some ['\'', c, '\'']
  | '"' :: rest => if '"' ∈ rest then some ('"' :: rest.takeWhile (· ≠ '"') ++ ['"']) else none
  | _ => none

def digitRun? (sign cs : List Char) : Option (List Char) :=
  match cs.takeWhile isDecimalDigit with
  | [] => none
  | digits => some (sign ++ digits)

def numeral? : List Char → Option (List Char)
  | '-' :: rest => digitRun? ['-'] rest
  | cs => digitRun? [] cs

/-- An integer as it is written; too many digits are left as they are. -/
def respelled (numeral : List Char) : List Char :=
  match Decimal.readInt? (String.ofList numeral) with
  | some n => (toString n).toList
  | none => numeral

theorem respelled_of_read {numeral : List Char} {n : Int} (read : Decimal.readInt? (String.ofList numeral) = some n) :
    respelled numeral = (toString n).toList := by
  rw [respelled, read]

theorem respelled_of_unread {numeral : List Char} (unread : Decimal.readInt? (String.ofList numeral) = none) :
    respelled numeral = numeral := by
  rw [respelled, unread]

theorem respelled_respelled (numeral : List Char) : respelled (respelled numeral) = respelled numeral := by
  cases read : Decimal.readInt? (String.ofList numeral) with
  | none => rw [respelled_of_unread read, respelled_of_unread read]
  | some n =>
    rw [respelled_of_read read]
    apply respelled_of_read
    rw [String.ofList_toList, Decimal.readInt?_toString, if_pos (Decimal.legible_of_readInt? read)]

/-- The text after the next `passed` characters, without gaps outside of quotes and with its integers respelled. -/
def condensedFrom : Nat → List Char → List Char
  | _, [] => []
  | passed + 1, _ :: rest => condensedFrom passed rest
  | 0, c :: rest =>
    match quotation? (c :: rest), numeral? (c :: rest) with
    | some quoted, _ => quoted ++ condensedFrom (quoted.length - 1) rest
    | none, some numeral => respelled numeral ++ condensedFrom (numeral.length - 1) rest
    | none, none => if isGap c then condensedFrom 0 rest else c :: condensedFrom 0 rest

def condensed (s : String) : List Char := condensedFrom 0 s.toList

end Text

/-! The parts of a text. -/

namespace Token

/-- A token, or a character that belongs to none. -/
inductive Piece
  | token (t : Token)
  | stray (c : Char)

/-- The parts of a text after the next `passed` characters; gaps between tokens are none. -/
def pieces : Nat → List Char → List Piece
  | _, [] => []
  | passed + 1, _ :: rest => pieces passed rest
  | 0, c :: rest =>
    match scan? (c :: rest) with
    | some t => .token t :: pieces (t.chars.length - 1) rest
    | none => if Text.isGap c then pieces 0 rest else .stray c :: pieces 0 rest

def plain (t : Token) : Token := if t.kind = .int then ⟨.int, Text.respelled t.chars⟩ else t

namespace Piece

def token? : Piece → Option Token
  | token t => some t
  | stray _ => none

def stray? : Piece → Option Char
  | token _ => none
  | stray c => some c

def chars : Piece → List Char
  | token t => t.plain.chars
  | stray c => [c]

end Piece

/-- The characters of a text that belong to no token and are no gaps. -/
def strays (s : String) : List Char := (pieces 0 s.toList).filterMap Piece.stray?

variable {t : Token} {n : Nat} {cs rest : List Char} {ps : List Piece}

/-! Quotations are the tokens for characters and strings, and numerals those for integers. -/

def isQuotation (t : Token) : Bool := t.kind = .char ∨ t.kind = .string

def isNumeral (t : Token) : Bool := t.kind = .int

private theorem quotation?_digits (sign cs : List Char) : ((scanDigits sign cs).filter isQuotation).map chars = none := by
  unfold scanDigits
  split <;> rfl

private theorem numeral?_digits (sign cs : List Char) :
    ((scanDigits sign cs).filter isNumeral).map chars = Text.digitRun? sign cs := by
  unfold scanDigits Text.digitRun?
  cases cs.takeWhile Text.isDecimalDigit <;> rfl

private theorem quotation?_eq (cs : List Char) : Text.quotation? cs = ((scan? cs).filter isQuotation).map chars := by
  unfold scan?
  split
  case h_8 c _ =>
    change (if c = '\'' then none else some ['\'', c, '\'']) = _
    by_cases quote : c = '\''
    · rw [if_pos quote, if_pos quote]
      rfl
    · rw [if_neg quote, if_neg quote]
      rfl
  case h_9 rest =>
    change (if '"' ∈ rest then some ('"' :: rest.takeWhile (· ≠ '"') ++ ['"']) else none) = _
    cases dropped : rest.dropWhile (· ≠ '"') with
    | nil =>
      have absent : '"' ∉ rest := by
        intro member
        simpa using List.dropWhile_eq_nil_iff.mp dropped _ member
      rw [if_neg absent]
      rfl
    | cons c tail =>
      have present : '"' ∈ rest := by
        rw [Text.eq_of_dropWhile dropped]
        simp
      rw [if_pos present]
      rfl
  case h_10 rest => exact (quotation?_digits ['-'] rest).symm
  case h_11 c rest _ _ _ _ _ _ character quotation _ =>
    rw [quotation?_digits [] (c :: rest)]
    unfold Text.quotation?
    split
    next same =>
      cases same
      exact (character _ _ rfl rfl).elim
    next same =>
      cases same
      exact (quotation rfl).elim
    · rfl
  all_goals rfl

private theorem numeral?_eq (cs : List Char) : Text.numeral? cs = ((scan? cs).filter isNumeral).map chars := by
  unfold scan?
  split
  case h_8 c _ =>
    by_cases quote : c = '\''
    · rw [if_pos quote]
      rfl
    · rw [if_neg quote]
      rfl
  case h_9 rest => cases rest.dropWhile (· ≠ '"') <;> rfl
  case h_10 rest => exact (numeral?_digits ['-'] rest).symm
  case h_11 c rest _ _ _ _ _ _ _ _ minus =>
    rw [numeral?_digits [] (c :: rest)]
    unfold Text.numeral?
    split
    next same =>
      cases same
      exact (minus rfl).elim
    · rfl
  all_goals rfl

/-! A text token by token. -/

/-- A text is empty, or a token stands at its beginning, or a character that starts none. -/
theorem scan_induction {motive : List Char → Prop} (nil : motive [])
    (token : ∀ {t rest}, t.Lexeme → scan? (t.chars ++ rest) = some t → motive rest → motive (t.chars ++ rest))
    (other : ∀ {c rest}, scan? (c :: rest) = none → motive rest → motive (c :: rest)) (cs : List Char) : motive cs := by
  induction size : cs.length using Nat.strong_induction_on generalizing cs with
  | h n ih =>
    subst size
    cases cs with
    | nil => exact nil
    | cons c cs =>
      cases found : scan? (c :: cs) with
      | none => exact other found (ih _ (Nat.lt_succ_self _) cs rfl)
      | some t =>
        obtain ⟨lexeme, rest, whole⟩ := scan?_lexeme found
        have shorter : rest.length < (c :: cs).length := by
          rw [← whole, List.length_append]
          exact Nat.lt_add_of_pos_left (List.length_pos_iff.mpr lexeme.filled)
        rw [← whole] at found ⊢
        exact token lexeme found (ih _ shorter rest rfl)

private theorem pieces_passed (cs rest : List Char) : pieces cs.length (cs ++ rest) = pieces 0 rest := by
  induction cs with
  | nil => rfl
  | cons c cs ih => exact ih

theorem pieces_token (filled : t.chars ≠ []) (found : scan? (t.chars ++ rest) = some t) :
    pieces 0 (t.chars ++ rest) = .token t :: pieces 0 rest := by
  obtain ⟨kind, chars⟩ := t
  cases chars with
  | nil => exact (filled rfl).elim
  | cons c cs =>
    have step : pieces 0 (c :: (cs ++ rest)) = .token ⟨kind, c :: cs⟩ :: pieces cs.length (cs ++ rest) := by
      rw [pieces, show scan? (c :: (cs ++ rest)) = some ⟨kind, c :: cs⟩ from found]
      rfl
    rw [List.cons_append, step, pieces_passed]

theorem pieces_other {c : Char} (missing : scan? (c :: rest) = none) :
    pieces 0 (c :: rest) = if Text.isGap c then pieces 0 rest else .stray c :: pieces 0 rest := by
  rw [pieces, missing]

theorem tokens_pieces (cs : List Char) : (pieces 0 cs).filterMap Piece.token? = scanAll 0 cs := by
  induction cs using scan_induction with
  | nil => rfl
  | token lexeme found ih =>
    rw [pieces_token lexeme.filled found, scanAll_token lexeme.filled found, ← ih]
    rfl
  | other missing ih =>
    rw [pieces_other missing, scanAll, missing]
    dsimp only
    split <;> exact ih

/-! The text without gaps is that of its parts. -/

def isBare (c : Char) : Bool :=
  c ≠ '\'' && c ≠ '"' && c ≠ '-' && !Text.isDecimalDigit c && !Text.isGap c

private theorem condensedFrom_passed (cs rest : List Char) :
    Text.condensedFrom cs.length (cs ++ rest) = Text.condensedFrom 0 rest := by
  induction cs with
  | nil => rfl
  | cons c cs ih => exact ih

private theorem condensedFrom_quoted (filled : cs ≠ []) (quoted : Text.quotation? (cs ++ rest) = some cs) :
    Text.condensedFrom 0 (cs ++ rest) = cs ++ Text.condensedFrom 0 rest := by
  cases cs with
  | nil => exact (filled rfl).elim
  | cons c cs =>
    rw [List.cons_append] at quoted ⊢
    rw [Text.condensedFrom, quoted]
    exact congrArg (c :: cs ++ ·) (condensedFrom_passed cs rest)

private theorem condensedFrom_numeral (filled : cs ≠ []) (unquoted : Text.quotation? (cs ++ rest) = none)
    (numeral : Text.numeral? (cs ++ rest) = some cs) :
    Text.condensedFrom 0 (cs ++ rest) = Text.respelled cs ++ Text.condensedFrom 0 rest := by
  cases cs with
  | nil => exact (filled rfl).elim
  | cons c cs =>
    rw [List.cons_append] at unquoted numeral ⊢
    rw [Text.condensedFrom, unquoted, numeral]
    exact congrArg (Text.respelled (c :: cs) ++ ·) (condensedFrom_passed cs rest)

private theorem condensedFrom_other {c : Char} (unquoted : Text.quotation? (c :: rest) = none)
    (unnumbered : Text.numeral? (c :: rest) = none) : Text.condensedFrom 0 (c :: rest) =
      if Text.isGap c then Text.condensedFrom 0 rest else c :: Text.condensedFrom 0 rest := by
  rw [Text.condensedFrom, unquoted, unnumbered]

private theorem condensedFrom_bare (bare : ∀ c ∈ cs, isBare c = true) :
    Text.condensedFrom 0 (cs ++ rest) = cs ++ Text.condensedFrom 0 rest := by
  induction cs with
  | nil => rfl
  | cons c cs ih =>
    obtain ⟨own, later⟩ := List.forall_mem_cons.mp bare
    simp only [isBare, Bool.and_eq_true, Bool.not_eq_true', decide_eq_true_eq] at own
    obtain ⟨⟨⟨⟨apostrophe, quote⟩, minus⟩, digit⟩, gap⟩ := own
    have unquoted : Text.quotation? (c :: (cs ++ rest)) = none := by
      unfold Text.quotation?
      split
      next same => exact absurd (List.cons.inj same).1 apostrophe
      next same => exact absurd (List.cons.inj same).1 quote
      · rfl
    have unnumbered : Text.numeral? (c :: (cs ++ rest)) = none := by
      unfold Text.numeral?
      split
      next same => exact absurd (List.cons.inj same).1 minus
      · rw [Text.digitRun?, List.takeWhile_cons_of_neg (by simp [digit])]
    rw [List.cons_append, condensedFrom_other unquoted unnumbered, if_neg (by simp [gap]), ih later]
    rfl

theorem Lexeme.bare (lexeme : t.Lexeme) (unquoted : t.isQuotation = false) (unnumbered : t.isNumeral = false) :
    ∀ c ∈ t.chars, isBare c = true := by
  cases lexeme with
  | character => cases unquoted
  | quotation => cases unquoted
  | number => cases unnumbered
  | truth b => cases b <;> exact Text.forall_of_all (by decide)
  | _ => exact Text.forall_of_all (by decide)

private theorem condensedFrom_token (lexeme : t.Lexeme) (found : scan? (t.chars ++ rest) = some t) :
    Text.condensedFrom 0 (t.chars ++ rest) = t.plain.chars ++ Text.condensedFrom 0 rest := by
  have quoted := quotation?_eq (t.chars ++ rest)
  have numeral := numeral?_eq (t.chars ++ rest)
  rw [found] at quoted numeral
  by_cases number : t.kind = .int
  · have unquoted : t.isQuotation = false := by simp [isQuotation, number]
    have numbered : t.isNumeral = true := by simp [isNumeral, number]
    have plainly : t.plain.chars = Text.respelled t.chars := by rw [plain, if_pos number]
    rw [Option.filter_some_neg (by simp [unquoted]), Option.map_none] at quoted
    rw [Option.filter_some_pos numbered, Option.map_some] at numeral
    rw [plainly]
    exact condensedFrom_numeral lexeme.filled quoted numeral
  · have unnumbered : t.isNumeral = false := by simp [isNumeral, number]
    rw [plain, if_neg number]
    cases quotation : t.isQuotation with
    | true =>
      rw [Option.filter_some_pos quotation, Option.map_some] at quoted
      exact condensedFrom_quoted lexeme.filled quoted
    | false => exact condensedFrom_bare (lexeme.bare quotation unnumbered)

theorem condensedFrom_pieces (cs : List Char) : Text.condensedFrom 0 cs = (pieces 0 cs).flatMap Piece.chars := by
  induction cs using scan_induction with
  | nil => rfl
  | token lexeme found ih => rw [condensedFrom_token lexeme found, pieces_token lexeme.filled found, ih]; rfl
  | @other c rest missing ih =>
    have unquoted : Text.quotation? (c :: rest) = none := by rw [quotation?_eq, missing]; rfl
    have unnumbered : Text.numeral? (c :: rest) = none := by rw [numeral?_eq, missing]; rfl
    rw [condensedFrom_other unquoted unnumbered, pieces_other missing, ih]
    split <;> rfl

/-- What is left of a text is its tokens and its strays, and nothing is counted twice. -/
theorem length_flatMap_chars (ps : List Piece) :
    (ps.flatMap Piece.chars).length =
      ((ps.filterMap Piece.token?).flatMap fun t => t.plain.chars).length + (ps.filterMap Piece.stray?).length := by
  induction ps with
  | nil => rfl
  | cons p ps ih =>
    cases p with
    | token t =>
      have tokens : (Piece.token t :: ps).filterMap Piece.token? = t :: ps.filterMap Piece.token? := rfl
      have others : (Piece.token t :: ps).filterMap Piece.stray? = ps.filterMap Piece.stray? := rfl
      rw [tokens, others, List.flatMap_cons, List.flatMap_cons, List.length_append, List.length_append, ih]
      exact (Nat.add_assoc _ _ _).symm
    | stray c =>
      have tokens : (Piece.stray c :: ps).filterMap Piece.token? = ps.filterMap Piece.token? := rfl
      have others : (Piece.stray c :: ps).filterMap Piece.stray? = c :: ps.filterMap Piece.stray? := rfl
      rw [tokens, others, List.flatMap_cons, List.length_append, ih, List.length_cons]
      exact Nat.add_comm _ _ |>.trans (Nat.add_assoc _ _ _)

theorem eq_tokens (none : ps.filterMap Piece.stray? = []) : ps = (ps.filterMap Piece.token?).map .token := by
  induction ps with
  | nil => rfl
  | cons p ps ih =>
    cases p with
    | token t => exact congrArg (Piece.token t :: ·) (ih none)
    | stray c => cases none

/-! Parentheses around a text belong to no token. -/

private theorem pieces_getLast? (closes : cs.getLast? = some ')') : (pieces 0 cs).getLast? = some (.stray ')') := by
  induction cs using scan_induction with
  | nil => cases closes
  | @token t rest lexeme found ih =>
    cases rest with
    | nil =>
      rw [List.append_nil] at closes
      exact (lexeme.genuine.ends closes).elim
    | cons d rest =>
      rw [List.getLast?_append_cons] at closes
      rw [pieces_token lexeme.filled found, List.getLast?_cons, ih closes]
      rfl
  | @other c rest missing ih =>
    cases rest with
    | nil =>
      cases closes
      rfl
    | cons d rest =>
      rw [List.getLast?_cons_cons] at closes
      rw [pieces_other missing]
      split
      · exact ih closes
      · rw [List.getLast?_cons, ih closes]
        rfl

def Parenthesised (s : String) : Prop := s.toList.head? = some '(' ∧ s.toList.getLast? = some ')'

instance (s : String) : Decidable (Parenthesised s) := inferInstanceAs (Decidable (_ ∧ _))

theorem Parenthesised.pieces {s : String} (parenthesised : Parenthesised s) :
    ∃ inner, pieces 0 s.toList = .stray '(' :: inner ++ [.stray ')'] := by
  obtain ⟨opens, closes⟩ := parenthesised
  obtain ⟨rest, whole⟩ := List.head?_eq_some_iff.mp opens
  rw [whole] at closes ⊢
  cases rest with
  | nil => cases closes
  | cons c rest =>
    rw [List.getLast?_cons_cons] at closes
    obtain ⟨inner, ends⟩ := List.getLast?_eq_some_iff.mp (pieces_getLast? closes)
    exact ⟨inner, congrArg (Piece.stray '(' :: ·) ends⟩

/-! What is written. -/

/-- Tokens as they are written: in their plain spelling, and with a blank behind each comma. -/
def written (ts : List Token) : List Char := ts.flatMap fun t => t.plain.chars ++ if t.kind = .comma then [' '] else []

theorem written_append (ts us : List Token) : written (ts ++ us) = written ts ++ written us := List.flatMap_append

theorem written_token (other : t.kind ≠ .comma) : written [t] = t.plain.chars := by
  rw [written, List.flatMap_singleton, if_neg other, List.append_nil]

theorem written_intercalate (phrases : List (List Token)) :
    written ([comma].intercalate phrases) = ", ".toList.intercalate (phrases.map written) := by
  cases phrases with
  | nil => rfl
  | cons first others =>
    rw [List.map_cons, Text.intercalate_cons, Text.intercalate_cons, written_append, List.flatMap_map]
    refine congrArg (written first ++ ·) ?_
    induction others with
    | nil => rfl
    | cons second others ih =>
      rw [List.flatMap_cons, List.flatMap_cons, written_append, written_append, ih]
      rfl

theorem plain_of_int (number : t.kind = .int) : t.plain = ⟨.int, Text.respelled t.chars⟩ := by
  rw [plain, if_pos number]

private theorem plain_kind (t : Token) : t.plain.kind = t.kind := by
  unfold plain
  split
  next number => exact number.symm
  · rfl

theorem plain_plain (t : Token) : t.plain.plain = t.plain := by
  by_cases number : t.kind = .int
  · rw [plain_of_int number, plain_of_int rfl, Text.respelled_respelled]
  · have plainly : t.plain = t := if_neg number
    rw [plainly, plainly]

theorem Lexeme.plain (lexeme : t.Lexeme) : t.plain.Lexeme := by
  by_cases number : t.kind = .int
  · rw [plain_of_int number]
    cases read : Decimal.readInt? (String.ofList t.chars) with
    | some n =>
      rw [Text.respelled_of_read read]
      exact Lexeme.integer n
    | none =>
      rw [Text.respelled_of_unread read, ← number]
      exact lexeme
  · rw [Token.plain, if_neg number]
    exact lexeme

def Apart (ts : List Token) : Prop := ts.IsChain fun t u => t.kind = .int → u.kind ≠ .int

theorem Lexeme.breaks (lexeme : t.Lexeme) (other : t.kind ≠ .int) : Breaks t.chars := by
  cases lexeme with
  | number => exact (other rfl).elim
  | truth b => cases b <;> (rintro c ⟨⟩; decide)
  | _ => rintro c ⟨⟩; decide

private theorem breaks_written {ts : List Token} (lexemes : ∀ t ∈ ts, t.Lexeme) (other : ∀ t ∈ ts.head?, t.kind ≠ .int)
    (breaks : Breaks rest) : Breaks (written ts ++ rest) := by
  cases ts with
  | nil => exact breaks
  | cons t ts =>
    have kind := other t rfl
    have plainly : t.plain = t := if_neg kind
    have own := (lexemes t List.mem_cons_self).breaks kind
    rw [written, List.flatMap_cons, plainly, List.append_assoc, List.append_assoc]
    cases filled : t.chars with
    | nil => exact ((lexemes t List.mem_cons_self).filled filled).elim
    | cons c cs =>
      rw [filled] at own
      exact own

/-- Written tokens are the parts of what is written. -/
theorem pieces_written {ts : List Token} (lexemes : ∀ t ∈ ts, t.Lexeme) (apart : Apart ts) (breaks : Breaks rest) :
    pieces 0 (written ts ++ rest) = ts.map (fun t => .token t.plain) ++ pieces 0 rest := by
  induction ts with
  | nil => rfl
  | cons t ts ih =>
    obtain ⟨own, later⟩ := List.forall_mem_cons.mp lexemes
    obtain ⟨next, chain⟩ := List.isChain_cons.mp apart
    have others := ih later chain
    have split : written (t :: ts) ++ rest = t.plain.chars ++ ((if t.kind = .comma then [' '] else []) ++ (written ts ++ rest)) := by
      rw [written, List.flatMap_cons, List.append_assoc, List.append_assoc]
      rfl
    have gap : pieces 0 ((if t.kind = .comma then [' '] else []) ++ (written ts ++ rest)) = pieces 0 (written ts ++ rest) := by
      split <;> rfl
    have found : scan? (t.plain.chars ++ ((if t.kind = .comma then [' '] else []) ++ (written ts ++ rest))) = some t.plain := by
      refine scan?_of_lexeme own.plain fun number => ?_
      rw [plain_kind] at number
      have uncommon : t.kind ≠ .comma := by rw [number]; decide
      rw [if_neg uncommon, List.nil_append]
      exact breaks_written later (fun u first => next u first number) breaks
    rw [split, pieces_token own.plain.filled found, gap, others]
    rfl

/-! Phrases keep their integers apart. -/

theorem Apart.concat {ts : List Token} {last : Token} (apart : Apart ts) (other : last.kind ≠ .int) : Apart (ts ++ [last]) := by
  refine apart.append (.singleton last) ?_
  rintro t - u ⟨⟩ -
  exact other

theorem Apart.cons {ts : List Token} {first : Token} (apart : Apart ts) (other : first.kind ≠ .int) : Apart (first :: ts) :=
  List.isChain_cons.mpr ⟨fun _ _ number => absurd number other, apart⟩

private theorem apart_following {phrases : List (List Token)} (apart : ∀ p ∈ phrases, Apart p) :
    Apart (phrases.flatMap ([comma] ++ ·)) := by
  induction phrases with
  | nil => exact .nil
  | cons p phrases ih =>
    obtain ⟨own, later⟩ := List.forall_mem_cons.mp apart
    refine List.IsChain.append (own.cons (by decide)) (ih later) ?_
    -- What follows a phrase is a comma.
    intro t _ u first _
    cases phrases with
    | nil => cases first
    | cons q phrases =>
      cases first
      decide

theorem apart_intercalate {phrases : List (List Token)} (apart : ∀ p ∈ phrases, Apart p) :
    Apart ([comma].intercalate phrases) := by
  cases phrases with
  | nil => exact .nil
  | cons p phrases =>
    rw [Text.intercalate_cons]
    exact (List.isChain_cons.mp (apart_following apart)).2

end Token

namespace ValueList

open Token (Apart comma closing integer written)

variable {t : Token} {d : Datum} {items tokens : List Token} {contents : List Datum} {phrases : List (List Token)} {v : Value}
  {vs : List Value}

private theorem apart_bracketed {opening : Token} (other : opening.kind ≠ .int) (items : List Token) :
    Apart (bracketed opening items) := by
  have singles : ∀ p ∈ items.map ([·]), Apart p := by
    intro p member
    obtain ⟨t, -, rfl⟩ := List.mem_map.mp member
    exact .singleton t
  exact ((Token.apart_intercalate singles).cons other).concat (by decide)

theorem Denotes.apart (denotes : Denotes tokens v) : Apart tokens := by
  cases denotes with
  | ints => exact apart_bracketed (by decide) _
  | chars => exact apart_bracketed (by decide) _
  | _ => exact .singleton _

/-! Phrases are written as the values that they stand for. -/

theorem Item.plain_int {n : Int} (item : Item .int t (.int n)) : t.plain = integer n := by
  cases item with
  | int same read =>
    rw [Token.plain_of_int same, Text.respelled_of_read read]
    rfl

private theorem ints_plain (denote : List.Forall₂ (Item .int) items contents) :
    ∃ ns : List Int, contents = ns.map .int ∧ items.map Token.plain = ns.map integer := by
  induction denote with
  | nil => exact ⟨[], rfl, rfl⟩
  | cons item _ ih =>
    obtain ⟨ns, rfl, plainly⟩ := ih
    cases item with
    | @int t n same read =>
      refine ⟨n :: ns, rfl, ?_⟩
      rw [List.map_cons, plainly, (Item.int same read).plain_int]
      rfl

private theorem items_uncommon {kind : TokenKind} (denote : List.Forall₂ (Item kind) items contents)
    (other : kind ≠ .comma) :
    ∀ t ∈ items, t.kind ≠ .comma := by
  refine forall_partnered denote fun t _ d item => ?_
  rw [item.holds.1]
  exact other

private theorem written_bracketed {opening : Token} (unspelled : opening.plain = opening)
    (bracket : opening.kind ≠ .comma)
    (kinds : ∀ t ∈ items, t.kind ≠ .comma) : written (bracketed opening items) =
      opening.chars ++ ", ".toList.intercalate ((items.map Token.plain).map Token.chars) ++ closing.chars := by
  have singles : (items.map ([·])).map written = (items.map Token.plain).map Token.chars := by
    rw [List.map_map, List.map_map]
    exact List.map_congr_left fun t member => Token.written_token (kinds t member)
  have first : written [opening] = opening.chars := by rw [Token.written_token bracket, unspelled]
  have last : written [closing] = closing.chars := rfl
  rw [bracketed, Token.written_append, ← List.singleton_append, Token.written_append, Token.written_intercalate, singles,
    first, last]

theorem Denotes.encode (denotes : Denotes tokens v) : v.encode = .ok (String.ofList (written tokens)) := by
  have legible := denotes.legible
  cases denotes with
  | @int t d item =>
    cases item with
    | @int _ n same read =>
      have uncommon : t.kind ≠ .comma := by rw [same]; decide
      rw [Token.written_token uncommon, (Item.int same read).plain_int]
      exact (Datum.shown_of_legible legible).trans (congrArg Except.ok (eq_ofList rfl))
  | char item =>
    cases item with
    | char c =>
      rw [Token.written_token (by simp [Token.character])]
      refine (Value.quotedBy_of_legible legible).trans (congrArg Except.ok (eq_ofList ?_))
      simp [Token.plain, Datum.display, Token.character]
  | boolean b => cases b <;> rfl
  | string text =>
    rw [Token.written_token (by simp [Token.quotation])]
    refine (Value.quotedBy_of_legible legible).trans (congrArg Except.ok (eq_ofList ?_))
    simp [Token.plain, Value.string, Datum.display, Token.quotation]
  | ints denote =>
    obtain ⟨ns, rfl, plainly⟩ := ints_plain denote
    rw [written_bracketed rfl (by decide) (items_uncommon denote (by decide)), plainly, List.map_map]
    exact @ArrayForm.encode_value _ .ints ns legible
  | chars denote =>
    obtain ⟨cs, rfl, rfl⟩ := chars_of_items denote
    have plainly : (cs.map Token.character).map Token.plain = cs.map Token.character := by
      rw [List.map_map]
      exact List.map_congr_left fun _ _ => rfl
    rw [written_bracketed rfl (by decide) (items_uncommon denote (by decide)), plainly, List.map_map]
    exact @ArrayForm.encode_value _ .chars cs legible

theorem encode_values (denote : List.Forall₂ Denotes phrases vs) :
    vs.mapM Value.encode = .ok (phrases.map fun p => String.ofList (written p)) := by
  induction denote with
  | nil => rfl
  | cons first _ ih =>
    rw [List.mapM_cons, first.encode, ih]
    rfl

theorem apart_values (denote : List.Forall₂ Denotes phrases vs) : ∀ p ∈ phrases, Apart p :=
  forall_partnered denote fun _ _ _ denotes => denotes.apart

end ValueList

/-! Reading an input and writing it back. -/

namespace Input

open Token (Parenthesised strays tokenize written)

/-- Nothing of the first text is lost in the second but gaps outside of quotes and spellings of integers, and
the first stands between parentheses. -/
def Faithful (s text : String) : Prop := Parenthesised s ∧ Text.condensed s = Text.condensed text

/-- What was read from a text is written as its tokens. -/
theorem encode_decoded {s : String} {vs : List Value} (done : ValueList.decode s = .ok vs) :
    (Input.mk vs).encode = .ok (String.ofList ('(' :: written (tokenize s) ++ [')'])) := by
  obtain ⟨phrases, denote, whole⟩ := ValueList.decode_eq_ok.mp done
  unfold encode
  rw [ValueList.encode_values denote, whole, Token.written_intercalate]
  refine congrArg Except.ok (eq_ofList ?_)
  simp [Text.join, String.toList_intercalate, Function.comp_def]

private theorem condensed_written {s : String} {vs : List Value} (done : ValueList.decode s = .ok vs) :
    Text.condensed (String.ofList ('(' :: written (tokenize s) ++ [')'])) =
      '(' :: (tokenize s).flatMap (fun t => t.plain.chars) ++ [')'] := by
  obtain ⟨phrases, denote, whole⟩ := ValueList.decode_eq_ok.mp done
  have apart : Token.Apart (tokenize s) := by
    rw [whole]
    exact Token.apart_intercalate (ValueList.apart_values denote)
  have breaks : Breaks [')'] := by
    rintro c ⟨⟩
    decide
  have lexemes : ∀ t ∈ tokenize s, t.Lexeme := fun t member => Token.scanAll_lexeme member
  have inner := Token.pieces_written lexemes apart breaks
  have outer : Token.pieces 0 ('(' :: (written (tokenize s) ++ [')'])) =
    .stray '(' :: Token.pieces 0 (written (tokenize s) ++ [')']) := rfl
  rw [Text.condensed, String.toList_ofList, Token.condensedFrom_pieces, List.cons_append, outer, inner, List.flatMap_cons,
    List.flatMap_append, List.flatMap_map]
  simp only [Token.Piece.chars, Token.plain_plain]
  rfl

/-- A text between parentheses keeps its tokens and its parentheses, and nothing else only if nothing else was
in it. -/
theorem condensed_eq_iff {s : String} (parenthesised : Parenthesised s) :
    Text.condensed s = '(' :: (tokenize s).flatMap (fun t => t.plain.chars) ++ [')'] ↔ strays s = ['(', ')'] := by
  obtain ⟨inner, whole⟩ := parenthesised.pieces
  have tokens : inner.filterMap Token.Piece.token? = tokenize s := by
    rw [tokenize, ← Token.tokens_pieces, whole, List.filterMap_append]
    exact (List.append_nil _).symm
  have others : strays s = '(' :: inner.filterMap Token.Piece.stray? ++ [')'] := by
    rw [strays, whole, List.filterMap_append]
    rfl
  have kept : Text.condensed s = '(' :: inner.flatMap Token.Piece.chars ++ [')'] := by
    rw [Text.condensed, Token.condensedFrom_pieces, whole, List.flatMap_append]
    rfl
  rw [kept, others, ← tokens]
  constructor
  · intro same
    have length := Token.length_flatMap_chars inner
    rw [List.append_cancel_right (List.cons.inj same).2] at length
    have none : inner.filterMap Token.Piece.stray? = [] := List.eq_nil_of_length_eq_zero (by omega)
    rw [none]
    rfl
  · intro same
    have none : inner.filterMap Token.Piece.stray? = [] :=
      List.append_cancel_right (show _ ++ [')'] = [] ++ [')'] from (List.cons.inj same).2)
    have tokenwise := congrArg (List.flatMap Token.Piece.chars) (Token.eq_tokens none)
    rw [List.flatMap_map] at tokenwise
    rw [tokenwise]
    rfl

private theorem faithful_iff {s : String} {vs : List Value} (done : ValueList.decode s = .ok vs) :
    Faithful s (String.ofList ('(' :: written (tokenize s) ++ [')'])) ↔ Parenthesised s ∧ strays s = ['(', ')'] := by
  unfold Faithful
  rw [condensed_written done]
  exact and_congr_right condensed_eq_iff

/-- An input that is read can be written, as its tokens between parentheses. The text that it was read from
begins or ends with a parenthesis. It is kept exactly if it has both, and nothing else that belongs to no
token. -/
theorem decoded_text_kept_iff_no_strays (s : String) (input : Input) (done : decode s = .ok input) :
    (s.toList.head? = some '(' ∨ s.toList.getLast? = some ')') ∧
      ∃ text, input.encode = .ok text ∧
        Text.condensed text = '(' :: (tokenize s).flatMap (fun t => t.plain.chars) ++ [')'] ∧
        (Faithful s text ↔ Parenthesised s ∧ strays s = ['(', ')']) := by
  obtain ⟨enclosed, read⟩ := decode_eq_ok.mp done
  exact ⟨enclosed, _, encode_decoded read, condensed_written read, faithful_iff read⟩

/-- Gaps and spellings of integers may vary. -/
theorem spaced_text_kept :
    decode "(\t007 ,[I:-0] )" = .ok ⟨[.int 7, .array .int [.int 0]]⟩ ∧
      ∃ text, (Input.mk [.int 7, .array .int [.int 0]]).encode = .ok text ∧ Faithful "(\t007 ,[I:-0] )" text := by
  have phrases : List.Forall₂ ValueList.Denotes [[⟨.int, ['0', '0', '7']⟩], bracketed .openInts [⟨.int, ['-', '0']⟩]]
      [.int 7, .array .int [.int 0]] :=
    .cons (.int (.int rfl (by decide +kernel))) (.cons (.ints (.cons (.int rfl (by decide +kernel)) .nil)) .nil)
  have read : decode "(\t007 ,[I:-0] )" = .ok ⟨[.int 7, .array .int [.int 0]]⟩ :=
    decode_eq_ok.mpr ⟨by decide, ValueList.decode_eq_ok.mpr ⟨_, phrases, by decide⟩⟩
  obtain ⟨-, text, encoded, -, kept⟩ := decoded_text_kept_iff_no_strays _ _ read
  exact ⟨read, text, encoded, kept.mpr (by decide)⟩

def Loses (s : String) (vs : List Value) : Prop :=
  decode s = .ok ⟨vs⟩ ∧ ∃ text, (Input.mk vs).encode = .ok text ∧ ¬ Faithful s text

/-- A parenthesis may be missing, and a character or a word may be passed over. -/
theorem incomplete_and_spoiled_texts_read :
    Loses "(1" [.int 1] ∧ Loses "1)" [.int 1] ∧ Loses "(1#)" [.int 1] ∧ Loses "(null)" [] := by
  have one : List.Forall₂ ValueList.Denotes [[⟨.int, ['1']⟩]] [.int 1] := .cons (.int (.int rfl (by decide +kernel))) .nil
  have loses {s : String} {phrases : List (List Token)} {vs : List Value} (denote : List.Forall₂ ValueList.Denotes phrases vs)
      (whole : tokenize s = [Token.comma].intercalate phrases)
      (enclosed : s.toList.head? = some '(' ∨ s.toList.getLast? = some ')')
      (lost : ¬ (Parenthesised s ∧ strays s = ['(', ')'])) : Loses s vs := by
    have read := ValueList.decode_eq_ok.mpr ⟨phrases, denote, whole⟩
    exact ⟨decode_eq_ok.mpr ⟨enclosed, read⟩, _, encode_decoded read, fun kept => lost ((faithful_iff read).mp kept)⟩
  refine ⟨loses one ?_ ?_ ?_, loses one ?_ ?_ ?_, loses one ?_ ?_ ?_, loses .nil ?_ ?_ ?_⟩
  all_goals decide

end Input

end BytecodeBench
