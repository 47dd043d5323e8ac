import BytecodeBench.Text.Basic
import BytecodeBench.Text.Numeral
import BytecodeBench.Text.Quoted

/-!
Tokens of value lists. A token is taken at the first place where one starts; text that starts no
token is passed over.
-/

namespace BytecodeBench

inductive TokenKind
  | openArray
  | closeArray
  | int
  | bool
  | char
  | string
  | comma
  deriving DecidableEq, Repr

def TokenKind.name : TokenKind → String
  | openArray => "OPEN_ARRAY"
  | closeArray => "CLOSE_ARRAY"
  | int => "INT"
  | bool => "BOOL"
  | char => "CHAR"
  | string => "STRING"
  | comma => "COMMA"

structure Token where
  kind : TokenKind
  chars : List Char
  deriving DecidableEq, Repr

namespace Token

def text (t : Token) : String := String.ofList t.chars

def literal (t : Token) : String :=
  "Token(kind='" ++ t.kind.name ++ "', value=" ++ Text.quoted t.text ++ ")"

/-- How many digits the token has. -/
def digitCount (t : Token) : Nat := t.chars.countP Text.isDecimalDigit

/-- An integer after its sign, if at least one digit follows. -/
def scanDigits (sign cs : List Char) : Option Token :=
  match cs.takeWhile Text.isDecimalDigit with
  | [] => none
  | digits => some ⟨.int, sign ++ digits⟩

/-- The token that starts here. -/
def scan? : List Char → Option Token
  | [] => none
  | '[' :: 'I' :: ':' :: _ => some ⟨.openArray, ['[', 'I', ':']⟩
  | '[' :: 'C' :: ':' :: _ => some ⟨.openArray, ['[', 'C', ':']⟩
  | ']' :: _ => some ⟨.closeArray, [']']⟩
  | ',' :: _ => some ⟨.comma, [',']⟩
  | 't' :: 'r' :: 'u' :: 'e' :: _ => some ⟨.bool, ['t', 'r', 'u', 'e']⟩
  | 'f' :: 'a' :: 'l' :: 's' :: 'e' :: _ => some ⟨.bool, ['f', 'a', 'l', 's', 'e']⟩
  | '\'' :: c :: '\'' :: _ => if c = '\'' then none else some ⟨.char, ['\'', c, '\'']⟩
  | '"' :: rest =>
    match rest.dropWhile (· ≠ '"') with
    | [] => none
    | _ :: _ => some ⟨.string, '"' :: rest.takeWhile (· ≠ '"') ++ ['"']⟩
  | '-' :: rest => scanDigits ['-'] rest
  | c :: rest => scanDigits [] (c :: rest)

/-- The tokens after the next `passed` characters. -/
def scanAll : Nat → List Char → List Token
  | _, [] => []
  | passed + 1, _ :: rest => scanAll passed rest
  | 0, c :: rest =>
    match scan? (c :: rest) with
    | some token => token :: scanAll (token.chars.length - 1) rest
    | none => scanAll 0 rest

def tokenize (s : String) : List Token := scanAll 0 s.toList

end Token

end BytecodeBench
