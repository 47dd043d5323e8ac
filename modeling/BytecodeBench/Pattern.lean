import BytecodeBench.Decimal.Reading
import BytecodeBench.Filter
import BytecodeBench.Text.Letter

/-!
Patterns: the part of regular expressions that filters are commonly written in. It has alternatives,
groups without names, sets of characters, repetitions, anchors and escapes. Names, flags, comments,
references back, conditions on what stands around, and groups or repetitions that give nothing back are
refused as if they were no patterns.
-/

namespace BytecodeBench

/-- A place in a text: the character before it, and the text from it on. -/
structure Spot where
  before : Option Char := none
  rest : List Char
  deriving DecidableEq

inductive Pattern
  | empty
  /-- One character of a set. -/
  | one (belongs : Char → Bool)
  /-- A place of a certain kind. -/
  | anchor (holds : Spot → Bool)
  | chain (first second : Pattern)
  | either (first second : Pattern)
  /-- A pattern several times over; nothing bounds them if there is no greatest number. -/
  | times (least : Nat) (most : Option Nat) (p : Pattern)

namespace Pattern

/-! Looking for patterns -/

/-- The places that a number of steps lead to. -/
def after (step : Spot → List Spot) : Nat → List Spot → List Spot
  | 0, spots => spots
  | n + 1, spots => after step n (spots.flatMap step).eraseDups

/-- The places that at most a number of steps lead to. -/
def within (step : Spot → List Spot) : Nat → List Spot → List Spot
  | 0, spots => spots
  | n + 1, spots => spots ++ within step n (spots.flatMap step).eraseDups

/-- The places where the pattern can end that starts at a place. Of steps that a text is too short
for, some lead nowhere and can be left out. -/
def ends : Pattern → Spot → List Spot
  | empty, spot => [spot]
  | one belongs, spot =>
    match spot.rest with
    | c :: rest => if belongs c then [⟨some c, rest⟩] else []
    | [] => []
  | anchor holds, spot => if holds spot then [spot] else []
  | chain first second, spot => ((ends first spot).flatMap (ends second)).eraseDups
  | either first second, spot => (ends first spot ++ ends second spot).eraseDups
  | times least most p, spot =>
    let room := spot.rest.length
    let more := match most with
      | some most => min (most - least) room
      | none => room
    (within (ends p) more (after (ends p) (min least (room + 1)) [spot])).eraseDups

/-- Whether the pattern occurs behind a character. -/
def occursAfter (p : Pattern) (before : Option Char) (cs : List Char) : Bool :=
  !(p.ends ⟨before, cs⟩).isEmpty ||
    match cs with
    | [] => false
    | c :: rest => p.occursAfter (some c) rest
termination_by structural cs

/-! Characters and places -/

def isWordChar (c : Char) : Bool := Text.isLetter c || Text.isNumeral c || c = '_'

/-- Whether the place has a word on one side only. -/
def isWordEdge (spot : Spot) : Bool :=
  spot.before.any isWordChar != spot.rest.head?.any isWordChar

/-- Whether the place has a word on both sides or on none, in a text that is not empty. -/
def isNoWordEdge (spot : Spot) : Bool :=
  !isWordEdge spot && (spot.before.isSome || !spot.rest.isEmpty)

def isStart (spot : Spot) : Bool := spot.before.isNone

/-- Whether the place is the end of the text, or the end of its last line. -/
def isFinish (spot : Spot) : Bool := spot.rest == [] || spot.rest == ['\n']

/-- The anchor that an escaped letter stands for. -/
def anchor? : Char → Option Pattern
  | 'A' => some (anchor isStart)
  | 'Z' => some (anchor (·.rest.isEmpty))
  | 'b' => some (anchor isWordEdge)
  | 'B' => some (anchor isNoWordEdge)
  | _ => none

/-- What a set of characters is given by: a code, or a condition. -/
inductive Member
  | code (n : Nat)
  | all (belongs : Char → Bool)

def Member.holds : Member → Char → Bool
  | code n, c => c.toNat == n
  | all belongs, c => belongs c

/-- The condition that an escaped letter stands for. -/
def condition? : Char → Option (Char → Bool)
  | 'd' => some Text.isDecimalDigit
  | 'D' => some (!Text.isDecimalDigit ·)
  | 's' => some Text.isBlank
  | 'S' => some (!Text.isBlank ·)
  | 'w' => some isWordChar
  | 'W' => some (!isWordChar ·)
  | _ => none

/-- The code of the control character that an escaped letter stands for. -/
def control? : Char → Option Nat
  | 'a' => some 7
  | 't' => some 9
  | 'n' => some 10
  | 'v' => some 11
  | 'f' => some 12
  | 'r' => some 13
  | _ => none

/-! Reading patterns -/

/-- The value of an ASCII digit in a base. -/
def digit? (base : Nat) (c : Char) : Option Nat :=
  (Decimal.hexValue? c).filter fun d => decide (d < base) && c.toNat < 0x80

/-- A code of the given number of hexadecimal digits. -/
def readHex (count : Nat) (cs : List Char) : Except Fault (Member × List Char) :=
  match (cs.take count).mapM (digit? 16) with
  | some ds =>
    let n := Decimal.ofDigits 16 ds
    if ds.length = count ∧ n ≤ 0x10ffff then .ok (.code n, cs.drop count) else .error .badPattern
  | none => .error .badPattern

/-- A code of at least some and at most three octal digits. -/
def readOctal (least : Nat) (cs : List Char) : Except Fault (Member × List Char) :=
  let ds := ((cs.take 3).takeWhile fun c => (digit? 8 c).isSome).filterMap (digit? 8)
  let n := Decimal.ofDigits 8 ds
  if least ≤ ds.length ∧ n ≤ 0xff then .ok (.code n, cs.drop ds.length) else .error .badPattern

/-- What follows a backslash. Outside of a set, digits that are not octal refer back. -/
def readEscape (inSet : Bool) (cs : List Char) : Except Fault (Member × List Char) :=
  match cs with
  | [] => .error .badPattern
  | 'x' :: rest => readHex 2 rest
  | 'u' :: rest => readHex 4 rest
  | 'U' :: rest => readHex 8 rest
  | c :: rest =>
    match condition? c, control? c with
    | some belongs, _ => .ok (.all belongs, rest)
    | none, some n => .ok (.code n, rest)
    | none, none =>
      if inSet ∧ c = 'b' then .ok (.code 8, rest)
      else if (digit? 8 c).isSome then readOctal (if inSet ∨ c = '0' then 1 else 3) cs
      else if c.isAlphanum then .error .badPattern
      else .ok (.code c.toNat, rest)

def readMember : List Char → Except Fault (Member × List Char)
  | '\\' :: rest => readEscape true rest
  | c :: rest => .ok (.code c.toNat, rest)
  | [] => .error .badPattern

/-- The rest of a set up to its closing bracket, which does not close an empty set. -/
def readSet : Nat → List Member → List Char → Except Fault (List Member × List Char)
  | 0, _, _ => .error .badPattern
  | fuel + 1, members, cs =>
    match members, cs with
    | _ :: _, ']' :: rest => .ok (members, rest)
    | _, cs => do
      let (low, rest) ← readMember cs
      match rest with
      | '-' :: ']' :: rest => return (.code '-'.toNat :: low :: members, rest)
      | '-' :: rest =>
        match low, ← readMember rest with
        | .code a, (.code b, rest) =>
          if a ≤ b then
            readSet fuel (.all (fun c => a ≤ c.toNat && c.toNat ≤ b) :: members) rest
          else throw .badPattern
        | _, _ => throw .badPattern
      | rest => readSet fuel (low :: members) rest

/-- How often something is repeated, and what follows; nothing if no repetition stands here. A brace
that does not hold bounds stands for itself. -/
def repetition? : List Char → Option (Nat × Option Nat × List Char)
  | '*' :: rest => some (0, none, rest)
  | '+' :: rest => some (1, none, rest)
  | '?' :: rest => some (0, some 1, rest)
  | '\x7b' :: '\x7d' :: _ => none
  | '\x7b' :: rest =>
    let number (ds : List Char) : Option Nat :=
      if ds.isEmpty then none else some (Decimal.ofDigits 10 (ds.filterMap (digit? 10)))
    let (low, rest) := rest.span Char.isDigit
    match rest with
    | '\x7d' :: rest => some ((number low).getD 0, number low, rest)
    | ',' :: rest =>
      let (high, rest) := rest.span Char.isDigit
      match rest with
      | '\x7d' :: rest => some ((number low).getD 0, number high, rest)
      | _ => none
    | _ => none
  | _ => none

/-- An item with its repetition. One that prefers fewer finds the same, one that gives nothing back does
not, and none is repeated twice. -/
def readRepetition (item : Pattern) (cs : List Char) : Except Fault (Pattern × List Char) :=
  match repetition? cs with
  | none => .ok (item, cs)
  | some (least, most, rest) =>
    let rest := match rest with
      | '?' :: rest => rest
      | rest => rest
    if item matches anchor _ then .error .badPattern
    else if most.any (· < least) then .error .badPattern
    else if (repetition? rest).isSome then .error .badPattern
    else .ok (times least most item, rest)

mutual

/-- Alternatives up to a closing parenthesis or the end. -/
def readAlternatives : Nat → List Char → Except Fault (Pattern × List Char)
  | 0, _ => .error .badPattern
  | fuel + 1, cs => do
    let (first, rest) ← readChain fuel empty cs
    match rest with
    | '|' :: rest =>
      let (others, rest) ← readAlternatives fuel rest
      return (either first others, rest)
    | _ => return (first, rest)

/-- Items one after another; `earlier` are those before. -/
def readChain : Nat → Pattern → List Char → Except Fault (Pattern × List Char)
  | 0, _, _ => .error .badPattern
  | fuel + 1, earlier, cs =>
    match cs with
    | [] | '|' :: _ | ')' :: _ => .ok (earlier, cs)
    | _ => do
      if (repetition? cs).isSome then throw .badPattern
      let (item, rest) ← readItem fuel cs
      let (item, rest) ← readRepetition item rest
      readChain fuel (chain earlier item) rest

def readItem : Nat → List Char → Except Fault (Pattern × List Char)
  | 0, _ => .error .badPattern
  | fuel + 1, cs =>
    match cs with
    | [] => .error .badPattern
    | '.' :: rest => .ok (one (· ≠ '\n'), rest)
    | '^' :: rest => .ok (anchor isStart, rest)
    | '$' :: rest => .ok (anchor isFinish, rest)
    | '[' :: '^' :: rest => do
      let (members, rest) ← readSet (rest.length + 1) [] rest
      return (one fun c => !members.any (·.holds c), rest)
    | '[' :: rest => do
      let (members, rest) ← readSet (rest.length + 1) [] rest
      return (one fun c => members.any (·.holds c), rest)
    | '(' :: '?' :: ':' :: rest => readGroup fuel rest
    | '(' :: '?' :: _ => .error .badPattern
    | '(' :: rest => readGroup fuel rest
    | '\\' :: c :: rest =>
      match anchor? c with
      | some place => .ok (place, rest)
      | none => do
        let (member, rest) ← readEscape false (c :: rest)
        return (one member.holds, rest)
    | '\\' :: [] => .error .badPattern
    | c :: rest => .ok (one (· = c), rest)

/-- A group after its opening parenthesis. A group can be repeated even where it is only an anchor. -/
def readGroup : Nat → List Char → Except Fault (Pattern × List Char)
  | 0, _ => .error .badPattern
  | fuel + 1, cs => do
    let (inner, rest) ← readAlternatives fuel cs
    match rest with
    | ')' :: rest => return (chain empty inner, rest)
    | _ => throw .badPattern

end

/-- The filter that admits the texts in which a pattern occurs. -/
def filter (s : String) : Except Fault Filter := do
  let cs := s.toList
  let (p, rest) ← readAlternatives (4 * cs.length + 4) cs
  if rest.isEmpty then return { admits := fun text => p.occursAfter none text.toList }
  else throw .badPattern

end Pattern

end BytecodeBench
