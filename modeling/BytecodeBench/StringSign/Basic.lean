import BytecodeBench.Text.Basic
import BytecodeBench.Text.Letter
import BytecodeBench.Text.Numeral

/-!
Signs of strings: which kinds of characters a string may hold, in which encodings, and its length.
A sign has a set of character kinds and a set of encodings; `abstractBy` collects them from a text.
The classification of characters is a parameter, so that nothing here depends on a Unicode table.
-/

namespace BytecodeBench

/-- The kind of a character: a letter, a number, or anything else. -/
inductive CharKind
  | letter
  | number
  | symbol
  deriving DecidableEq, Repr

/-- The narrowest encoding that holds a character. -/
inductive CharEncoding
  | latin1
  | utf16
  deriving DecidableEq, Repr

/-- The kind of a character by its general category. -/
def CharKind.of (c : Char) : CharKind :=
  if Text.isLetter c then .letter else if Text.isNumeral c then .number else .symbol

/-- The encoding a character needs. -/
def CharEncoding.of (c : Char) : CharEncoding := if c.toNat ≤ 0xff then .latin1 else .utf16

def CharKind.show : CharKind → String
  | letter => "L"
  | number => "N"
  | symbol => "S"

def CharEncoding.show : CharEncoding → String
  | latin1 => "latin1"
  | utf16 => "utf16"

/-- A type with a list of all its members. -/
class Listed (κ : Type) where
  all : List κ
  complete : ∀ k, k ∈ all

/-- The kinds in the order of their names. -/
instance : Listed CharKind where
  all := [.letter, .number, .symbol]
  complete k := by cases k <;> decide

/-- The encodings in the order of their names. -/
instance : Listed CharEncoding where
  all := [.latin1, .utf16]
  complete e := by cases e <;> decide

/-- A set of members of a listed type, held as a list in the order of all of them. -/
structure SmallSet (κ : Type) [DecidableEq κ] [Listed κ] where
  toList : List κ
  ordered : Listed.all.filter (fun k => decide (k ∈ toList)) = toList

namespace SmallSet

variable {κ : Type} [DecidableEq κ] [Listed κ]

instance : DecidableEq (SmallSet κ) := fun a b => decidable_of_iff (a.toList = b.toList) (by cases a; cases b; simp)

def contains (set : SmallSet κ) (k : κ) : Bool := decide (k ∈ set.toList)

/-- The set of those that pass a test. -/
def ofTest (test : κ → Bool) : SmallSet κ where
  toList := Listed.all.filter test
  ordered := List.filter_congr fun k member => by simp [member]

def empty : SmallSet κ := ofTest fun _ => false

def insert (set : SmallSet κ) (k : κ) : SmallSet κ := ofTest fun other => k == other || set.contains other

def inter (a b : SmallSet κ) : SmallSet κ := ofTest fun k => a.contains k && b.contains k

def union (a b : SmallSet κ) : SmallSet κ := ofTest fun k => a.contains k || b.contains k

def subset (a b : SmallSet κ) : Bool := a.toList.all b.contains

end SmallSet

/-- What is known of a string: kinds of its characters, their encodings, its length. -/
structure StringSign where
  kinds : SmallSet CharKind
  encodings : SmallSet CharEncoding
  length : Int
  deriving DecidableEq

namespace StringSign

/-- The sign of a text under a classification of characters. -/
def abstractBy (kind : Char → CharKind) (cs : List Char) : StringSign where
  kinds := cs.foldl (fun set c => set.insert (kind c)) .empty
  encodings := cs.foldl (fun set c => set.insert (.of c)) .empty
  length := cs.length

/-- The sign of a text. -/
def abstract (s : String) : StringSign := abstractBy .of s.toList

/-- Whether every character of a text is admitted; the length plays no part. -/
def admitsBy (kind : Char → CharKind) (sign : StringSign) (cs : List Char) : Bool :=
  cs.all fun c => sign.kinds.contains (kind c) && sign.encodings.contains (.of c)

def admits (sign : StringSign) (s : String) : Bool := sign.admitsBy .of s.toList

/-- Keeps what both signs admit, with the greater length. -/
def meet (a b : StringSign) : StringSign :=
  ⟨a.kinds.inter b.kinds, a.encodings.inter b.encodings, max a.length b.length⟩

/-- Keeps what either sign admits, with the smaller length. -/
def join (a b : StringSign) : StringSign :=
  ⟨a.kinds.union b.kinds, a.encodings.union b.encodings, min a.length b.length⟩

/-- Fewer kinds, fewer encodings and no greater length. -/
def below (a b : StringSign) : Bool :=
  a.kinds.subset b.kinds && a.encodings.subset b.encodings && decide (a.length ≤ b.length)

def render (sign : StringSign) : String :=
  "string-[" ++ Text.join ", " (sign.kinds.toList.map (·.show)) ++ "]-[" ++
    Text.join ", " (sign.encodings.toList.map (·.show)) ++ "]-" ++ toString sign.length

/-- The sign of one character of the string, for a place the sign admits. -/
def charAt (sign : StringSign) (place : Int) : Option StringSign :=
  if 0 < place && place < sign.length then some { sign with length := 1 } else none

/-- The sign of a part of the string, for bounds the sign admits. -/
def substring (sign : StringSign) (first last : Int) : Option StringSign :=
  if first < -1 || sign.length < last || last < first then none
  else some { sign with length := sign.length - (last - first) }

/-- The sign of two strings in a row. -/
def concat (a b : StringSign) : StringSign :=
  ⟨a.kinds.union b.kinds, a.encodings.union b.encodings, a.length + b.length⟩

end StringSign

/-- A finite set of signs, without repetitions. -/
structure SignSet where
  members : List StringSign

namespace SignSet

def insert (set : SignSet) (sign : StringSign) : SignSet :=
  if sign ∈ set.members then set else ⟨set.members ++ [sign]⟩

def ofList (signs : List StringSign) : SignSet := signs.foldl insert ⟨[]⟩

def abstract (texts : List String) : SignSet := ofList (texts.map .abstract)

def contains (set : SignSet) (sign : StringSign) : Bool := decide (sign ∈ set.members)

/-- Every member of one set combined with every member of the other. -/
def combine (op : StringSign → StringSign → StringSign) (a b : SignSet) : SignSet :=
  ofList (a.members.flatMap fun left => b.members.map (op left))

def meet : SignSet → SignSet → SignSet := combine .meet

def join : SignSet → SignSet → SignSet := combine .join

end SignSet

end BytecodeBench
