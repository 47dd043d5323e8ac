/-! Cutting and searching texts by code points. -/

namespace BytecodeBench.Text

/-- The parts of a list between the separators: one more than there are separators. -/
def splitOnChar (separator : Char) : List Char → List (List Char)
  | [] => [[]]
  | c :: rest =>
    if c = separator then [] :: splitOnChar separator rest
    else
      match splitOnChar separator rest with
      | [] => [[c]]
      | part :: parts => (c :: part) :: parts

/-- The parts of a text between the separators. -/
def split (separator : Char) (s : String) : List String :=
  (splitOnChar separator s.toList).map String.ofList

/-- What follows `lead`, if the list starts with it. -/
def dropLead? : List Char → List Char → Option (List Char)
  | [], rest => some rest
  | _ :: _, [] => none
  | l :: lead, c :: rest => if l = c then dropLead? lead rest else none

/-- Whether the list starts with `lead`. -/
def leads (lead cs : List Char) : Bool := (dropLead? lead cs).isSome

/-- Whether the text starts with `lead`. -/
def startsWith (s lead : String) : Bool := leads lead.toList s.toList

/-- Whether the text ends with `tail`. -/
def endsWith (s tail : String) : Bool := leads tail.toList.reverse s.toList.reverse

/-- The list before and after the first place where `part` stands. -/
def breakOn? (part : List Char) : List Char → Option (List Char × List Char)
  | [] => if part.isEmpty then some ([], []) else none
  | c :: rest =>
    match dropLead? part (c :: rest) with
    | some after => some ([], after)
    | none => (breakOn? part rest).map fun (before, after) => (c :: before, after)

/-- The list before and after the last place where `part` stands. -/
def breakOnLast? (part cs : List Char) : Option (List Char × List Char) :=
  (breakOn? part.reverse cs.reverse).map fun (after, before) => (before.reverse, after.reverse)

/-- Whether `part` stands somewhere in the text. -/
def occursIn (part s : String) : Bool := (breakOn? part.toList s.toList).isSome

/-- The text with one character put for another. -/
def replaceChar (old new : Char) (s : String) : String :=
  String.ofList (s.toList.map fun c => if c = old then new else c)

/-- Everything before the first line feed. -/
def firstLine (cs : List Char) : List Char := cs.takeWhile (· ≠ '\n')

/-- `parts` with `separator` between them. -/
def join (separator : String) (parts : List String) : String := separator.intercalate parts

def repeated (times : Nat) (s : String) : String := String.join (List.replicate times s)

/-- The text, widened with `fill` on the left to at least `width` characters. -/
def padLeft (width : Nat) (fill : Char) (s : String) : String :=
  String.ofList (List.replicate (width - s.length) fill) ++ s

/-- The text, widened with `fill` on the right to at least `width` characters. -/
def padRight (width : Nat) (fill : Char) (s : String) : String :=
  s ++ String.ofList (List.replicate (width - s.length) fill)

/-- The lower-case hexadecimal digits of `n`, at least `width` of them. -/
def hex (width n : Nat) : String := padLeft width '0' (String.ofList (Nat.toDigits 16 n))

end BytecodeBench.Text
