import BytecodeBench.Text.Ranges

/-! Blank characters (Unicode 14) and line boundaries, and the cuts made at them. -/

namespace BytecodeBench.Text

/-- The blank characters, as ascending closed ranges of code points. -/
def blankRanges : Ranges := #[
  (0x9, 0xd), (0x1c, 0x20), (0x85, 0x85), (0xa0, 0xa0), (0x1680, 0x1680), (0x2000, 0x200a),
  (0x2028, 0x2029), (0x202f, 0x202f), (0x205f, 0x205f), (0x3000, 0x3000)]

/-- Whether the character is blank: spaces of any width, tabs, and every line boundary. -/
def isBlank (c : Char) : Bool := blankRanges.covers c.toNat

/-- The list without blanks at its start. -/
def dropBlanks (cs : List Char) : List Char := cs.dropWhile isBlank

/-- The list without blanks at either end. -/
def stripList (cs : List Char) : List Char := (dropBlanks (dropBlanks cs).reverse).reverse

/-- The text without blanks at either end. -/
def strip (s : String) : String := String.ofList (stripList s.toList)

/-- Whether the character alone ends a line. -/
def isLineBoundary (c : Char) : Bool :=
  (0xa ≤ c.toNat && c.toNat ≤ 0xd) || (0x1c ≤ c.toNat && c.toNat ≤ 0x1e) || c.toNat == 0x85 ||
    c.toNat == 0x2028 || c.toNat == 0x2029

/-- Lines after `line`, the reversed beginning of the first one. -/
def linesFrom (line : List Char) : List Char → List (List Char)
  | [] => if line.isEmpty then [] else [line.reverse]
  | '\r' :: '\n' :: rest => line.reverse :: linesFrom [] rest
  | c :: rest =>
    if isLineBoundary c then line.reverse :: linesFrom [] rest else linesFrom (c :: line) rest

/--
The lines of a text without their boundaries. A carriage return before a line feed belongs to the
same boundary, and a boundary at the very end opens no further line.
-/
def lines (s : String) : List String := (linesFrom [] s.toList).map String.ofList

end BytecodeBench.Text
