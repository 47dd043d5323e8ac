import BytecodeBench.Text.Basic

/-!
Text in lines of a given width. Words go into a line as long as they fit, with the blanks that stand
before them; the blanks at the end of a line are dropped. A word is never broken.
-/

namespace BytecodeBench.Text

/-- The words of a text, each with the number of blanks before it. -/
def spacedWords : List Char → Nat → List Char → List (Nat × List Char)
  | [], _, [] => []
  | word, gap, [] => [(gap, word)]
  | word, gap, c :: rest =>
    if c = ' ' then
      if word.isEmpty then spacedWords [] (gap + 1) rest
      else (gap, word) :: spacedWords [] 1 rest
    else spacedWords (word ++ [c]) gap rest

/-- Fills lines with words; the open line is given apart. -/
def fillLines (width : Nat) : List Char → List (Nat × List Char) → List (List Char)
  | line, [] => if line.isEmpty then [] else [line]
  | line, (gap, word) :: rest =>
    if line.isEmpty then fillLines width word rest
    else if line.length + gap + word.length ≤ width then
      fillLines width (line ++ List.replicate gap ' ' ++ word) rest
    else line :: fillLines width word rest

/-- The lines of a text of one paragraph. -/
def wrap (width : Nat) (s : String) : List String :=
  (fillLines width [] (spacedWords [] 0 s.toList)).map String.ofList

end BytecodeBench.Text
