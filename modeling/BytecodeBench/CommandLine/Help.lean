import BytecodeBench.CommandLine.Options
import BytecodeBench.Text.Wrap

/-!
What a program says about itself when it is asked for help: how it is called, what it is for, and its
options and commands, each with a description in a second column.
-/

namespace BytecodeBench.CommandLine

structure Declared where
  key : String
  /-- The spellings of the option; for a switch those that put it on. -/
  texts : List String
  /-- The spellings that put a switch off. -/
  off : List String := []
  /-- What its value is called; a switch has none. -/
  value : Option String := none
  description : String := ""

namespace Declared

def spellings (d : Declared) : List Spelling :=
  let use := if d.value.isSome then .value else .switch true
  d.texts.map (⟨·, d.key, use⟩) ++ d.off.map (⟨·, d.key, .switch false⟩)

/-- Spellings in a row, those with a single dash first. -/
def row (texts : List String) : String :=
  Text.join ", " (texts.filter (!Text.startsWith · "--") ++ texts.filter (Text.startsWith · "--"))

/-- The option in the first column. -/
def label (d : Declared) : String :=
  row d.texts ++ (d.value.map (" " ++ ·)).getD "" ++
    if d.off.isEmpty then "" else " / " ++ row d.off

end Declared

def helpOption : Declared where
  key := "help"
  texts := ["--help"]
  description := "Show this message and exit."

/-! Layout -/

def helpWidth : Nat := 78

/-- The width that the first column takes at most. -/
def labelWidth : Nat := 30

/-- A row of two columns, the second starting after so many characters. A label that is too long has a
line of its own. -/
def helpRow (start : Nat) (label description : String) : String :=
  let margin := Text.repeated (start + 2) " "
  match Text.wrap (helpWidth - start - 2) description with
  | [] => "  " ++ label ++ "\n"
  | first :: rest =>
    let lead := if label.length + 2 ≤ start then Text.padRight start ' ' label
      else label ++ "\n" ++ margin
    "  " ++ lead ++ first ++ "\n" ++ String.join (rest.map fun line => margin ++ line ++ "\n")

/-- Rows under a heading. -/
def helpSection (heading : String) (rows : List (String × String)) : String :=
  let widest := (rows.map fun (label, _) => label.length).foldl max 0
  let start := min widest labelWidth + 2
  "\n" ++ heading ++ ":\n" ++ String.join (rows.map fun (label, text) => helpRow start label text)

/-- The whole text: usage, purpose, options, and commands where there are any. -/
def helpText (usage purpose : String) (options : List Declared) (commands : List (String × String)) :
    String :=
  let lines := Text.wrap (helpWidth - 2) purpose
  "Usage: " ++ usage ++ "\n" ++
    (if lines.isEmpty then "" else "\n" ++ String.join (lines.map fun line => "  " ++ line ++ "\n")) ++
    helpSection "Options" (options.map fun d => (d.label, d.description)) ++
    if commands.isEmpty then "" else helpSection "Commands" commands

end BytecodeBench.CommandLine
