import BytecodeBench.Text.Basic

/-! Words of a shell command: a word is quoted when the shell would not take it as it stands. -/

namespace BytecodeBench.Text

/-- Whether a character means itself to the shell. -/
def isShellSafe (c : Char) : Bool := c.isAlphanum || c ∈ "_@%+=:,./-".toList

/-- A word in single quotes; a single quote inside it stands between double quotes. -/
def shellQuoted (s : String) : String :=
  "'" ++ String.join (s.toList.map fun c => if c = '\'' then "'\"'\"'" else c.toString) ++ "'"

/-- A word as the shell reads it back. -/
def shellWord (s : String) : String :=
  if s ≠ "" && s.toList.all isShellSafe then s else shellQuoted s

/-- A command as the shell reads it back. -/
def shellCommand (words : List String) : String := join " " (words.map shellWord)

end BytecodeBench.Text
