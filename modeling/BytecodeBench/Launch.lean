import BytecodeBench.Text.Lowercase
import BytecodeBench.Workbench

/-! Launching an analysis: a script is given to the interpreter, anything else runs on its own. -/

namespace BytecodeBench.Work

/-- Whether a word names a script. -/
def isScript (word : String) : Bool := Text.endsWith (Text.lower word) ".py"

/-- Whether a program needs the interpreter, as it was asked for or else by its first word. -/
def needsInterpreter (asked : Option Bool) (program : List String) : Work Bool :=
  match asked, program with
  | some answer, _ => pure answer
  | none, [] => throw .badIndex
  | none, word :: _ => do
    if isScript word then
      note (Log.warning ("Automatically prepending the current python interpreter to the command. " ++
        "To disable this warning add the '--with-python' flag or prepend intented python " ++
        "interpreter to the command."))
      return true
    return false

/-- The interpreter, seen from the working folder if it is in there. -/
def interpreterWord (outside : Outside) : Work String := do
  match (← suite).folder.root.below? (.ofText outside.interpreter) with
  | some parts => return Path.text ⟨false, parts⟩
  | none =>
    note (Log.warning ("Python executable outside of current directory, might be a " ++
      "misconfiguration. Run the tool with \x60uv run jpamb ...\x60."))
    return outside.interpreter

/-- The command that starts a program. -/
def launchCommand (outside : Outside) (asked : Option Bool) (program : List String) :
    Work (List String) := do
  if ← needsInterpreter asked program then return (← interpreterWord outside) :: program
  return program

end BytecodeBench.Work
