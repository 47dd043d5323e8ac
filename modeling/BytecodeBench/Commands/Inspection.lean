import BytecodeBench.Instruction.Spelling
import BytecodeBench.Json.Writer
import BytecodeBench.Workbench

/-! Inspection: the instructions of a method, one a line. -/

namespace BytecodeBench.Inspection

open Work

/-- How an instruction is shown. -/
inductive Format
  | pretty
  | real
  | term
  | json
  deriving DecidableEq, Repr

/-- The formats by their names. -/
def formats : Table String Format :=
  [("pretty", .pretty), ("real", .real), ("repr", .term), ("json", .json)]

def spell (format : Format) (data : Datum) (i : Instruction) : Except Fault String :=
  match format with
  | .pretty => i.display
  | .real => i.real
  | .term => .ok i.literal
  | .json => .ok (Json.write data)

/-- Prints instructions behind their numbers, up to the first that cannot be shown. -/
def printFrom (format : Format) (number : Nat) : List Datum → Work Unit
  | [] => pure ()
  | data :: rest => do
    let shown ← lift (do spell format data (← Instruction.ofData data))
    print (Text.padLeft 3 '0' (toString number) ++ " | " ++ shown)
    printFrom format (number + 1) rest

def carryOut (method : String) (format : Format) : Work Unit := do
  let id ← lift (AbsMethodId.decode method)
  printFrom format 0 (← lift ((← suite).bytecode id))

end BytecodeBench.Inspection
