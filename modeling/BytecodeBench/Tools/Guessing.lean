import BytecodeBench.AnalysisInfo
import BytecodeBench.Csv
import BytecodeBench.Workbench

/-! The analyses that answer without looking closely. -/

namespace BytecodeBench.Tools

open Work

/-- The group that the analyses were made by. -/
def group : String := "The Rice Theorem Cookers"

/-- The method that an analysis is to look at, unless it is to introduce itself. -/
def askedMethod (name version : String) (tags : List String) (platform : String)
    (words : List String) : Work AbsMethodId := do
  let introduction := AnalysisInfo.print name version group tags (some platform)
  let (printed, result) := AnalysisInfo.requestedMethod introduction words
  modify fun b => { b with out := b.out ++ printed }
  lift result

/-- Whether an undecoded instruction calls into assertion errors. -/
def makesAssertionError (instruction : Datum) : Except Fault Bool := do
  if !(← instruction.fetch "opr").isText "invoke" then return false
  let ref ← (← instruction.fetch "method").fetch "ref"
  return (← ref.fetch "name").isText "java/lang/AssertionError"

/-- Whether one of the instructions calls into assertion errors. -/
def anyAssertionError : List Datum → Except Fault Bool
  | [] => .ok false
  | instruction :: rest => do
    if ← makesAssertionError instruction then return true
    anyAssertionError rest

/-- Guesses assertion errors from the instructions of the method. -/
def guessFromInstructions (platform : String) (words : List String) : Work Unit := do
  let id ← askedMethod "bytecoder" "1.0" ["syntatic", "python"] platform words
  let instructions ← lift ((← suite).bytecode id)
  if ← lift (anyAssertionError instructions) then print "assertion error;80%"
  else
    print "assertion error;20%"
    throw (.exit 0)

/-- Whether a text names a method: a point and, later on the same line, a colon. -/
def looksLikeMethod (s : String) : Bool :=
  ':' ∈ (Text.firstLine s.toList).dropWhile (· ≠ '.')

/-- Answers the same for all methods. -/
def guessTheSame (words : List String) : Work Unit :=
  match words with
  | [] => throw .badIndex
  | request :: rest => do
    if request = "info" ∧ rest = [] then
      ["My First Analyzer", "1.0", "Student Group Name", "simple,python", "no"].forM print
    else if looksLikeMethod request then
      ["ok;90%", "divide by zero;10%", "assertion error;5%", "out of bounds;0%", "null pointer;0%",
        "*;0%"].forM print
    else throw .noSuchPart

/-- The method and the result on a line of recorded cases. -/
def recordedResult (line : String) : Except Fault (String × String) := do
  match Text.breakOn? [' '] line.toList with
  | none => throw .tooFewParts
  | some (method, rest) =>
    match Text.breakOnLast? "->".toList rest with
    | none => throw .badIndex
    | some (_, result) =>
      return (String.ofList method, String.ofList (Text.stripList result))

/-- Answers from the recorded cases: certain of the results of the method, and certain against all
others. -/
def guessFromCases (platform : String) (words : List String) : Work Unit := do
  let id ← askedMethod "cheater" "0.1" ["cheat", "python"] platform words
  let lines ← lift ((← suite).folder.readLines (.ofText "stats/cases.txt"))
  let results ← lift (lines.mapM recordedResult)
  (Folder.sortedNames (results.map (·.2))).forM fun result =>
    print (result ++ if (id.encode, result) ∈ results then ";100%" else ";0%")

def cellText : Csv.Cell → String
  | .field s => s
  | .absent => "None"
  | .surplus fields => (Datum.list (fields.map .text)).literal

/-- Answers from the last row of the distribution of results. -/
def guessFromDistribution (platform : String) (words : List String) : Work Unit := do
  let _ ← askedMethod "apriori" "1.0" ["cheat", "python", "stats"] platform words
  match (Csv.records (← readFile (.ofText "stats/distribution.csv"))).getLast? with
  | none => throw .badIndex
  | some row =>
    (row.filter fun (name, _) => name ≠ some "method").forM fun (name, cell) =>
      print (name.getD "None" ++ ";" ++ cellText cell)

end BytecodeBench.Tools
