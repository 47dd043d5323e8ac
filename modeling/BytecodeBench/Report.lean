import BytecodeBench.Workbench

/-!
Reports: lines behind a margin. A frame has a title, printed where it opens and where it closes, and
between the two the margin is one bar wider. A frame is closed however its content ends.
-/

namespace BytecodeBench

namespace Work

/-- Why a file cannot be opened. -/
def refusalText : Fault → String
  | .isFolder => "Is a directory"
  | .notFolder => "Not a directory"
  | _ => "No such file or directory"

/-- Makes sure that the file of the report, if it is to be one, is there. A file that cannot be
written to ends the command. -/
def openReport : Work Unit := do
  let report := (← get).report
  if let (some file, false) := (report.file, report.opened) then
    match ← attempt (writeFile file "") with
    | .ok () => modify fun b => { b with report.opened := true }
    | .error e => throw (.unwritableReport (Text.quoted file.text) (refusalText e))

def reportText (text : String) : Work Unit := do
  openReport
  modify fun b => { b with report.text := b.report.text ++ text }

def reportLine (line : String) : Work Unit := reportText (line ++ "\n")

/-- Puts the finished report where it goes. -/
def finishReport : Work Unit := do
  let report := (← get).report
  match report.file with
  | none => modify fun b => { b with out := b.out ++ report.text }
  | some file => if report.opened then writeFile file report.text

/-- A margin without its last character. -/
def edge (margin : String) : String := String.ofList margin.toList.dropLast

def setMargin (margin : String) : Work Unit := modify fun b => { b with report.margin := margin }

/-- Reports what some work reports inside a frame. -/
def frame {α : Type} (title : String) (body : Work α) : Work α := do
  let margin := (← get).report.margin
  reportLine (edge margin ++ "┌ " ++ title)
  setMargin (edge margin ++ "│ ")
  closing body do
    setMargin margin
    reportLine (edge margin ++ "└ " ++ title)

/-- Reports the lines of a text. -/
def tell (text : String) : Work Unit := do
  let margin := (← get).report.margin
  (Text.lines text).forM fun line => reportLine (margin ++ line)

/-- Runs a program and reports what it printed. -/
def runReported (outside : Outside) (command : List String) : Work String :=
  frame ("Run " ++ Text.shellCommand command) do
    let (out, _) ← frame "Stderr" (run outside command ignore tell)
    frame "Stdout" (tell out)
    return out

end Work

inductive Block
  | output (datum : Datum)
  | run (command : List String)
  | fail (cause : Fault)
  | frame (title : String) (body : List Block)

namespace Block

instance : Inhabited Block := ⟨output .null⟩

mutual

/-- Reports a part. -/
def carryOut (outside : Outside) : Block → Work Unit
  | output datum => Work.tell datum.display
  | run command => do let _ ← Work.runReported outside command
  | fail cause => throw cause
  | frame title body => Work.frame title (carryOutAll outside body)

/-- Reports parts up to the first that fails. -/
def carryOutAll (outside : Outside) : List Block → Work Unit
  | [] => pure ()
  | block :: rest => do
    carryOut outside block
    carryOutAll outside rest

end

end Block

end BytecodeBench
