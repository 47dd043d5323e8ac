import BytecodeBench.Pattern
import BytecodeBench.SourceTree.Basic
import BytecodeBench.Suite
import BytecodeBench.Text.Shell

/-!
The workbench: what a command works on and what it leaves behind. What lies outside, other programs,
the clock and the language of filters, is given as data, so that a command is a function from it to its
traces.
-/

namespace BytecodeBench

/-- How a started program behaves: what it prints, how it ends, and whether it ends in time. -/
structure Behaviour where
  out : String := ""
  err : String := ""
  exit : Int := 0
  overdue : Bool := false
  deriving DecidableEq, Repr

/-- What lies outside of a command. -/
structure Outside where
  /-- What a command does when it is started after so many others; nothing if there is no such
  program. -/
  behaviour : Nat → List String → Option Behaviour
  /-- How much time goes by before the clock is read after so many readings. -/
  tick : Nat → Nat
  /-- The prime of a number, if the task that times the machine is really carried out. -/
  prime : Nat → Option Nat
  /-- Where the interpreter of scripts is. -/
  interpreter : String
  /-- Where a program is found. -/
  find : String → Option String
  /-- The filter that a text stands for. -/
  readFilter : String → Except Fault Filter := Pattern.filter

/-- A report in the making: the margin of its next line, and where it goes if it is to be a file. -/
structure Report where
  margin : String := ""
  text : String := ""
  file : Option Path := none
  opened : Bool := false

/-- A call on the drawing tool, with plain and named arguments. -/
structure DrawingCall where
  name : String
  arguments : List Datum := []
  options : List (String × Datum) := []

/-- The state of a command. -/
structure Workbench where
  suite : Suite
  log : Log := []
  out : String := ""
  report : Report := {}
  /-- How many programs were started. -/
  started : Nat := 0
  /-- The commands that were started, and the ends that were forced. -/
  calls : List String := []
  readings : Nat := 0
  clock : Nat := 0
  drawing : List DrawingCall := []
  /-- The queries on parse trees, with the nodes they were run on. -/
  queries : List (String × Node) := []

abbrev Work := ExceptT Fault (StateM Workbench)

namespace Work

/-- The result and the workbench that is left. -/
def execute {α : Type} (w : Work α) (bench : Workbench) : Except Fault α × Workbench :=
  w.run.run bench

def lift {α : Type} (x : Except Fault α) : Work α := ExceptT.mk (pure x)

/-- The outcome of some work, which goes on whatever it is. -/
def attempt {α : Type} (w : Work α) : Work (Except Fault α) := ExceptT.lift w.run

/-- Does some work and then, whatever came of it, closes it. -/
def closing {α : Type} (w : Work α) (close : Work Unit) : Work α := do
  let result ← attempt w
  close
  lift result

def note (entry : LogEntry) : Work Unit := modify fun b => { b with log := b.log ++ [entry] }

def noteAll (log : Log) : Work Unit := modify fun b => { b with log := b.log ++ log }

def print (line : String) : Work Unit := modify fun b => { b with out := b.out ++ line ++ "\n" }

def draw (call : DrawingCall) : Work Unit :=
  modify fun b => { b with drawing := b.drawing ++ [call] }

/-! Files -/

def suite : Work Suite := do return (← get).suite

def setFolder (folder : Folder) : Work Unit :=
  modify fun b => { b with suite := { b.suite with folder } }

def readFile (p : Path) : Work String := do lift ((← suite).folder.read p)

def writeFile (p : Path) (content : String) : Work Unit := do
  setFolder (← lift ((← suite).folder.write p content))

/-- Makes a folder and the folders on the way to it, where no file may stand. -/
def makeFolder (p : Path) : Work Unit := do
  let folder := (← suite).folder
  if folder.isBlocked p then throw .notFolder
  if folder.has p && !folder.isFolder p then throw .existingFile
  setFolder (folder.makeFolder p)

/-- Removes a file if it is there. -/
def removeFile (p : Path) : Work Unit := do
  let folder := (← suite).folder
  if folder.isFolder p then throw .isFolder
  setFolder (folder.remove p)

/-- Asks the suite, which may keep what it has read. -/
def ask {α : Type} (question : Suite → Except Fault α × Suite) : Work α := do
  let (answer, suite) := question (← suite)
  modify fun b => { b with suite }
  lift answer

/-! Other programs -/

variable (outside : Outside)

def readClock : Work Nat := do
  modify fun b =>
    { b with clock := b.clock + outside.tick b.readings, readings := b.readings + 1 }
  return (← get).clock

def noteCall (call : String) : Work Unit := modify fun b => { b with calls := b.calls ++ [call] }

def start (command : List String) : Work Behaviour := do
  let behaviour := outside.behaviour (← get).started command
  modify fun b => { b with started := b.started + 1 }
  noteCall (Text.join " " command)
  match behaviour with
  | some behaviour => return behaviour
  | none => throw .missingFile

/-- Hands on what was printed, line by line; each line loses its last character. -/
def hear (text : String) (listen : String → Work Unit) : Work Unit :=
  (Folder.linesWithEnds [] text.toList).forM fun line =>
    listen (String.ofList line.toList.dropLast)

def shownCommand (command : List String) : String := (Datum.tuple (command.map .text)).literal

/--
Runs a program and tells what it printed and how long it took. It fails if there is no such program,
if the program does not end in time, and if it ends with a code other than zero.
-/
def run (command : List String) (hearOut hearErr : String → Work Unit) : Work (String × Nat) := do
  let before ← readClock outside
  let behaviour ← start outside command
  hear behaviour.err hearErr
  hear behaviour.out hearOut
  if behaviour.overdue then
    noteCall "(terminate)"
    throw .overdueRun
  let after ← readClock outside
  if behaviour.exit ≠ 0 then
    throw (.failedRun (shownCommand command) behaviour.exit behaviour.out behaviour.err)
  return (behaviour.out, after - before)

/-- A listener that does not listen. -/
def ignore (_ : String) : Work Unit := pure ()

/-- A listener that takes notes. -/
def noting (entry : String → LogEntry) (line : String) : Work Unit := note (entry line)

/-- The lines of a text, with another line end after each but the last. -/
def spacedLines (text : String) : String := Text.join "\n" (Folder.linesWithEnds [] text.toList)

/-- Runs a program, takes notes of its course, and strips what it printed. -/
def runNoted (command : List String) : Work (String × Nat) := do
  let debug := noting Log.debug
  let before ← readClock outside
  debug ("starting: " ++ Text.shellCommand command)
  let behaviour ← start outside command
  hear behaviour.err debug
  if behaviour.overdue then
    debug "process timed out, terminating"
    noteCall "(terminate)"
    throw .overdueRun
  let after ← readClock outside
  let out := Text.strip behaviour.out
  if behaviour.exit ≠ 0 then
    throw (.failedRun (shownCommand command) behaviour.exit out (spacedLines behaviour.err))
  debug "done"
  return (out, after - before)

end Work

end BytecodeBench
