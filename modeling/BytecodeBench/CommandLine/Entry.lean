import BytecodeBench.CommandLine.Help
import BytecodeBench.Commands.Building
import BytecodeBench.Commands.Charts
import BytecodeBench.Commands.Evaluation
import BytecodeBench.Commands.Inspection
import BytecodeBench.Commands.Interpretation
import BytecodeBench.Commands.Statistics
import BytecodeBench.Commands.Trial

/-! The command line of the bench: options of its own, then a command with its options and words. -/

namespace BytecodeBench.CommandLine

open Work

/-! Options that several commands have -/

def interpreterOption : Declared where
  key := "interpreter"
  texts := ["--with-python", "-W"]
  off := ["--no-with-python", "-noW"]
  description := "the analysis is a python script, which should run in the same interpreter as jpamb."

def timeoutOption : Declared where
  key := "timeout"
  texts := ["--timeout"]
  value := some "FLOAT"
  description := "timeout in seconds.  [default: 2.0]"

def filterOption : Declared where
  key := "filter"
  texts := ["--filter", "-f"]
  value := some "TEXT"
  description := "A regular expression which filter the methods to run on."

def reportOption (description : String) : Declared where
  key := "report"
  texts := ["--report", "-r"]
  value := some "FILENAME"
  description := description

/-- What the report of a test says of itself. -/
def goldenReport : String := "A file to write the report to. (Good for golden testing)"

def verboseOption (description : String) : Declared where
  key := "verbose"
  texts := ["-v", "--verbose"]
  description := description

/-! Checks of values -/

def badValue (name explanation : String) : Fault :=
  .badUsage ("Invalid value for " ++ name ++ ": " ++ explanation)

def checkFloat (name value : String) : Except Fault Unit :=
  if (Decimal.readFloat? value).isSome then .ok ()
  else .error (badValue name (Text.quoted value ++ " is not a valid float."))

def checkInt (name value : String) : Except Fault Unit :=
  if (Decimal.readInt? value).isSome then .ok ()
  else .error (badValue name (Text.quoted value ++ " is not a valid integer."))

/-- Checks the value of an option that several commands have. -/
def checkShared (outside : Outside) (key value : String) : Except Fault Unit :=
  match key with
  | "timeout" => checkFloat "'--timeout'" value
  | "filter" => do let _ ← Filter.readAsked outside.readFilter (some value)
  | "iterations" => checkInt "'--iterations' / '-N'" value
  | _ => .ok ()

def checkFormat (value : String) : Except Fault Unit :=
  if Inspection.formats.has value then .ok ()
  else .error (badValue "'--format'" (Text.quoted value ++ " is not one of " ++
    Text.join ", " (Inspection.formats.map fun (name, _) => Text.quoted name) ++ "."))

def checkFolder (folder : Folder) (name value : String) : Except Fault Unit :=
  if folder.isFolder (.ofText value) && value ≠ "" then .ok ()
  else if folder.has (.ofText value) && value ≠ "" then
    .error (badValue name ("Directory " ++ Text.quoted value ++ " is a file."))
  else .error (badValue name ("Directory " ++ Text.quoted value ++ " does not exist."))

def checkPath (folder : Folder) (name value : String) : Except Fault Unit :=
  if folder.has (.ofText value) && value ≠ "" then .ok ()
  else .error (badValue name ("Path " ++ Text.quoted value ++ " does not exist."))

/-! Commands -/

/-- Prints a text of help and ends the program. -/
def tellHelp {α : Type} (text : String) : Work α := do
  modify fun b => { b with out := b.out ++ text }
  throw (.exit 0)

def Given.asksHelp (given : Given) : Bool := (given.switch? "help").isSome

/-- The file that a report is to go to; a dash stands for none. -/
def reportFile (given : Given) : Option Path :=
  match given.text? "report" with
  | none | some "-" => none
  | some file => some (.ofText file)

/-- Sets up the report, does the work, and puts the report where it goes. -/
def reporting (given : Given) (work : Work Unit) : Work Unit := do
  modify fun b => { b with report := { file := reportFile given } }
  closing work finishReport

def readFilter (outside : Outside) (given : Given) : Work (Option Filter) :=
  lift (Filter.readAsked outside.readFilter (given.text? "filter"))

/-- A command: what it takes, what it is for, and what it does. -/
structure Command where
  name : String
  /-- What it takes besides options. -/
  arguments : String := ""
  purpose : String := ""
  options : List Declared := []
  carryOut : Given → Work Unit

namespace Command

def synopsis (c : Command) : String :=
  "[OPTIONS]" ++ if c.arguments.isEmpty then "" else " " ++ c.arguments

def allOptions (c : Command) : List Declared := c.options ++ [helpOption]

/-- What the command says about itself as part of a program. -/
def help (c : Command) (program : String) : String :=
  helpText (program ++ " " ++ c.synopsis) c.purpose c.allOptions []

/-- Reads the words of the command, which may ask for help. -/
def read (c : Command) (program : String) (words : List String) : Work Given := do
  let given ← lift (readOptions (c.allOptions.flatMap Declared.spellings) true words)
  if given.asksHelp then tellHelp (c.help program) else return given

end Command

variable (outside : Outside)

def checkHealthCommand : Command where
  name := "checkhealth"
  purpose := "Check that the repository is setup correctly"
  carryOut given := do
    lift (given.limitWords 0)
    let tool : Suite.ContainerTool :=
      if ((outside.find "podman").or (outside.find "docker")).isSome then .working else .missing
    let (result, after) := (Suite.checkHealth tool (outside.prime 1000) false).execute (← suite)
    modify fun b => { b with suite := after.state, log := b.log ++ after.log }
    lift result

def testCommand : Command where
  name := "test"
  arguments := "[PROGRAM]..."
  purpose := "Test run a PROGRAM."
  options := [
    interpreterOption,
    { key := "fast", texts := ["--fail-fast"], off := ["--no-fail-fast"]
      description := "if we should stop after the first error." },
    timeoutOption, filterOption, reportOption goldenReport]
  carryOut given := do
    lift (given.check (checkShared outside))
    let filter ← readFilter outside given
    reporting given (Trial.carryOut outside given.words (given.switch? "interpreter") filter)

def interpretCommand : Command where
  name := "interpret"
  arguments := "[PROGRAM]..."
  purpose := "Use PROGRAM as an interpreter."
  options := [
    interpreterOption,
    { key := "stepwise", texts := ["--stepwise"], off := ["--no-stepwise"]
      description := "continue from last failure" },
    timeoutOption, filterOption, reportOption goldenReport]
  carryOut given := do
    lift (given.check (checkShared outside))
    let filter ← readFilter outside given
    reporting given (Interpretation.carryOut outside given.words (given.switch? "interpreter")
      (given.switch? "stepwise" == some true) filter)

def evaluateCommand : Command where
  name := "evaluate"
  arguments := "[PROGRAM]..."
  purpose := "Evaluate the PROGRAM."
  options := [
    interpreterOption,
    { key := "iterations", texts := ["--iterations", "-N"], value := some "INTEGER"
      description := "number of iterations.  [default: 3]" },
    timeoutOption, reportOption "A file to write the report to"]
  carryOut given := do
    lift (given.check (checkShared outside))
    let iterations := ((given.text? "iterations").bind Decimal.readInt?).getD 3
    reporting given
      (Evaluation.carryOut outside given.words (given.switch? "interpreter") iterations)

/-- The switch for a phase of building. -/
def phaseOption (name description : String) : Declared where
  key := name
  texts := ["--" ++ name]
  off := ["--no-" ++ name]
  description := description

def buildCommand : Command where
  name := "build"
  purpose := "Rebuild all benchmarks."
  options := [
    { key := "docker", texts := ["-D", "--docker"], value := some "TEXT"
      description := "the docker container to build with." },
    phaseOption "compile" "compile the java source files.",
    phaseOption "decompile" "decompile the classfiles using jvm2json.",
    phaseOption "document" "docmument the files",
    phaseOption "test" "test that all cases are correct."]
  carryOut given := do
    lift (given.limitWords 0)
    Building.carryOut outside ((given.text? "docker").getD "ghcr.io/kalhauge/jvm2json:jdk-latest")
      (.asked (given.switch? "compile") (given.switch? "decompile") (given.switch? "document")
        (given.switch? "test"))

def inspectCommand : Command where
  name := "inspect"
  arguments := "METHOD"
  options := [
    { key := "format", texts := ["--format"]
      value := some ("[" ++ Text.join "|" (Inspection.formats.map fun (name, _) => name) ++ "]")
      description := "The format to print the instruction in." }]
  carryOut given := do
    lift (given.check fun _ => checkFormat)
    match given.words with
    | [] => throw (.badUsage "Missing argument 'METHOD'.")
    | method :: _ =>
      lift (given.limitWords 1)
      let format := (given.text? "format").bind fun name => Inspection.formats.find? name
      Inspection.carryOut method (format.getD .pretty)

def plotCommand : Command where
  name := "plot"
  purpose := "Plot results of a report or compare reports in a directory"
  options := [
    { key := "directory", texts := ["--directory", "-d"], value := some "DIRECTORY"
      description := "Specifying a directory will create a comparative plot of all reports in " ++
        "the directory" },
    { key := "report", texts := ["--report", "-r"], value := some "PATH"
      description := "Specifying the path to a report.json file will plot the scores of the " ++
        "report" }]
  carryOut given := do
    let folder := (← suite).folder
    lift (given.check fun key value =>
      if key = "directory" then checkFolder folder "'--directory' / '-d'" value
      else checkPath folder "'--report' / '-r'" value)
    lift (given.limitWords 0)
    Charts.carryOut ((given.text? "directory").map .ofText) ((given.text? "report").map .ofText)

def commands : List Command := [
  buildCommand outside, checkHealthCommand outside, evaluateCommand outside, inspectCommand,
  interpretCommand outside, plotCommand, testCommand outside]

/-! The whole command line -/

/-- The least level that is shown, by how often more was asked for. -/
def shownLevel (verbosity : Nat) : Except Fault Level :=
  match verbosity with
  | 0 => .ok .success
  | 1 => .ok .info
  | 2 | 3 => .ok .debug
  | _ => .error .badIndex

/-- How the program ended: the traces it left, its exit code, the fault that escaped, and what is
printed on a wrong use. -/
structure Ending where
  bench : Workbench
  exit : Int
  escaped : Option Fault := none
  complaint : String := ""
  shown : Level := .success

/-- The lines of the log that are shown, then the complaint. -/
def Ending.errors (e : Ending) : String :=
  String.join ((Log.atLeast e.shown e.bench.log).map fun entry =>
    "main    : " ++ entry.message ++ "\n") ++ e.complaint

/-- The fault that escaped, or else the exit. -/
def Ending.fault (e : Ending) : Fault := e.escaped.getD (.exit e.exit)

/-- What is printed on a wrong use of a command. -/
def complaintText (name synopsis explanation : String) : String :=
  "Usage: " ++ name ++ " " ++ synopsis ++ "\nTry '" ++ name ++ " --help' for help.\n\nError: " ++
    explanation ++ "\n"

/-- The end of a program after some work. -/
def Ending.ofResult (result : Except Fault Unit) (bench : Workbench) (shown : Level)
    (name synopsis : String) : Ending :=
  match result with
  | .ok () => { bench, shown, exit := 0 }
  | .error (.exit code) => { bench, shown, exit := code }
  | .error (.unwritableReport name reason) =>
    { bench, shown, exit := 1
      complaint := "Error: " ++ (Fault.unwritableReport name reason).message ++ "\n" }
  | .error (.badUsage explanation) =>
    { bench, shown, exit := 2, complaint := complaintText name synopsis explanation }
  | .error e => { bench, shown, exit := 1, escaped := some e }

def rootSynopsis : String := "[OPTIONS] COMMAND [ARGS]..."

def rootOptions : List Declared := [
  verboseOption "sets the verbosity of the program, more means more information",
  { key := "workdir", texts := ["--workdir"], value := some "DIRECTORY"
    description := "the base of the jpamb folder." },
  helpOption]

/-- What the program says about itself and its commands. -/
def rootHelp : String :=
  helpText ("cli " ++ rootSynopsis) "This is the jpamb main entry point." rootOptions
    ((commands outside).map fun c => (c.name, c.purpose))

/-- What the words ask for: help, or a command with the words for it. -/
inductive Choice
  | help
  | command (c : Command) (words : List String)

/-- The command that the words name. Words that start neither with a letter nor with a digit name
nothing and are taken for a call for help. -/
def chosenCommand (words : List String) : Except Fault Choice :=
  match words with
  | [] => .error (.badUsage "Missing command.")
  | name :: words =>
    match (commands outside).find? (·.name == name), name.toList with
    | some command, _ => .ok (.command command words)
    | none, c :: _ =>
      if Text.isLetter c || Text.isNumeral c then
        .error (.badUsage ("No such command " ++ Text.quoted name ++ "."))
      else .ok .help
    | none, [] => .error (.badUsage ("No such command " ++ Text.quoted name ++ "."))

/-- What the options of the bench itself ask for. -/
structure Request where
  verbosity : Nat
  home : Path
  choice : Choice

/-- Reads the options of the bench itself and the name of the command. -/
def readRequest (folder : Folder) (words : List String) : Except Fault Request := do
  let given ← readOptions (rootOptions.flatMap Declared.spellings) false words
  if words.isEmpty || given.asksHelp then
    return { verbosity := 0, home := folder.root, choice := .help }
  given.check fun _ => checkFolder folder "'--workdir'"
  let home := match (given.text? "workdir").map fun p => folder.locate (.ofText p) with
    | some (some parts) => { folder.root with parts := folder.root.parts ++ parts }
    | _ => folder.root
  return { verbosity := given.count "verbose", home, choice := ← chosenCommand outside given.words }

/-- Runs the program in a folder. -/
def runIn (folder : Folder) (words : List String) : Ending :=
  let bench : Workbench := { suite := { folder } }
  match readRequest outside folder words with
  | .error e => .ofResult (.error e) bench .success "cli" rootSynopsis
  | .ok request =>
    match request.choice with
    | .help => { bench := { bench with out := rootHelp outside }, exit := 0 }
    | .command command words =>
      match shownLevel request.verbosity with
      | .error e => .ofResult (.error e) bench .success "cli" rootSynopsis
      | .ok shown =>
        let bench : Workbench := {
          suite := { folder, home := request.home }
          log := [Log.debug ("Setup suite in " ++ request.home.text)] }
        let name := "cli " ++ command.name
        let (result, bench) := (command.read name words >>= command.carryOut).execute bench
        .ofResult result bench shown name command.synopsis

/-! The command line of the statistics -/

/-- The statistics as a command: its files have to be there. -/
def statisticsCommand : Command where
  name := "stats"
  arguments := "[FILES]..."
  purpose := "A program for calculating and presenting the stats of a collection of experiments."
  options := [
    verboseOption "",
    { key := "report", texts := ["-o", "--report"], value := some "PATH" }]
  carryOut given := do
    let folder := (← suite).folder
    lift (given.words.forM (checkPath folder "'[FILES]...'"))

/-- Runs the statistics in a folder. The table of the tools is there if the end was reached. -/
def statisticsIn (folder : Folder) (words : List String) : Ending × Option Statistics.ToolTable :=
  let bench : Workbench := { suite := { folder } }
  let command := statisticsCommand
  let start : Work (Given × Level) := do
    let given ← command.read command.name words
    command.carryOut given
    return (given, ← lift (shownLevel (min (given.count "verbose") 3)))
  match start.execute bench with
  | (.error e, bench) => (.ofResult (.error e) bench .success command.name command.synopsis, none)
  | (.ok (given, shown), bench) =>
    let report := Path.ofText ((given.text? "report").getD "report")
    let (result, bench) := (Statistics.carryOut (given.words.map .ofText) report).execute bench
    (.ofResult (result.map fun _ => ()) bench shown command.name command.synopsis, result.toOption)

end BytecodeBench.CommandLine
