import BytecodeBench.CommandLine.Options
import BytecodeBench.Experiment
import BytecodeBench.Json.Reader
import BytecodeBench.Workbench

/-! Statistics of experiments: figures of the tools and of the methods, and a table of the tools. -/

namespace BytecodeBench.Statistics

open Work CommandLine

/-- What the experiments have given so far. -/
structure Findings where
  tools : List ToolSummary := []
  measurements : List Measurement := []

/-- The names of the fields of a record, in order. -/
def sortedFields (d : Datum) : Datum :=
  .list ((Folder.sortedNames ((d.items?.getD []).map Datum.display)).map .text)

/-- Adds an experiment; one that lacks something is passed over. -/
def addExperiment (findings : Findings) (experiment : Datum) : Work Findings := do
  let (result, noted) := (Experiment.analyse experiment).execute ()
  noteAll noted.log
  match result with
  | .ok (tools, measurements) =>
    return ⟨findings.tools ++ tools, findings.measurements ++ measurements⟩
  | .error e =>
    if e.kind = .missing then
      note (Log.debug (sortedFields experiment).display)
      note (Log.warning ("Key error " ++ e.message ++ ", skipping."))
      return findings
    throw e

/-- A text without the mark of its byte order. -/
def withoutMark (s : String) : String :=
  match s.toList with
  | c :: rest => if c.toNat = 0xfeff then String.ofList rest else s
  | [] => s

def addText (findings : Findings) (text : String) : Work Findings := do
  addExperiment findings (← lift (Json.read (withoutMark text)))

def addArchive (findings : Findings) : List (String × String) → Work Findings
  | [] => pure findings
  | (name, text) :: rest => do
    if Text.endsWith name ".json" then
      note (Log.info ("Unpacking " ++ Text.quoted name))
      addArchive (← addText findings text) rest
    else addArchive findings rest

def addFile (findings : Findings) (file : Path) : Work Findings := do
  note (Log.info ("Analysing PosixPath(" ++ Text.quoted file.text ++ ")"))
  let folder := (← suite).folder
  if (Path.splitSuffix file.name).2 = ".zip" then
    match folder.entry? file with
    | some (.archive texts) => addArchive findings texts
    | some (.file _) => throw .badArchive
    | _ => throw (folder.refusal file)
  else addText findings (← readFile file)

def addFiles (findings : Findings) : List Path → Work Findings
  | [] => pure findings
  | file :: rest => do addFiles (← addFile findings file) rest

/-! What is shown -/

/-- The scores of the methods added up, in ascending order. -/
def scorePerMethod (measurements : List Measurement) : List (Datum × Datum) :=
  let whole := Experiment.isWhole (measurements.map (·.score))
  let known := measurements.filter fun m => !Experiment.isNaN m.score
  let totals := (Experiment.byMethod known).map fun (name, group) =>
    ((group.head?.map (·.method)).getD (.text name), Experiment.sum whole (group.map (·.score)))
  totals.mergeSort fun a b =>
    match b.2.relate .lt a.2 with
    | .ok below => !below
    | .error _ => true

/-- The table of the tools, with one row for each. -/
structure ToolTable where
  columns : List String
  index : List ToolVersion
  rows : List (List Datum)

def toolTable (tools : List ToolSummary) : ToolTable where
  columns := ["kind", "score", "relative"]
  index := tools.map (·.source)
  rows := (tools.zip (Experiment.uniform (tools.map (·.score)))).map fun (tool, score) =>
    [.text tool.kind.name, score, .real tool.relative]

def call (name : String) (arguments : List Datum) (options : List (String × Datum)) : Work Unit :=
  draw { name, arguments, options }

/-- The figure of the tools: score against relative time. -/
def drawTools (tools : List ToolSummary) (report : Path) : Work Unit := do
  call "add_trace" [.record [
    ("trace", .text "Scatter"),
    ("x", .list (tools.map (.real ·.relative))),
    ("y", .list (Experiment.uniform (tools.map (·.score)))),
    ("name", .text "?"),
    ("mode", .text "markers"),
    ("marker", .record [
      ("color", .list (tools.map (.text ·.kind.colour))),
      ("symbol", .list (tools.map (.int ·.kind.mark)))]),
    ("text", .list (tools.map fun t => .text (t.source.group.display ++ "/" ++ t.source.tool ++
      "<br>" ++ t.technologies.display)))]] []
  call "update_xaxes" [] [("type", .text "log")]
  let points ← lift (Experiment.maxPoints (← readFile (.ofText "stats/distribution.csv")))
  call "update_layout" [] [("title", .text "Progress by Tool"), ("template", .text "seaborn"),
    ("yaxis", .record [("range", .list [.int (-20), .int points])])]
  call "update_traces" [] [("marker_size", .int 10)]
  call "write_html" [.text (report.under ["progress.html"]).text] []

def drawMethods (scores : List (Datum × Datum)) (report : Path) : Work Unit := do
  call "add_trace" [.record [
    ("trace", .text "Bar"),
    ("y", .list (scores.map (·.1))),
    ("x", .list (scores.map (·.2))),
    ("orientation", .text "h")]] []
  call "update_layout" [] [("title", .text "Score per Method"), ("template", .text "seaborn")]
  call "write_html" [.text (report.under ["score-per-method.html"]).text] []

/-- Shows the statistics of experiments and tells the table of the tools. -/
def carryOut (files : List Path) (report : Path) : Work ToolTable := do
  let findings ← addFiles {} files
  note (Log.success ("Analysed " ++ toString files.length ++ " file"))
  setFolder (← lift ((← suite).folder.makeOneFolder report))
  if findings.measurements.isEmpty then throw (.missingKey "'score'")
  let scores := scorePerMethod findings.measurements
  drawTools findings.tools report
  drawMethods scores report
  return toolTable findings.tools

end BytecodeBench.Statistics
