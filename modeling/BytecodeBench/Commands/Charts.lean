import BytecodeBench.Json.Reader
import BytecodeBench.Datum.Arithmetic
import BytecodeBench.Workbench

/-!
Charts of evaluation reports: the reports of a folder against each other, or the methods of one
report. What is drawn is left behind as calls on the drawing tool.
-/

namespace BytecodeBench.Charts

open Work

/-! Series of numbers -/

/-- Numbers that are all whole, or all floating. -/
inductive Series
  | whole (items : List Int)
  | floating (items : List Float)

namespace Series

/-- The series of some data; a single number that is not whole makes all of them floating. -/
def ofData (items : List Datum) : Except Fault Series :=
  match items, items.mapM Datum.integer?, items.mapM Datum.toFloat? with
  | [], _, _ => .ok (floating [])
  | _, some items, _ => .ok (whole items)
  | _, none, some items => .ok (floating items)
  | _, none, none => .error .wrongNature

def data : Series → List Datum
  | whole items => items.map .int
  | floating items => items.map .real

def floats : Series → List Float
  | whole items => items.map fun n => (Datum.int n).toFloat?.getD 0.0
  | floating items => items

/-- The item that comes before all others; a NaN comes before everything. -/
def extremum (name : String) (ints : Int → Int → Bool) (reals : Float → Float → Bool) :
    Series → Except Fault Datum
  | whole (n :: rest) => .ok (.int (rest.foldl (fun best m => if ints m best then m else best) n))
  | floating (x :: rest) =>
    .ok (.real (rest.foldl (fun best y =>
      if best.isNaN then best else if y.isNaN || reals y best then y else best) x))
  | whole [] | floating [] => .error (.emptyExtremum name)

def least : Series → Except Fault Datum :=
  extremum "minimum" (fun a b => decide (a < b)) fun a b => decide (a < b)

def greatest : Series → Except Fault Datum :=
  extremum "maximum" (fun a b => decide (b < a)) fun a b => decide (b < a)

def magnitudes : Series → Series
  | whole items => whole (items.map fun n => (n.natAbs : Int))
  | floating items => floating (items.map Float.abs)

end Series

def toFloat (d : Datum) : Float := d.toFloat?.getD 0.0

/-! Reading reports -/

/-- The score, the time and the relative time of a report or of one of its methods. -/
structure Result where
  score : Datum
  time : Datum
  relative : Datum

/-- The worst score that is drawn. -/
def worst : Datum := .int (-100)

/-- Reads a result; a score below the worst counts as the worst. -/
def Result.ofData (d : Datum) : Except Fault Result := do
  let score ← d.fetch "score"
  let score := if ← worst.relate .gt score then worst else score
  return { score, time := ← d.fetch "time", relative := ← d.fetch "relative" }

/-- A report: who it is of, and the results of the methods and of the whole. -/
structure Reading where
  info : Datum
  methods : Table AbsMethodId Result
  whole : Result

/-- Reads a report for some methods, all of which it must have. -/
def Reading.ofData (d : Datum) (ids : List AbsMethodId) : Except Fault Reading := do
  let info ← d.fetch "info"
  let methods ← d.fetch "bymethod"
  let whole ← Result.ofData d
  let results ← ids.mapM fun id => do return (id, ← Result.ofData (← methods.fetch id.encode))
  return { info, methods := results, whole }

/-- Checks the parts of a report that come before its methods. -/
def precheck (d : Datum) : Except Fault Unit := do
  let _ ← d.fetch "info"
  let _ ← d.fetch "bymethod"
  let _ ← Result.ofData d

def readReport (p : Path) : Work Reading := do
  match Json.read (← readFile p) with
  | .error _ => throw (.unreadableReport p.text)
  | .ok d =>
    lift (precheck d)
    match ← attempt (ask Suite.caseMethods) with
    | .ok methods => lift (Reading.ofData d (methods.map (·.1)))
    | .error e => throw (if e.kind = .malformed then .unreadableReport d.display else e)

/-- The texts in a list, in a text or in a record. -/
def joined (d : Datum) : Except Fault String := do
  match d.items? with
  | none => throw .wrongNature
  | some items =>
    let texts ← items.mapM fun
      | .text s => .ok s
      | _ => .error .wrongNature
    return Text.join ", " texts

/-- How a report is labelled: by name and tags. -/
def label (info : Datum) : Except Fault Datum := do
  let name ← (← info.fetch "name").add (.text ": ")
  name.add (.text (← joined (← info.fetch "tags")))

/-- The reports of a folder that can be read, with their labels. -/
def readReports (folder : Path) : List String → Work (List (Result × Datum))
  | [] => pure []
  | name :: rest => do
    match ← attempt (readReport (folder.under [name])) with
    | .ok reading => do
      let label ← lift (label reading.info)
      return (reading.whole, label) :: (← readReports folder rest)
    | .error e =>
      if e.kind = .malformed then
        print ("Failed to process " ++ name)
        readReports folder rest
      else throw e

/-! Drawing -/

def texts (l : List String) : Datum := .list (l.map .text)

def drawTitle : Work Unit :=
  draw { name := "title", arguments := [.text "JPAMB Test Scores"], options := [("pad", .real 15.0)] }

def drawCall (name : String) (arguments : List Datum) (options : List (String × Datum)) : Work Unit :=
  draw { name, arguments, options }

/-- How big the mark of a report is: the score in hundredths, up to halved for slow ones. -/
def markSizes (scores times : Series) (fastest slowest : Float) : List Datum :=
  scores.floats.zipWith (fun score time =>
    let slowness := (time - fastest) / (slowest - fastest)
    let size := 100.0 * score * (1.0 - slowness * 0.5)
    if size > 100.0 then .real size else .int 100) times.floats

/-- Draws reports against each other. -/
def drawComparison (reports : List (Result × Datum)) : Work Unit := do
  let times ← lift (Series.ofData (reports.map (·.1.relative)))
  let fastest ← lift times.least
  let slowest ← lift times.greatest
  let scores ← lift (Series.ofData (reports.map (·.1.score)))
  let low ← lift scores.least
  let high ← lift scores.greatest
  drawCall "scatter" [] [
    ("x", .list scores.data),
    ("y", .list times.data),
    ("s", .list (markSizes scores times (toFloat fastest) (toFloat slowest))),
    ("c", .list scores.data),
    ("cmap", .text "tab20b"),
    ("clim", .list [fastest, high]),
    ("norm", .record [("vmin", low), ("midpoint", .int 0), ("vmax", high)])]
  (reports.zip (scores.data.zip times.data)).forM fun ((_, label), (score, time)) =>
    drawCall "annotate" [label, .list [score, time]] []
  drawTitle
  drawCall "xlabel" [.text "Test Score"] []
  drawCall "ylabel" [.text "Analyzer Relative Execution Time"] []
  drawCall "show" [] []

def problemColours : Table String String := [
  ("Simple", "seagreen"), ("Calls", "turquoise"), ("Loops", "mediumslateblue"),
  ("Arrays", "violet"), ("Tricky", "darkviolet")]

/-- The colour of a bar; the worst score and unknown kinds are red. -/
def barColour (className : String) (score : Datum) : Except Fault String := do
  let kind := List.find? (fun (kind, _) => Text.occursIn kind className) problemColours
  return if ← score.relate .gt worst then (kind.map (·.2)).getD "red" else "red"

/-- The upper end of an axis: a little above the greatest magnitude. -/
def axisEnd (s : Series) : Except Fault Float := do
  return toFloat (← s.magnitudes.greatest) * 1.05

def drawMethods (methods : Table AbsMethodId Result) : Work Unit := do
  drawTitle
  drawCall "legend" [] [("handles", texts ["Simple", "Arrays", "Calls", "Loops", "Tricky"])]
  drawCall "xticks" [.list []] []
  drawCall "yticks" [.list []] []
  let times ← lift (Series.ofData (methods.map (·.2.time)))
  let scores ← lift (Series.ofData (methods.map (·.2.score)))
  let classes := methods.map fun (id, _) => id.className.text
  let labels := texts (methods.map fun (id, _) => id.method.encode)
  let colours ← lift ((classes.zip scores.data).mapM fun (c, score) => barColour c score)
  let bars (s : Series) :=
    drawCall "bar" [labels, .list s.data] [("color", texts colours), ("label", texts classes)]
  drawCall "subplot" [.int 2, .int 1, .int 1] []
  bars scores
  drawCall "ylabel" [.text "Test Score"] []
  drawCall "xticks" [.list []] []
  let top ← lift (axisEnd scores)
  drawCall "ylim" [.real (-top), .real top] []
  drawCall "subplot" [.int 2, .int 1, .int 2] []
  bars times
  drawCall "ylabel" [.text "Test Time"] []
  drawCall "xticks" [] [("rotation", .int 80)]
  drawCall "ylim" [.int 0, .real (← lift (axisEnd times))] []
  drawCall "show" [] []

/-- Places a value between the two ends of a scale whose middle stands for zero. -/
def midpointScale (low high x : Float) : Float :=
  let between (x₀ y₀ x₁ y₁ : Float) := if x == x₀ then y₀ else (y₁ - y₀) / (x₁ - x₀) * (x - x₀) + y₀
  if x > high then 1.0
  else if x < low then 0.0
  else if !(x ≥ 0.0) then between low 0.0 0.0 0.5
  else if !(x ≥ high) then between 0.0 0.5 high 1.0
  else 1.0

/-- The values of a call on their scale, if the call has one. -/
def scaled? (call : DrawingCall) : Option (List Datum) := do
  let scale ← call.options.lookup "norm"
  let low ← (← scale.field? "vmin").toFloat?
  let high ← (← scale.field? "vmax").toFloat?
  let values ← (← call.options.lookup "c").items?
  return values.map fun d =>
    let x := toFloat d
    if x.isNaN then .null else .real (midpointScale low high x)

/-- Draws the reports of a folder, then a single report. -/
def carryOut (folder report : Option Path) : Work Unit := do
  if let some p := folder then
    let names := ((← suite).folder.locate p).map (← suite).folder.namesAt |>.getD []
    drawComparison (← readReports p (names.filter (Text.endsWith · ".json")))
  if let some p := report then
    drawMethods (← readReport p).methods

end BytecodeBench.Charts
