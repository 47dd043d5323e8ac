import BytecodeBench.Calendar
import BytecodeBench.Check
import BytecodeBench.Csv
import BytecodeBench.Datum.Arithmetic

/-!
Experiments: what a group has measured with its tools. The results of a tool are cleaned and summed up
over the first result of each method.
-/

namespace BytecodeBench

/-- The kind of a tool, by the technologies that it uses. -/
inductive ToolKind
  | adhoc
  | static
  | dynamic
  | syntactic
  | hybrid
  | cheater
  deriving DecidableEq, Repr

namespace ToolKind

def name : ToolKind → String
  | adhoc => "adhoc"
  | static => "static"
  | dynamic => "dynamic"
  | syntactic => "syntactic"
  | hybrid => "hybrid"
  | cheater => "cheater"

def colour : ToolKind → String
  | adhoc => "brown"
  | static => "green"
  | dynamic => "yellow"
  | syntactic => "teal"
  | hybrid => "blue"
  | cheater => "red"

/-- The number of the mark with which a tool is drawn. -/
def mark : ToolKind → Nat
  | cheater => 0
  | hybrid => 1
  | static => 2
  | dynamic => 3
  | syntactic => 4
  | adhoc => 5

/-- The kind that technologies make. Cheating comes first, then the mixture of the static and the
dynamic. -/
def of (technologies : Datum) : Except Fault ToolKind := do
  let isSyntactic ← technologies.mentions "syntactic"
  let isStatic ← technologies.mentions "static"
  let isDynamic ← technologies.mentions "dynamic"
  let isCheater ← technologies.mentions "cheater"
  return if isCheater then cheater
    else if isStatic && isDynamic then hybrid
    else if isSyntactic then syntactic
    else if isDynamic then dynamic
    else if isStatic then static
    else adhoc

end ToolKind

/-- A tool of a group at a point in time. -/
structure ToolVersion where
  group : Datum
  tool : String
  /-- When the experiment was made. -/
  time : String

structure Measurement where
  source : ToolVersion
  method : Datum
  score : Datum
  kind : ToolKind
  absolute : Float
  /-- As a power of ten. -/
  relative : Float

structure ToolSummary where
  source : ToolVersion
  kind : ToolKind
  technologies : Datum
  score : Datum
  absolute : Float
  relative : Float

namespace Experiment

def toFloat (d : Datum) : Except Fault Float :=
  match d.toFloat? with
  | some x => if d.isBeyondFloats then .error .tooLarge else .ok x
  | none => .error .wrongNature

def log10 (d : Datum) : Except Fault Float := do
  let x ← toFloat d
  if x ≤ 0.0 then throw .noLogarithm
  return x.log10

/-! Columns of numbers -/

def isNaN : Datum → Bool
  | .real x => x.isNaN
  | _ => false

/-- Whether all numbers of a column are whole. -/
def isWhole (column : List Datum) : Bool := column.all (·.integer?.isSome)

/-- Numbers as they stand in a column: whole only if all of them are. -/
def uniform (column : List Datum) : List Datum :=
  if isWhole column then column else column.map fun d => .real (d.toFloat?.getD 0.0)

/-- The sum of numbers, whole as asked. -/
def sum (whole : Bool) (numbers : List Datum) : Datum :=
  if whole then .int (numbers.foldl (fun n d => n + d.integer?.getD 0) 0)
  else .real ((numbers.filter (!isNaN ·)).foldl (fun x d => x + d.toFloat?.getD 0.0) 0.0)

def mean (numbers : List Float) : Float :=
  let known := numbers.filter (!·.isNaN)
  known.foldl (· + ·) 0.0 / known.length.toFloat

def firstFloat (numbers : List Float) : Float := (numbers.find? (!·.isNaN)).getD (0.0 / 0.0)

def firstScore (scores : List Datum) : Datum := (scores.find? (!isNaN ·)).getD (.real (0.0 / 0.0))

/-- Measurements by method, in ascending order of the methods. -/
def byMethod (measurements : List Measurement) : Table String (List Measurement) :=
  let groups : Table String (List Measurement) :=
    measurements.foldl (fun groups m => groups.update m.method.display [] (· ++ [m])) []
  groups.mergeSort fun a b => decide (a.1 ≤ b.1)

/-! Cleaning -/

/-- A measurement, unless its time or its score makes no sense. -/
def measure (source : ToolVersion) (context result : Datum) : Noting Unit (Option Measurement) := do
  let lift {α : Type} (x : Except Fault α) : Noting Unit α := ExceptT.mk (pure x)
  let method ← lift (result.fetch "method")
  let place := source.group.display ++ "/" ++ source.tool ++ "/" ++ method.display
  let time ← lift (result.fetch "time")
  if time.isText "NaN" then
    Noting.note (Log.warning ("Found NaN in time, skipping " ++ place))
    return none
  let absolute ← lift (toFloat time)
  let relative ← lift (do log10 (← result.fetch "relative"))
  let score ← lift (result.fetch "score")
  if ← lift (score.relate .gt (.int 6)) then
    Noting.note (Log.debug result.display)
    Noting.note (Log.warning ("Found score " ++ score.display ++ " is higher than 6, skipping " ++ place))
    return none
  let kind ← lift (do ToolKind.of (← context.fetch "technologies"))
  let tooLow ← lift ((Datum.int 1).relate .gt score)
  return some {
    source, method, kind, relative
    absolute := absolute / 1000000.0
    score := if tooLow then .int 1 else score }

/-- The measurements that make sense. -/
def measureAll (source : ToolVersion) (context : Datum) : List Datum → Noting Unit (List Measurement)
  | [] => pure []
  | result :: rest => do
    let first ← measure source context result
    return first.toList ++ (← measureAll source context rest)

/-- Sums up the measurements of a tool, of which there must be some. -/
def summarise (source : ToolVersion) (context : Datum) (measurements : List Measurement) :
    Except Fault ToolSummary := do
  if measurements.isEmpty then throw (.missingKey "'method'")
  let technologies ← context.fetch "technologies"
  let groups := (byMethod measurements).map (·.2)
  let whole := isWhole (measurements.map (·.score))
  return {
    source, technologies
    kind := ← ToolKind.of technologies
    score := sum whole (groups.map fun g => firstScore (g.map (·.score)))
    absolute := mean (groups.map fun g => firstFloat (g.map (·.absolute)))
    relative := (10.0 : Float).pow (mean (groups.map fun g => firstFloat (g.map (·.relative)))) }

def analyseTool (group : Datum) (time tool : String) (context : Datum) :
    Noting Unit (ToolSummary × List Measurement) := do
  let lift {α : Type} (x : Except Fault α) : Noting Unit α := ExceptT.mk (pure x)
  let source : ToolVersion := ⟨group, tool, time⟩
  match (← lift (context.fetch "results")).items? with
  | none => throw .wrongNature
  | some results =>
    let measurements ← measureAll source context results
    return (← lift (summarise source context measurements), measurements)

/-- Analyses tools one after the other. -/
def analyseTools (group : Datum) (time : String) :
    List (String × Datum) → Noting Unit (List ToolSummary × List Measurement)
  | [] => pure ([], [])
  | (tool, context) :: rest => do
    let (summary, measurements) ← analyseTool group time tool context
    let (summaries, others) ← analyseTools group time rest
    return (summary :: summaries, measurements ++ others)

/-- When the experiment was made. -/
def timeOf (experiment : Datum) : Except Fault String := do
  let milliseconds ← toFloat (← experiment.fetch "timestamp")
  (← Moment.ofSeconds (milliseconds / 1000.0)).text

def analyse (experiment : Datum) : Noting Unit (List ToolSummary × List Measurement) := do
  let lift {α : Type} (x : Except Fault α) : Noting Unit α := ExceptT.mk (pure x)
  let time ← lift (timeOf experiment)
  let group ← lift (experiment.fetch "group_name")
  match ← lift (experiment.fetch "tools") with
  | .record tools => analyseTools group time tools
  | _ => throw .noSuchPart

/-- The points to be had in a distribution of results: one for each method and each result. -/
def maxPoints (distribution : String) : Except Fault Int :=
  match Csv.records distribution with
  | [] => .error .badIndex
  | first :: rest => .ok (rest.length * ((first.length : Int) - 1))

end Experiment

end BytecodeBench
