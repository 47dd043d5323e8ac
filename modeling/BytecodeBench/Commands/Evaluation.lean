import BytecodeBench.AnalysisInfo
import BytecodeBench.Commands.Trial
import BytecodeBench.Json.Writer

/-!
Evaluation: an analysis is run several times on each method, and its scores and times are written as a
report. A time is also given relative to a fixed task that is carried out before and after the run, as
a power of ten.
-/

namespace BytecodeBench.Evaluation

open Work

def ofNat (n : Nat) : Float := n.toFloat

/-- The logarithm to base ten. -/
def log10 (x : Float) : Except Fault Float :=
  if x ≤ 0.0 then .error .noLogarithm else .ok x.log10

/-- A time relative to the mean of two others. -/
def relativeTime (time before after : Nat) : Except Fault Float :=
  if before + after = 0 then .error .dividedByZero
  else log10 (ofNat time / ofNat (before + after) * 2.0)

/-- The quotient of a sum and a count. -/
def mean (sum : Amount Float) (count : Int) : Except Fault Float :=
  if count = 0 then .error .dividedByZero
  else .ok (sum.toQuantity / Amount.toQuantity (.whole count))

def amountData : Amount Float → Datum
  | .whole n => .int n
  | .quantity x => .real x

/-- Sums of scores, times and relative times. -/
structure Sums where
  score : Amount Float := .whole 0
  time : Amount Float := .whole 0
  relative : Amount Float := .whole 0

def Sums.add (a b : Sums) : Sums where
  score := a.score.add b.score
  time := a.time.add b.time
  relative := a.relative.add b.relative

/-- The means of the sums, each over the count. -/
def Sums.means (sums : Sums) (count : Int) : Except Fault Sums := do
  return {
    score := .quantity (← mean sums.score count)
    time := .quantity (← mean sums.time count)
    relative := .quantity (← mean sums.relative count) }

/-- How long the fixed task takes. -/
def calibrate (outside : Outside) : Work Nat := do
  let before ← readClock outside
  let after ← readClock outside
  return after - before

/-- One run on a method: what it adds to the sums, and its part of the report. -/
def runOnce (outside : Outside) (command : List String) (id : AbsMethodId) (correct : List String)
    (iteration : Nat) : Work (Sums × Datum) := do
  note (Log.info ("Running on " ++ id.encode ++ ", iter " ++ toString iteration))
  let before ← calibrate outside
  let (out, time) ← run outside (command ++ [id.encode]) ignore (noting Log.debug)
  let after ← calibrate outside
  let response ← Trial.readResponse out
  let score := response.score correct
  let relative ← lift (relativeTime time before after)
  return (
    { score, time := .whole time, relative := .quantity relative },
    .record [
      ("iteration", .int iteration),
      ("response", .record (response.predictions.map fun (q, p) => (q.name, .real p.wager))),
      ("score", amountData score),
      ("time", .int time),
      ("relative", .real relative),
      ("calibrates", .list [.int before, .int after])])

def runTimes (outside : Outside) (command : List String) (id : AbsMethodId) (correct : List String)
    (sums : Sums) (results : List Datum) (iteration : Nat) : Nat → Work (Sums × List Datum)
  | 0 => pure (sums, results)
  | left + 1 => do
    let (added, result) ← runOnce outside command id correct iteration
    runTimes outside command id correct (sums.add added) (results ++ [result]) (iteration + 1) left

/-- The runs on a method: their means, and their part of the report. -/
def runMethod (outside : Outside) (command : List String) (iterations : Int) (id : AbsMethodId)
    (correct : List String) : Work (Sums × Datum) := do
  note (Log.success ("Running on " ++ id.encode))
  let (sums, results) ← runTimes outside command id correct {} [] 0 iterations.toNat
  let means ← lift (sums.means iterations)
  return (means, .record [
    ("score", amountData means.score),
    ("time", amountData means.time),
    ("relative", amountData means.relative),
    ("iterations", .list results)])

def runMethods (outside : Outside) (command : List String) (iterations : Int) (sums : Sums)
    (results : List (String × Datum)) :
    Table AbsMethodId (List String) → Work (Sums × List (String × Datum))
  | [] => pure (sums, results)
  | (id, correct) :: rest => do
    let (means, result) ← runMethod outside command iterations id correct
    runMethods outside command iterations (sums.add means) (results ++ [(id.encode, result)]) rest

/-- Has the analysis introduce itself; an introduction that cannot be read is only noted. -/
def introduction (outside : Outside) (command : List String) : Work (Option AnalysisInfo) := do
  let (out, _) ← run outside (command ++ ["info"]) (noting Log.info) (noting Log.debug)
  match AnalysisInfo.parse out with
  | .ok info => return some info
  | .error _ =>
    note (Log.error "Expected info, but got:")
    noteAll ((Text.lines out).map Log.error)
    return none

/-- The whole report, for which the introduction is needed. -/
def reportData (info : Option AnalysisInfo) (sums : Sums) (results : List (String × Datum)) :
    Except Fault Datum := do
  match info with
  | none => throw .neverSet
  | some info =>
    return .record [
      ("info", .record info.fields),
      ("bymethod", .record results),
      ("score", amountData sums.score),
      ("time", .real (← mean sums.time results.length)),
      ("relative", .real (← mean sums.relative results.length))]

/-- Evaluates an analysis. -/
def carryOut (outside : Outside) (program : List String) (withInterpreter : Option Bool)
    (iterations : Int) : Work Unit := do
  let command ← launchCommand outside withInterpreter program
  let info ← introduction outside command
  let (sums, results) ←
    runMethods outside command iterations {} [] (← ask Suite.caseMethods)
  reportText (Json.writeIndented 2 (← lift (reportData info sums results)))

end BytecodeBench.Evaluation
