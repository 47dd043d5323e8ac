import BytecodeBench.AnalysisInfo
import BytecodeBench.Filter
import BytecodeBench.Launch
import BytecodeBench.Report
import BytecodeBench.Response

/-! Trials: an analysis is run on the methods of the cases, and its answers are reported and scored. -/

namespace BytecodeBench.Trial

open Work

/-- Has an analysis introduce itself. -/
def introduce (outside : Outside) (command : List String) : Work Unit :=
  frame "Info" do
    let out ← runReported outside (command ++ ["info"])
    let info ← lift (AnalysisInfo.parse out)
    frame "Results" do
      (info.fields.mergeSort fun a b => decide (a.1 ≤ b.1)).forM fun (name, value) =>
        tell ("- " ++ name ++ ": " ++ value.display)

/-- Reads a response, with notes of what it holds. -/
def readResponse (out : String) : Work (Response Float) := do
  noteAll (Response.readingLog (N := Float) out)
  lift (Response.parse out)

/-- The predictions by ascending query. -/
def sortedPredictions (r : Response Float) : Table Query (Prediction Float) :=
  Query.all.filterMap fun q => (r.predictions.find? q).map fun p => (q, p)

/-- Runs an analysis on a method and scores its answer. -/
def tryMethod (outside : Outside) (command : List String) (id : AbsMethodId)
    (correct : List String) : Work (Amount Float) :=
  frame ("Case " ++ id.encode) do
    let out ← runReported outside (command ++ [id.encode])
    let response ← readResponse out
    frame "Results" do
      (sortedPredictions response).forM fun (q, p) =>
        tell ("- " ++ q.name ++ ": " ++ p.display ++ " " ++ Decimal.fixed 2 p.wager)
    let score := response.score correct
    tell ("Score " ++ Decimal.fixed 2 score.toQuantity)
    return score

/-- Runs an analysis on the methods that pass a filter, and adds up the scores. -/
def tryMethods (outside : Outside) (command : List String) (filter : Option Filter)
    (total : Amount Float) : Table AbsMethodId (List String) → Work (Amount Float)
  | [] => pure total
  | (id, correct) :: rest => do
    if Filter.passes filter id.encode then
      let score ← tryMethod outside command id correct
      tryMethods outside command filter (total.add score) rest
    else tryMethods outside command filter total rest

/-- Tries out an analysis. Under a filter it does not introduce itself. -/
def carryOut (outside : Outside) (program : List String) (withInterpreter : Option Bool)
    (filter : Option Filter) : Work Unit := do
  let command ← launchCommand outside withInterpreter program
  if filter.isNone then introduce outside command
  let total ← tryMethods outside command filter (.whole 0) (← ask Suite.caseMethods)
  tell ("Total " ++ Decimal.fixed 2 total.toQuantity)

end BytecodeBench.Trial
