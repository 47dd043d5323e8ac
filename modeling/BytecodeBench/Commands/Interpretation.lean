import BytecodeBench.Filter
import BytecodeBench.Launch
import BytecodeBench.Report

/-!
Interpretation: a program is run on every case as an interpreter, and what it answers is compared with
the expected result. Stepwise, the first case that fails is recorded and ends the command; the next
stepwise command goes on from the record.
-/

namespace BytecodeBench.Interpretation

open Work

/-- Where the case that failed is recorded. -/
def recordFile : Path := .ofText ".jpamb-stepwise"

/-- The recorded case; a record that cannot be read counts for nothing. -/
def readRecord : Work (Option Case) := do
  match (← suite).folder.read recordFile with
  | .error _ => return none
  | .ok content =>
    match Case.decode content with
    | .ok c => return some c
    | .error e =>
      if e.kind = .malformed then
        note (Log.warning e.message)
        return none
      throw e

/-- The cases from the recorded one on. -/
def fromRecord (record : Option Case) (cases : List Case) : List Case :=
  match record with
  | none => cases
  | some c => cases.dropWhile fun other => !c.same other

/-- The answer in what a program printed: its last line, without blanks around it. -/
def lastLine (out : String) : Except Fault String :=
  match (Text.lines out).getLast? with
  | some line => .ok (Text.strip line)
  | none => .error .badIndex

/-- Runs the program on a case and tells its answer. A program that is late or fails has answered
too. -/
def answer (outside : Outside) (command : List String) (c : Case) : Work String := do
  let words := command ++ [c.method.encode, ← lift c.input.encode]
  match ← attempt (runReported outside words) with
  | .ok out => lift (lastLine out)
  | .error .overdueRun => return "*"
  | .error e =>
    if e.kind = .runFailed then
      note (Log.error e.message)
      return "failure"
    throw e

/-- How many cases came out right, of how many. -/
structure Tally where
  right : Nat := 0
  count : Nat := 0
  deriving DecidableEq, Repr

def Tally.add (t : Tally) (right : Bool) : Tally :=
  { right := t.right + right.toNat, count := t.count + 1 }

/-- Runs the program on a case. Stepwise, a wrong answer is recorded and ends the command. -/
def runCase (outside : Outside) (command : List String) (stepwise : Bool) (c : Case)
    (title : String) : Work Bool :=
  frame ("Case " ++ title) do
    let found ← answer outside command c
    tell ("Expected " ++ Text.quoted c.result ++ " and got " ++ Text.quoted found)
    if c.result = found then return true
    if stepwise then
      writeFile recordFile (← lift c.encode)
      throw (.exit (-1))
    return false

/-- Runs the program on the cases that pass a filter. -/
def runCases (outside : Outside) (command : List String) (stepwise : Bool) (filter : Option Filter)
    (tally : Tally) : List Case → Work Tally
  | [] => pure tally
  | c :: rest => do
    let title ← lift c.display
    if Filter.passes filter title then
      let right ← runCase outside command stepwise c title
      runCases outside command stepwise filter (tally.add right) rest
    else runCases outside command stepwise filter tally rest

/-- Runs the program on all cases, or on those from the record on. Reaching the end removes the
record. -/
def carryOut (outside : Outside) (program : List String) (withInterpreter : Option Bool)
    (stepwise : Bool) (filter : Option Filter) : Work Unit := do
  let command ← launchCommand outside withInterpreter program
  let record ← if stepwise then readRecord else pure none
  let cases ← ask Suite.cases
  let tally ← runCases outside command stepwise filter {} (fromRecord record cases)
  removeFile recordFile
  tell ("Total " ++ toString tally.right ++ "/" ++ toString tally.count)

end BytecodeBench.Interpretation
