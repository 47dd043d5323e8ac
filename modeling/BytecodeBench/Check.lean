import BytecodeBench.Datum.Basic
import BytecodeBench.Fault
import BytecodeBench.Log

/-!
Checks: a step with a reason. The reason is noted before the step and its success after it; a failed
condition is noted and goes no further, unless the check is to fail fast.
-/

namespace BytecodeBench

/-- What a computation works on, with the notes taken so far. -/
structure Noted (σ : Type) where
  state : σ
  log : Log := []

/-- A computation that works on a state, takes notes and may fail. -/
abbrev Noting (σ : Type) := ExceptT Fault (StateM (Noted σ))

namespace Noting

variable {σ : Type}

def note (entry : LogEntry) : Noting σ Unit := modify fun n => { n with log := n.log ++ [entry] }

/-- The result with the state and the notes. -/
def execute {α : Type} (x : Noting σ α) (state : σ) : Except Fault α × Noted σ :=
  x.run.run { state }

end Noting

namespace Fault

/-- What the arguments of a fault show: nothing, the only one, or all of them. -/
def shownArguments : List Datum → String
  | [] => ""
  | [only] => only.display
  | all => (Datum.tuple all).literal

def ofArguments (arguments : List Datum) : Fault :=
  .failedCheck (shownArguments arguments) (Datum.tuple arguments).literal

/-- The arguments of a fault in writing. -/
def argumentsLiteral (e : Fault) : String :=
  match e with
  | .failedCheck _ arguments => arguments
  | e => if e.message.isEmpty then "()" else (Datum.tuple [.text e.message]).literal

end Fault

variable {σ : Type}

/-- Carries out a step under a check. -/
def check (reason : String) (failFast : Bool) (step : Noting σ Unit) : Noting σ Unit := do
  Noting.note (Log.info reason)
  match ← ExceptT.lift step.run with
  | .ok () => Noting.note (Log.success (reason ++ " ok"))
  | .error e =>
    if e.kind = .violated then
      let detail := if e.message.isEmpty then "" else ": " ++ e.message
      Noting.note (Log.error (reason ++ " FAILED" ++ detail))
      if failFast then
        throw (.ofArguments [.text (reason ++ " " ++ e.argumentsLiteral)])
    else throw e

/-- Carries out a step under nested checks, the outermost first. -/
def checkAll (step : Noting σ Unit) : List (String × Bool) → Noting σ Unit
  | [] => step
  | (reason, failFast) :: inner => check reason failFast (checkAll step inner)

def demand (condition : Bool) (message : String) : Noting σ Unit :=
  if condition then pure () else throw (.ofArguments [.text message])

end BytecodeBench
