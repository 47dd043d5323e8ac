import BytecodeBench.CommandLine.Arguments
import BytecodeBench.Machine.Abstract
import BytecodeBench.Machine.Concrete
import BytecodeBench.Machine.Run
import BytecodeBench.Workbench

/-! The tools that run a method on given values, on strings or on signs of strings. -/

namespace BytecodeBench.Tools

open Work CommandLine

/-- The program that a suite has for a single method. -/
def methodProgram (s : Suite) (id : AbsMethodId) : Program := .single id (s.instructions id)

/-- What is noted before a step: the instruction and the state. -/
def stepLog {L : Type} (program : Program) (s : State L) : Log :=
  match s.frames with
  | [] => []
  | f :: _ =>
    match program.fetch f.pc >>= fun i => (i.resolve s.arrays).display with
    | .ok shown => [Log.debug ("STEP " ++ shown ++ "\n" ++ s.display)]
    | .error _ => []

/-- Steps with notes until the machine stops or the budget is spent. -/
def runNoting {M L : Type} (program : Program) (step : M → M × Option Halt) (state : M → State L) :
    Nat → M → Work Query
  | 0, _ => pure .unresolved
  | budget + 1, m => do
    noteAll (stepLog program (state m))
    match step m with
    | (m, none) => runNoting program step state budget m
    | (_, halt) => lift (Halt.outcome halt)

/-- Prints a text and ends the tool. -/
def introduce {α : Type} (text : String) : Work α := do
  modify fun b => { b with out := b.out ++ text }
  throw (.exit 0)

/-- The arguments of a tool, which may be a call for help. -/
def readArguments (usage : ToolUsage) (words : List String) : Work Arguments := do
  match ← lift (Arguments.read usage words) with
  | some arguments => return arguments
  | none => introduce usage.help

/-- What an attempt to read has given; a fault is noted and ends the tool. -/
def readOrNote {α : Type} (what : String) (x : Except Fault α) : Work (Option α) :=
  match x with
  | .ok a => pure (some a)
  | .error e => do
    note (Log.error ("Failed to decode " ++ what ++ ": " ++ e.message))
    return none

/-- The method and the input that the operands name. -/
def readCase (arguments : Arguments) : Work (Option (AbsMethodId × Input)) := do
  match arguments.operands with
  | [method, input] =>
    match ← readOrNote "method ID" (AbsMethodId.decode method) with
    | none => return none
    | some id => return (← readOrNote "input" (Input.decode input)).map fun input => (id, input)
  | _ => throw wrongArguments

def interpretUsage : ToolUsage where
  operands := 2
  wholeOptions := ["--max-steps"]
  help := "usage: interpreter.py [-h] [--max-steps MAX_STEPS] methodid input

positional arguments:
  methodid              Method ID to execute
  input                 Input values as a comma-separated string wrapped in
                        parentheses

options:
  -h, --help            show this help message and exit
  --max-steps MAX_STEPS
                        Maximum number of steps

Example usage:
    uv run solutions/interpreter.py \"jpamb.cases.Simple.assertInteger:(I)V\" \"(0)\"
    uv run solutions/interpreter.py \"jpamb.cases.Strings.stringLenSometimesNull:(I)V\" \"(100)\"
"

/-- Runs a method on strings and prints the outcome. -/
def interpret (locate : Concrete.Locate) (words : List String) : Work Unit := do
  let arguments ← readArguments interpretUsage words
  let steps ← lift (arguments.int "--max-steps" 1000)
  match ← readCase arguments with
  | none => return
  | some (id, input) =>
    let program := methodProgram (← suite) id
    let start : Concrete.Watched := ⟨.ofCall id input.values program.constants, none⟩
    let outcome ← runNoting program (Concrete.step program locate) (·.state) steps.toNat start
    print outcome.name

def interpretSignsUsage : ToolUsage where
  operands := 2
  help := "usage: abstract_string_interpreter.py [-h] methodid input

positional arguments:
  methodid    Method ID to execute
  input       Input values as a comma-separated string wrapped in parentheses

options:
  -h, --help  show this help message and exit

Example usage:
    uv run solutions/abstract_string_interpreter.py \"jpamb.cases.Strings.stringEqualsLiteralFails:()V\" \"()\"
    uv run solutions/abstract_string_interpreter.py \"jpamb.cases.Strings.stringLenSometimesNull:(I)V\" \"(100)\"
    uv run jpamb interpret -W --filter Strings solutions/abstract_string_interpreter.py
"

/-- Runs a method on signs of strings and prints the outcome. -/
def interpretSigns (words : List String) : Work Unit := do
  match ← readCase (← readArguments interpretSignsUsage words) with
  | none => return
  | some (id, input) =>
    let program := methodProgram (← suite) id
    let start : State StringSign := .ofCall id input.values program.constants
    let outcome ← runNoting program (Abstract.step program) (fun s => s) 1000 start
    print outcome.name

end BytecodeBench.Tools
