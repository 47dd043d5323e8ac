import BytecodeBench.Case
import BytecodeBench.Datum.Basic
import BytecodeBench.Fault
import BytecodeBench.Text.Basic
import BytecodeBench.Text.Blank
import BytecodeBench.Text.Lowercase

/-! What an analysis says of itself, on five lines: name, version, group, tags, system. -/

namespace BytecodeBench

/-- An analysis as it introduces itself; no system means that it takes no part in research. -/
structure AnalysisInfo where
  name : String
  version : String
  group : String
  tags : List String
  system : Option String
  deriving DecidableEq, Repr

namespace AnalysisInfo

def parse (out : String) : Except Fault AnalysisInfo :=
  match Text.lines out with
  | [name, version, group, tags, system] =>
    .ok {
      name := Text.strip name
      version := Text.strip version
      group := Text.strip group
      tags := (Text.split ',' tags).map Text.strip
      system := if Text.lower (Text.strip system) = "no" then none else some (Text.strip system) }
  | lines => .error (.wrongLineCount lines.length)

/-- The introduction as data. -/
def fields (info : AnalysisInfo) : List (String × Datum) := [
  ("name", .text info.name),
  ("version", .text info.version),
  ("group", .text info.group),
  ("tags", .list (info.tags.map .text)),
  ("system", match info.system with
    | some system => .text system
    | none => .null)]

/-- The text with which an analysis introduces itself; the system only if it takes part in research. -/
def print (name version group : String) (tags : List String) (platform : Option String) : String :=
  let lines := [name, version, group, Text.join "," tags] ++ platform.toList
  String.join (lines.map (· ++ "\n"))

/--
What an analysis is asked by its first argument: to introduce itself, which prints the introduction
and ends the program, or to look at a method. The printed text comes with the answer.
-/
def requestedMethod (introduction : String) (args : List String) :
    String × Except Fault AbsMethodId :=
  match args with
  | [] => ("", .error .badIndex)
  | request :: _ =>
    if request = "info" then (introduction, .error (.exit 0))
    else ("", AbsMethodId.decode request)

/-- The method and the input that the arguments name. -/
def requestedCase (args : List String) : Except Fault (AbsMethodId × Input) :=
  match args with
  | method :: input :: _ => do
    return (← AbsMethodId.decode method, ← Input.decode input)
  | _ => .error .badIndex

end AnalysisInfo

end BytecodeBench
