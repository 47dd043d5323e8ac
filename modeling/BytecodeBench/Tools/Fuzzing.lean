import BytecodeBench.AnalysisInfo
import BytecodeBench.Fuzz.Session
import BytecodeBench.SourceTree.Literals
import BytecodeBench.Tools.Interpreting

/-! The tools that fuzz a method and that list the literals in its source. -/

namespace BytecodeBench.Tools

open Work CommandLine

/-- The source of a method's class with its parse tree. -/
def sourceOf (tree : Node) (id : AbsMethodId) : Work SourceFile := do
  let text ← readFile (← lift ((← suite).sourceFile id.className))
  return ⟨text.toList, tree⟩

def literalsOf (tree : Node) (id : AbsMethodId) : Work LiteralTable := do
  return .ofSource (← sourceOf tree id) id

def printCrashes {σ : Type} (s : Fuzz.Session σ) : Work Unit := do
  if !s.crashes.isEmpty then print "\n=== Crashes collected during this session ==="
  s.crashes.zipIdx.forM fun (t, i) =>
    print ("Crash #" ++ toString (i + 1) ++ " inputs: " ++ s.valuesLiteral t ++ ", depth=" ++
      toString t.depth ++ ", score=" ++ toString t.score)

structure FuzzRequest where
  method : String
  maxSteps : Int
  maxRuns : Int
  seed : Int
  /-- Whether the literals of the source are used. -/
  guided : Bool

def fuzzUsage : ToolUsage where
  operands := 1
  wholeOptions := ["--max-steps", "--max-iters", "--seed", "--max-corpus-size"]
  otherOptions := ["--use-syntactic-analysis"]
  help := "usage: fuzzer.py [-h] [--max-steps MAX_STEPS] [--max-iters MAX_ITERS]
                 [--seed SEED] [--max-corpus-size MAX_CORPUS_SIZE]
                 [--use-syntactic-analysis USE_SYNTACTIC_ANALYSIS]
                 methodid

positional arguments:
  methodid              Method ID to execute

options:
  -h, --help            show this help message and exit
  --max-steps MAX_STEPS
                        Maximum number of steps per run
  --max-iters MAX_ITERS
                        Maximum number of fuzzing iterations
  --seed SEED           Random seed for reproducibility
  --max-corpus-size MAX_CORPUS_SIZE
                        Maximum size of the corpus
  --use-syntactic-analysis USE_SYNTACTIC_ANALYSIS
                        Whether to use syntactic analysis to guide fuzzing (1
                        = yes, 0 = no)

Example usage:
    uv run solutions/fuzzer.py \"jpamb.cases.Strings.hardPassphrase:(Ljava/lang/String;)V\"
"

def FuzzRequest.ofArguments (arguments : Arguments) : Except Fault FuzzRequest := do
  return {
    method := arguments.operands.headD ""
    maxSteps := ← arguments.int "--max-steps" 1000
    maxRuns := ← arguments.int "--max-iters" 100000000
    seed := ← arguments.int "--seed" 0
    guided := (arguments.values.find? "--use-syntactic-analysis").any (· ≠ "") }

/-- Fuzzes a method and prints what was found. -/
def fuzz {σ : Type} (randomness : Randomness σ) (source : Int → σ) (locate : Concrete.Locate)
    (platform : String) (tree : Node) (words : List String) : Work Unit := do
  let request ← lift (FuzzRequest.ofArguments (← readArguments fuzzUsage words))
  if request.method = "info" then
    introduce (AnalysisInfo.print "fuzzer" "0.1" "group26" ["fuzzer", "python"] (some platform))
  match ← readOrNote "method ID" (AbsMethodId.decode request.method) with
  | none => return
  | some id =>
    let program := methodProgram (← suite) id
    let target (literals : LiteralTable) : Fuzz.Target σ :=
      ⟨id, program, request.maxSteps.toNat, literals, randomness, locate⟩
    note (Fuzz.Session.opening (target {}) request.seed request.guided)
    let literals ← if request.guided then literalsOf tree id else pure {}
    let start : Fuzz.Session σ := { source := source request.seed, arrays := program.constants }
    let (result, session) := start.run (target literals) request.maxRuns.toNat
    noteAll session.log
    print ("Fuzzing finished with coverage score: " ++ toString (← lift result))
    printCrashes session

def listLiteralsUsage : ToolUsage where
  operands := 1
  help := "usage: syntactic_analyzer.py [-h] methodid

Extract integer and string related literals from a Java method using tree-
sitter.

positional arguments:
  methodid    The method ID to analyze, or 'info' to print metadata about this
              tool.

options:
  -h, --help  show this help message and exit
"

/-- Prints the literals in the source of a method. -/
def listLiterals (platform : String) (tree : Node) (words : List String) : Work Unit := do
  match (← readArguments listLiteralsUsage words).operands with
  | [method] =>
    if method = "info" then
      introduce (AnalysisInfo.print "syntactic_analyzer" "0.2" "group26" ["syntactic", "python"]
        (some platform))
    match AbsMethodId.decode method with
    | .error e => print ("Error: Invalid method ID '" ++ method ++ "': " ++ e.message)
    | .ok id => print (← lift ((← sourceOf tree id).literalReport id))
  | _ => throw wrongArguments

end BytecodeBench.Tools
