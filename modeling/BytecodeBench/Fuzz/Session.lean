import BytecodeBench.Digest.Mixing
import BytecodeBench.Fuzz.TestCase
import BytecodeBench.Log
import BytecodeBench.Machine.Concrete
import BytecodeBench.Machine.Run

/-!
Fuzzing sessions: a method is run on mutants of the test cases that covered something new, and each
failing behaviour, an outcome together with what was covered, is kept once.
-/

namespace BytecodeBench.Fuzz

structure Target (σ : Type) where
  method : AbsMethodId
  program : Program
  maxSteps : Nat
  literals : LiteralTable
  randomness : Randomness σ
  locate : Concrete.Locate

def Target.params {σ : Type} (t : Target σ) : Parameters := t.method.method.params

/-- The number of cells of a coverage map. -/
def coverageSize : Nat := 1024

/-- How many runs without anything new end a session. -/
def stagnationLimit : Int := 350000

/-- A run of the method: on which test case, how it ended and what it covered. -/
structure Round where
  test : TestCase
  outcome : Query
  run : Coverage

/-- What a behaviour is known by: the outcome and a digest of what was covered. -/
def Round.signature (r : Round) : Query × UInt64 := (r.outcome, Digest.Mixing.hash r.run.cells)

structure Session (σ : Type) where
  source : σ
  arrays : ArrayStore := {}
  corpus : List TestCase := []
  crashes : List TestCase := []
  /-- What the crashes are known by. -/
  signatures : List (Query × UInt64) := []
  coverage : Coverage := .empty coverageSize
  /-- How many runs there were since the last one that covered something new. -/
  stagnant : Int := 0
  stopped : Bool := false
  log : Log := []

namespace Session

variable {σ : Type}

def note (s : Session σ) (entry : LogEntry) : Session σ := { s with log := s.log ++ [entry] }

/-- The entry with which a session begins. -/
def opening (t : Target σ) (seed : Int) (guided : Bool) : LogEntry :=
  Log.info ("Fuzzing method: " ++ t.method.encode ++ " with params [" ++
    Text.join ", " (t.params.map JvmType.literal) ++ "], seed=" ++ toString seed ++
    ", use_syntactic_analysis=" ++ Datum.flagText guided)

def draw {α : Type} (s : Session σ) (drawing : Drawing σ α) : Except Fault α × Session σ :=
  let (result, source) := drawing.run.run s.source
  (result, { s with source })

/-- Moves the lists of values to the store. -/
def loadValues (store : ArrayStore) : List Value → List Value × ArrayStore
  | [] => ([], store)
  | v :: rest =>
    let (content, store) := store.load v.content
    let (rest, store) := loadValues store rest
    (⟨v.type, content⟩ :: rest, store)

/-- Moves the lists of a test case to the store. -/
def keep (s : Session σ) (t : TestCase) : TestCase × Session σ :=
  let (values, arrays) := loadValues s.arrays t.values
  ({ t with values }, { s with arrays })

/-- The values of a test case as they are now. -/
def valuesOf (s : Session σ) (t : TestCase) : List Value :=
  t.values.map fun v => ⟨v.type, s.arrays.resolve v.content⟩

def valuesLiteral (s : Session σ) (t : TestCase) : String :=
  "[" ++ Text.join ", " ((s.valuesOf t).map (·.literal)) ++ "]"

/-- Asks a session to end before its next run. -/
def stop (s : Session σ) : Session σ :=
  { s.note (Log.warning "Ctrl-C received, stopping fuzzing after current iteration...") with
    stopped := true }

/-- Takes note of what a run has covered. -/
def learn (s : Session σ) (iteration : Nat) (r : Round) : Session σ :=
  if r.run.isInteresting s.coverage then
    let s := { s with
      coverage := r.run.merge s.coverage
      corpus := s.corpus ++ [r.test]
      stagnant := 0 }
    s.note (Log.info ("[" ++ Text.padLeft 9 ' ' (toString iteration) ++
      "] new interesting testcase (score=" ++ toString r.test.score ++ "): " ++
      s.valuesLiteral r.test ++ ", depth=" ++ toString r.test.depth ++
      ", corpus size=" ++ toString s.corpus.length ++
      ", crashes=" ++ toString s.crashes.length))
  else { s with stagnant := s.stagnant + 1 }

/-- Keeps a failing test case if its behaviour is new. -/
def record (s : Session σ) (r : Round) : Session σ :=
  if r.outcome = .ok ∨ r.signature ∈ s.signatures then s
  else
    let s := { s with
      signatures := s.signatures ++ [r.signature]
      crashes := s.crashes ++ [r.test] }
    s.note (Log.warning ("Found interesting result: " ++ r.outcome.name ++ ", for inputs " ++
      s.valuesLiteral r.test))

/-- Runs the method on a test case. -/
def execute (target : Target σ) (s : Session σ) (t : TestCase) :
    Except Fault (Query × Coverage) × Session σ :=
  let start : Concrete.Watched :=
    ⟨.ofCall target.method t.values s.arrays, some (.empty coverageSize)⟩
  let (last, halt) := runFor (Concrete.step target.program target.locate) target.maxSteps start
  let s := { s with arrays := last.state.arrays }
  match Halt.outcome halt with
  | .error e => (.error e, s)
  | .ok outcome => (.ok (outcome, last.coverage.getD (.empty coverageSize)), s)

/-- A mutant of a scheduled parent. -/
def mutant (target : Target σ) (s : Session σ) : Drawing σ TestCase := do
  let parent ← schedule target.randomness target.params s.corpus s.stagnant
  mutate target.randomness target.literals s.arrays parent

/-- Runs the method on a mutant. -/
def attempt (target : Target σ) (s : Session σ) : Except Fault Round × Session σ :=
  match s.draw (s.mutant target) with
  | (.error e, s) => (.error e, s)
  | (.ok t, s) =>
    let (t, s) := s.keep t
    match s.execute target t with
    | (.error e, s) => (.error e, s)
    | (.ok (outcome, run), s) => (.ok ⟨{ t with score := run.score }, outcome, run⟩, s)

/-- One run on a mutant, and what the session makes of it. -/
def iterate (target : Target σ) (iteration : Nat) (s : Session σ) :
    Except Fault Unit × Session σ :=
  match s.attempt target with
  | (.error e, s) => (.error e, s)
  | (.ok r, s) => (.ok (), (s.learn iteration r).record r)

/-- Runs on mutants until the budget is spent, the session is stopped or nothing new has come for long. -/
def loop (target : Target σ) : Nat → Nat → Session σ → Except Fault Unit × Session σ
  | 0, _, s => (.ok (), s)
  | budget + 1, iteration, s =>
    if s.stopped then (.ok (), s.note (Log.info "Stop requested, terminating fuzzing loop."))
    else
      match s.iterate target iteration with
      | (.error e, s) => (.error e, s)
      | (.ok (), s) =>
        if stagnationLimit ≤ s.stagnant then
          (.ok (), s.note (Log.info ("Stopping fuzzing due to " ++ toString stagnationLimit ++
            " iterations without new coverage.")))
        else loop target budget (iteration + 1) s

/-- Puts a generated test case into the corpus. -/
def plant (target : Target σ) (s : Session σ) : Except Fault Unit × Session σ :=
  match s.draw (generate target.randomness target.params) with
  | (.error e, s) => (.error e, s)
  | (.ok first, s) =>
    let (first, s) := s.keep first
    (.ok (), { s with corpus := s.corpus ++ [first] })

/-- Fuzzes for a number of runs and returns the number of cells covered. -/
def run (target : Target σ) (budget : Nat) (s : Session σ) : Except Fault Nat × Session σ :=
  match s.plant target with
  | (.error e, s) => (.error e, s)
  | (.ok (), s) =>
    match loop target budget 0 s with
    | (.error e, s) => (.error e, s)
    | (.ok (), s) => (.ok s.coverage.score, s)

/-- The distinct outcomes of the crashes, in the order of their names. -/
def outcomes (s : Session σ) : List Query :=
  Query.all.filter fun q => s.signatures.any fun (outcome, _) => outcome == q

end Session

end BytecodeBench.Fuzz
