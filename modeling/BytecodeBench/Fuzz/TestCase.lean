import BytecodeBench.Fuzz.Mutation

/-! Test cases: values for the parameters of a method, and how to choose among them. -/

namespace BytecodeBench

/-- The values of a call, how much its run covered, and how many mutations lie behind it. -/
structure TestCase where
  values : List Value
  score : Int := 0
  depth : Int := 0

namespace Fuzz

variable {σ : Type} (r : Randomness σ)

def generateValues : List JvmType → Drawing σ (List Value)
  | [] => return []
  | type :: rest => do
    let v ← generateValue r type
    return v :: (← generateValues rest)

/-- A new test case for the given parameters. -/
def generate (params : Parameters) : Drawing σ TestCase := do
  return { values := ← generateValues r params }

/-- A value with its array read from the store, if it is in one. -/
def readArray (store : ArrayStore) (v : Value) : Value :=
  match v.content with
  | .array handle => ⟨v.type, .list ((store.items? handle).getD [])⟩
  | _ => v

/-- Mutates one of the values, so many times. -/
def mutateValues (table : LiteralTable) (store : ArrayStore) :
    Nat → List Value → Drawing σ (List Value)
  | 0, values => return values
  | count + 1, values => do
    if values.isEmpty then throw .emptyRange
    let i ← r.number values.length
    match values[i]? with
    | none => mutateValues table store count values
    | some v =>
      let mutant ← mutateValue r table (readArray store v)
      mutateValues table store count (values.set i mutant)

/-- A mutant of a test case; values that are not mutated are shared with it. -/
def mutate (table : LiteralTable) (store : ArrayStore) (parent : TestCase) :
    Drawing σ TestCase := do
  let count ← r.between 1 8
  return {
    values := ← mutateValues r table store count.toNat parent.values
    depth := parent.depth + 1 }

/-- The score that a fifth of the test cases, counted from below, do not exceed. -/
def threshold (corpus : List TestCase) : Int :=
  let scores := (corpus.map (·.score)).mergeSort fun a b => decide (a ≤ b)
  scores[max 1 (corpus.length / 5) - 1]?.getD 0

/-- The test cases from the threshold upwards. -/
def strong (corpus : List TestCase) : List TestCase :=
  corpus.filter fun t => threshold corpus ≤ t.score

/-- The test cases below the threshold. -/
def weak (corpus : List TestCase) : List TestCase :=
  corpus.filter fun t => t.score < threshold corpus

/-- A test case of a list, if there is one. -/
def pick (tests : List TestCase) (otherwise : TestCase) : Drawing σ TestCase :=
  match tests with
  | [] => return otherwise
  | first :: rest => r.choose first rest

/-- A parent among the weak test cases, or among all if none is weak. -/
def pickUniform (params : Parameters) (corpus : List TestCase) : Drawing σ TestCase :=
  match corpus with
  | [] => generate r params
  | first :: rest =>
    match weak corpus with
    | [] => r.choose first rest
    | firstWeak :: others => r.choose firstWeak others

/-- A parent among the strong test cases, or now and then among the weak. -/
def pickExploit (params : Parameters) (corpus : List TestCase) : Drawing σ TestCase := do
  match corpus with
  | [] => generate r params
  | first :: rest =>
    let best ← pick r (strong corpus) first
    if rest.isEmpty then return best
    if ← r.yes 0.7 then return best
    pick r (weak corpus) best

/-- How long a fuzzer exploits what it has when nothing new comes. -/
def patience : Int := 100000

/-- The next parent: one to exploit, and after a long time without anything new any weak one. -/
def schedule (params : Parameters) (corpus : List TestCase) (stagnant : Int) :
    Drawing σ TestCase :=
  if stagnant ≤ patience then pickExploit r params corpus else pickUniform r params corpus

end Fuzz

end BytecodeBench
