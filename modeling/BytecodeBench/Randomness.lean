import BytecodeBench.Fault

/-!
Sources of randomness. A source is a state that draws change; every draw is either a chance, a yes
with a given probability, or a number below a bound. What is drawn is otherwise left open.
-/

namespace BytecodeBench

/-- How draws are made from a source in state `σ`. -/
structure Randomness (σ : Type) where
  chance : Float → σ → Bool × σ
  below : Nat → σ → Nat × σ
  below_lt : ∀ (bound : Nat) (source : σ), 0 < bound → (below bound source).1 < bound

/-- A computation that draws and may fail; the draws made before a failure stay made. -/
abbrev Drawing (σ : Type) := ExceptT Fault (StateM σ)

namespace Randomness

variable {σ : Type} (r : Randomness σ)

/-- Yes with the given probability. -/
def yes (probability : Float) : Drawing σ Bool := do
  let source ← get
  let (answer, source) := r.chance probability source
  set source
  return answer

/-- A number below a bound. -/
def number (bound : Nat) : Drawing σ Nat := do
  let source ← get
  let (n, source) := r.below bound source
  set source
  return n

/-- A number from the first to the last. -/
def between (first last : Int) : Drawing σ Int := do
  return first + (← r.number (last - first + 1).toNat)

/-- An item of a list that is not empty. -/
def choose {α : Type} (first : α) (rest : List α) : Drawing σ α := do
  let i ← r.number (rest.length + 1)
  return (first :: rest)[i]?.getD first

end Randomness

/-- A linear congruential generator with 64 bits of state, of which the upper 31 are drawn. -/
structure Congruential where
  state : UInt64
  deriving DecidableEq, Repr

namespace Congruential

def ofSeed (seed : Int) : Congruential := ⟨(seed % Nat.pow 2 64).toNat.toUInt64⟩

def next (g : Congruential) : Congruential :=
  ⟨g.state * 6364136223846793005 + 1442695040888963407⟩

/-- The number that a state stands for. -/
def drawn (g : Congruential) : Nat := (g.state >>> 33).toNat

/-- Draws from the generator. -/
def randomness : Randomness Congruential where
  chance probability g := (decide (g.next.drawn.toFloat / 2147483648.0 < probability), g.next)
  below bound g := (g.next.drawn % bound, g.next)
  below_lt _ _ positive := Nat.mod_lt _ positive

end Congruential

end BytecodeBench
