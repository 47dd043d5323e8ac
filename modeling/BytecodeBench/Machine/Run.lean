import BytecodeBench.Machine.State

/-! Running a machine for a bounded number of steps. -/

namespace BytecodeBench

variable {M : Type}

/-- Steps until the machine stops or the budget is spent. -/
def runFor (step : M → M × Option Halt) : Nat → M → M × Option Halt
  | 0, m => (m, none)
  | budget + 1, m =>
    match step m with
    | (m, none) => runFor step budget m
    | stopped => stopped

/-- What each step of a bounded run leads to. -/
def trajectory (step : M → M × Option Halt) : Nat → M → List (M × Option Halt)
  | 0, _ => []
  | budget + 1, m =>
    match step m with
    | (m, none) => (m, none) :: trajectory step budget m
    | stopped => [stopped]

/-- The outcome of a bounded run: `unresolved` if nothing stopped it. -/
def Halt.outcome : Option Halt → Except Fault Query
  | none => .ok .unresolved
  | some (.ended outcome) => .ok outcome
  | some (.fault cause) => .error cause

end BytecodeBench
