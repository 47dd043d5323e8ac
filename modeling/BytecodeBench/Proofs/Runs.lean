import BytecodeBench.Machine.Run

/-! Reasoning about bounded runs from what single steps do. A property of the machine, a relation
between earlier and later machines, and a simulation of one machine by another each follow from one
fact about a step, which may use what is promised of the machines that the run passes through. -/

namespace BytecodeBench

variable {M N : Type} {step : M → M × Option Halt} {start : M} {budget : Nat}

/-- A longer run goes on where a shorter one has not stopped. -/
theorem runFor_add (step : M → M × Option Halt) (first second : Nat) (m : M) :
    runFor step (first + second) m =
      match runFor step first m with
      | (reached, none) => runFor step second reached
      | stopped => stopped := by
  induction first generalizing m with
  | zero => simp [runFor]
  | succ first ih =>
    rw [Nat.add_right_comm]
    simp only [runFor]
    cases moved : step m with
    | mk after halt =>
      cases halt with
      | none => exact ih after
      | some halt => rfl

private theorem runFor_one (step : M → M × Option Halt) (m : M) : runFor step 1 m = step m := by
  cases moved : step m with
  | mk after halt => cases halt <;> simp [runFor, moved]

theorem runFor_succ (step : M → M × Option Halt) (budget : Nat) (m : M) :
    runFor step (budget + 1) m =
      match runFor step budget m with
      | (reached, none) => step reached
      | stopped => stopped := by
  rw [runFor_add]
  split
  · exact runFor_one step _
  · rfl

/-- The last step of a run, unless an earlier one stopped it. -/
theorem runFor_last {k : Nat} {after : M} {halt : Option Halt}
    (ran : runFor step (k + 1) start = (after, halt)) :
    (∃ before, runFor step k start = (before, none) ∧ step before = (after, halt)) ∨
      runFor step k start = (after, halt) := by
  rw [runFor_succ] at ran
  cases reached : runFor step k start with
  | mk before earlier =>
    cases earlier with
    | none => exact Or.inl ⟨before, rfl, by simpa [reached] using ran⟩
    | some earlier => exact Or.inr (by simpa [reached] using ran)

/-- What holds at the start and survives each step from an allowed machine holds throughout. -/
theorem run_keeps {holds allowed : M → Prop} (first : holds start)
    (kept : ∀ before after halt, holds before → allowed before → step before = (after, halt) → holds after)
    (guarded : ∀ k < budget, ∀ m, runFor step k start = (m, none) → allowed m) :
    ∀ k ≤ budget, ∀ m halt, runFor step k start = (m, halt) → holds m := by
  intro k
  induction k with
  | zero =>
    intro _ m halt ran
    cases ran
    exact first
  | succ k ih =>
    intro within m halt ran
    rcases runFor_last ran with ⟨before, reached, moved⟩ | stopped
    · exact kept before m halt (ih (by omega) before none reached) (guarded k within before reached) moved
    · exact ih (by omega) m halt stopped

/-- A relation that each step extends holds between any two machines of a run, in their order. -/
theorem run_grows {holds allowed : M → Prop} {grows : M → M → Prop} (first : holds start)
    (refl : ∀ m, grows m m) (trans : ∀ {a b c}, grows a b → grows b c → grows a c)
    (kept : ∀ before after halt, holds before → allowed before → step before = (after, halt) →
      holds after ∧ grows before after)
    (guarded : ∀ k < budget, ∀ m, runFor step k start = (m, none) → allowed m) :
    ∀ j k, j ≤ k → k ≤ budget → ∀ m n halt later,
      runFor step j start = (m, halt) → runFor step k start = (n, later) → grows m n := by
  have throughout := run_keeps first
    (fun before after halt valid allowed moved => (kept before after halt valid allowed moved).1) guarded
  -- By induction on the later of the two places; a run that has stopped stays where it is.
  intro j k order
  induction order with
  | refl =>
    intro _ m n halt later early late
    obtain ⟨rfl, -⟩ := Prod.mk.inj (early.symm.trans late)
    exact refl m
  | @step k _ ih =>
    intro within m n halt later early late
    rcases runFor_last late with ⟨before, reached, moved⟩ | stopped
    · have valid := throughout k (by omega) before none reached
      exact trans (ih (by omega) m before halt none early reached)
        (kept before n later valid (guarded k within before reached) moved).2
    · exact ih (by omega) m n halt later early stopped

/-- The right machine does what the left one does, unless that meets a fault. -/
def Follows (related : M → N → Prop) (left : M × Option Halt) (right : N × Option Halt) : Prop :=
  match left.2 with
  | some (.fault _) => True
  | some (.ended outcome) => right.2 = some (.ended outcome)
  | none => right.2 = none ∧ related left.1 right.1

theorem Follows.same {related : M → N → Prop} {left : M × Option Halt} {right : N × Option Halt}
    (same : right.2 = left.2) (holds : related left.1 right.1) : Follows related left right := by
  rcases left with ⟨m, _ | outcome | cause⟩
  · exact ⟨same, holds⟩
  · exact same
  · trivial

/-- A simulation of single steps is one of runs. -/
theorem run_follows {right : N → N × Option Halt} {other : N} {related : M → N → Prop} {allowed : M → Prop}
    (first : related start other)
    (follows : ∀ m n, related m n → allowed m → Follows related (step m) (right n))
    (guarded : ∀ k < budget, ∀ m, runFor step k start = (m, none) → allowed m) :
    ∀ k ≤ budget, Follows related (runFor step k start) (runFor right k other) := by
  intro k
  induction k with
  | zero => exact fun _ => ⟨rfl, first⟩
  | succ k ih =>
    intro within
    have sofar := ih (by omega)
    rw [runFor_succ step, runFor_succ right]
    rcases reached : runFor step k start with ⟨m, _ | outcome | cause⟩
    · simp only [reached, Follows] at sofar
      obtain ⟨running, holds⟩ := sofar
      rcases paired : runFor right k other with ⟨n, halt⟩
      rw [paired] at running holds
      cases running
      exact follows m n holds (guarded k within m reached)
    · simp only [reached, Follows] at sofar
      rcases paired : runFor right k other with ⟨n, halt⟩
      rw [paired] at sofar
      cases sofar
      rfl
    · trivial

/-- A run that simulates another one has its outcome. -/
theorem Follows.outcome {related : M → N → Prop} {left : M × Option Halt} {right : N × Option Halt}
    (follows : Follows related left right) {result : Query} (ended : Halt.outcome left.2 = .ok result) :
    Halt.outcome right.2 = .ok result := by
  rcases left with ⟨m, _ | outcome | cause⟩
  · rw [follows.1]
    exact ended
  · rw [show right.2 = some (.ended outcome) from follows]
    exact ended
  · cases ended

/-- Two machines do alike: both stop, for like reasons, or both go on and stay related. -/
structure AgreesUpTo (like : Halt → Halt → Prop) (related : M → N → Prop) (left : M × Option Halt)
    (right : N × Option Halt) : Prop where
  halts : Option.Rel like left.2 right.2
  machines : left.2 = none → related left.1 right.1

theorem AgreesUpTo.stopped {like : Halt → Halt → Prop} {related : M → N → Prop} {m : M} {n : N} {halt other : Halt}
    (alike : like halt other) : AgreesUpTo like related (m, some halt) (n, some other) := by
  refine ⟨.some alike, ?_⟩
  intro going
  cases going

section Agreement

variable {right : N → N × Option Halt} {other : N} {like : Halt → Halt → Prop} {related : M → N → Prop} {allowed : M → Prop}

/-- Agreement of single steps is one of runs. -/
theorem run_agreesUpTo (first : related start other)
    (agrees : ∀ m n, related m n → allowed m → AgreesUpTo like related (step m) (right n))
    (guarded : ∀ k < budget, ∀ m, runFor step k start = (m, none) → allowed m) :
    ∀ k ≤ budget, AgreesUpTo like related (runFor step k start) (runFor right k other) := by
  intro k
  induction k with
  | zero => exact fun _ => ⟨.none, fun _ => first⟩
  | succ k ih =>
    intro within
    have sofar := ih (by omega)
    rw [runFor_succ step, runFor_succ right]
    rcases reached : runFor step k start with ⟨m, halt⟩
    rcases paired : runFor right k other with ⟨n, later⟩
    rw [reached, paired] at sofar
    obtain ⟨alike, holds⟩ := sofar
    cases alike with
    | none => exact agrees m n (holds rfl) (guarded k within m reached)
    | some alike =>
      refine ⟨.some alike, ?_⟩
      intro running
      cases running

/-- If a step agrees exactly from allowed machines, then a run agrees exactly as long as it passes through
such machines. -/
theorem run_agreesUpTo_iff (first : related start other)
    (agrees : ∀ m n, related m n → (AgreesUpTo like related (step m) (right n) ↔ allowed m)) :
    (∀ k ≤ budget, AgreesUpTo like related (runFor step k start) (runFor right k other)) ↔
      ∀ k < budget, ∀ m, runFor step k start = (m, none) → allowed m := by
  constructor
  · intro throughout k within m reached
    obtain ⟨alike, holds⟩ := throughout k (by omega)
    have next := throughout (k + 1) within
    rw [runFor_succ step, runFor_succ right] at next
    rcases paired : runFor right k other with ⟨n, halt⟩
    rw [reached, paired] at alike holds
    cases alike
    rw [reached, paired] at next
    exact (agrees m n (holds rfl)).mp next
  · exact run_agreesUpTo first fun m n holds may => (agrees m n holds).mpr may

def Agrees (related : M → N → Prop) (left : M × Option Halt) (right : N × Option Halt) : Prop :=
  left.2 = right.2 ∧ (left.2 = none → related left.1 right.1)

private theorem agrees_iff {left : M × Option Halt} {right : N × Option Halt} :
    Agrees related left right ↔ AgreesUpTo Eq related left right := by
  obtain ⟨m, halt⟩ := left
  obtain ⟨n, later⟩ := right
  constructor
  · intro ⟨same, machines⟩
    cases same
    refine ⟨?_, machines⟩
    cases halt with
    | none => exact .none
    | some halt => exact .some rfl
  · intro ⟨halts, machines⟩
    refine ⟨?_, machines⟩
    cases halts with
    | none => rfl
    | some same => exact congrArg some same

theorem run_agrees_iff (first : related start other)
    (agrees : ∀ m n, related m n → (Agrees related (step m) (right n) ↔ allowed m)) :
    (∀ k ≤ budget, Agrees related (runFor step k start) (runFor right k other)) ↔
      ∀ k < budget, ∀ m, runFor step k start = (m, none) → allowed m := by
  simp only [agrees_iff] at agrees ⊢
  exact run_agreesUpTo_iff first agrees

end Agreement

end BytecodeBench
