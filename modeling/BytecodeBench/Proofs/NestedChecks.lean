import BytecodeBench.Check

/-! Checks within checks. A failed condition rises through the checks that fail fast and is noted by each of them, up to
the first check that does not: it keeps the failure to itself, and to the checks around it all is well. A fault of
another kind rises through all of them unnoted. -/

namespace BytecodeBench

variable {σ : Type}

def Noted.noting (n : Noted σ) (entries : Log) : Noted σ := { n with log := n.log ++ entries }

@[simp] theorem Noted.noting_nil (n : Noted σ) : n.noting [] = n := by
  simp [noting]

@[simp] theorem Noted.noting_noting (n : Noted σ) (first second : Log) :
    (n.noting first).noting second = n.noting (first ++ second) := by
  simp [noting]

theorem Noting.run_bind {α β : Type} {x : Noting σ α} {a : α} {n after : Noted σ} (f : α → Noting σ β)
    (ran : x.run.run n = (.ok a, after)) : (x >>= f).run.run n = (f a).run.run after := by
  rw [ExceptT.run_bind, StateT.run_bind, ran]
  rfl

theorem Noting.run_lift {α : Type} {x : Noting σ α} {result : Except Fault α} {n after : Noted σ}
    (ran : x.run.run n = (result, after)) : (ExceptT.lift x.run : Noting σ _).run.run n = (.ok result, after) := by
  rw [ExceptT.run_lift, StateT.run_map, ran]
  rfl

namespace Check

/-! What is noted. -/

def begun (reason : String) : LogEntry := Log.info reason

def passed (reason : String) : LogEntry := Log.success (reason ++ " ok")

def failed (reason : String) (e : Fault) : LogEntry :=
  Log.error (reason ++ " FAILED" ++ if e.message.isEmpty then "" else ": " ++ e.message)

/-- What a check that fails fast makes of a failed condition. -/
def escalated (reason : String) (e : Fault) : Fault := .ofArguments [.text (reason ++ " " ++ e.argumentsLiteral)]

/-! One check. -/

variable {reason : String} {failFast : Bool} {step : Noting σ Unit} {n after : Noted σ} {e : Fault}

private theorem run_begun (reason : String) (n : Noted σ) :
    (Noting.note (begun reason)).run.run n = (.ok (), n.noting [begun reason]) := rfl

private theorem run_ok (ran : step.run.run (n.noting [begun reason]) = (.ok (), after)) :
    (check reason failFast step).run.run n = (.ok (), after.noting [passed reason]) :=
  (Noting.run_bind _ (run_begun reason n)).trans (Noting.run_bind _ (Noting.run_lift ran))

private theorem run_error (failFast : Bool) (ran : step.run.run (n.noting [begun reason]) = (.error e, after)) :
    (check reason failFast step).run.run n = (if e.kind = .violated then do
      Noting.note (failed reason e)
      if failFast then throw (escalated reason e)
    else throw e : Noting σ Unit).run.run after :=
  (Noting.run_bind _ (run_begun reason n)).trans (Noting.run_bind _ (Noting.run_lift ran))

private theorem run_other (ran : step.run.run (n.noting [begun reason]) = (.error e, after))
    (other : e.kind ≠ .violated) :
    (check reason failFast step).run.run n = (.error e, after) := by
  rw [run_error failFast ran, if_neg other]
  rfl

/-- A check that fails fast hands the failure on, and any other one stops it. -/
theorem run_failed (failFast : Bool) (ran : step.run.run (n.noting [begun reason]) = (.error e, after))
    (violated : e.kind = .violated) :
    (check reason failFast step).run.run n =
      (if failFast then .error (escalated reason e) else .ok (), after.noting [failed reason e]) := by
  rw [run_error failFast ran, if_pos violated]
  cases failFast <;> rfl

/-! Nested checks. -/

/-- The fault that has risen through checks that fail fast, the outermost first. -/
def risen (reasons : List String) (e : Fault) : Fault := reasons.foldr escalated e

/-- How the checks are noted that a failed condition rises through, the innermost first. -/
def failures : List String → Fault → Log
  | [], _ => []
  | reason :: inner, e => failures inner e ++ [failed reason (risen inner e)]

/-- The arguments of the fault that has risen, in writing: at each check they become part of the only argument. -/
def foldedArguments (reasons : List String) (arguments : String) : String :=
  reasons.foldr (fun reason inside => "(" ++ Text.quoted (reason ++ " " ++ inside) ++ ",)") arguments

theorem risen_violated (violated : e.kind = .violated) (reasons : List String) : (risen reasons e).kind = .violated := by
  cases reasons with
  | nil => exact violated
  | cons reason inner => rfl

private theorem argumentsLiteral_risen (reasons : List String) (e : Fault) :
    (risen reasons e).argumentsLiteral = foldedArguments reasons e.argumentsLiteral := by
  induction reasons with
  | nil => rfl
  | cons reason inner ih =>
    have only : (risen (reason :: inner) e).argumentsLiteral =
      "(" ++ Text.quoted (reason ++ " " ++ (risen inner e).argumentsLiteral) ++ ",)" := rfl
    rw [only, ih]
    rfl

private theorem message_risen (reason : String) (inner : List String) (e : Fault) :
    (risen (reason :: inner) e).message = reason ++ " " ++ foldedArguments inner e.argumentsLiteral := by
  rw [← argumentsLiteral_risen]
  rfl

variable {checks outer inner : List (String × Bool)}

def opening (checks : List (String × Bool)) : Log := checks.map fun c => begun c.1

def closing (checks : List (String × Bool)) : Log := (checks.map fun c => passed c.1).reverse

private theorem closing_cons (c : String × Bool) (checks : List (String × Bool)) :
    closing (c :: checks) = closing checks ++ [passed c.1] := List.reverse_cons

private theorem all_ok (ran : step.run.run (n.noting (opening checks)) = (.ok (), after)) :
    (checkAll step checks).run.run n = (.ok (), after.noting (closing checks)) := by
  induction checks generalizing n with
  | nil => simpa [opening, closing, checkAll] using ran
  | cons c checks ih =>
    have within := ih (n := n.noting [begun c.1]) (by simpa [opening] using ran)
    rw [closing_cons, ← Noted.noting_noting]
    exact run_ok within

private theorem all_other (ran : step.run.run (n.noting (opening checks)) = (.error e, after))
    (other : e.kind ≠ .violated) :
    (checkAll step checks).run.run n = (.error e, after) := by
  induction checks generalizing n with
  | nil => simpa [opening, checkAll] using ran
  | cons c checks ih =>
    have within := ih (n := n.noting [begun c.1]) (by simpa [opening] using ran)
    exact run_other within other

private theorem all_rising (ran : step.run.run (n.noting (opening checks)) = (.error e, after))
    (violated : e.kind = .violated)
    (fast : ∀ c ∈ checks, c.2 = true) :
    (checkAll step checks).run.run n =
      (.error (risen (checks.map Prod.fst) e), after.noting (failures (checks.map Prod.fst) e)) := by
  induction checks generalizing n with
  | nil => simpa [opening, failures, risen, checkAll] using ran
  | cons c checks ih =>
    obtain ⟨reason, failFast⟩ := c
    obtain ⟨rfl, others⟩ := List.forall_mem_cons.mp fast
    have within := ih (n := n.noting [begun reason]) (by simpa [opening] using ran) others
    have rising := run_failed true within (risen_violated violated _)
    rw [if_pos rfl, Noted.noting_noting] at rising
    exact rising

/-- The innermost check that does not fail fast stops what rises to it. -/
theorem all_stopped {reason : String}
    (ran : step.run.run (n.noting (opening (outer ++ (reason, false) :: inner))) = (.error e, after))
    (violated : e.kind = .violated) (fast : ∀ c ∈ inner, c.2 = true) :
    (checkAll step (outer ++ (reason, false) :: inner)).run.run n =
      (.ok (), after.noting (failures (reason :: inner.map Prod.fst) e ++ closing outer)) := by
  induction outer generalizing n with
  | nil =>
    -- Inside, the failure rises through all checks; this one is the first that does not hand it on.
    have within := all_rising (n := n.noting [begun reason]) (by simpa [opening] using ran) violated fast
    have stopped := run_failed false within (risen_violated violated _)
    rw [if_neg Bool.false_ne_true, Noted.noting_noting] at stopped
    simpa [failures, closing, checkAll] using stopped
  | cons c outer ih =>
    have within := ih (n := n.noting [begun c.1]) (by simpa [opening] using ran)
    rw [closing_cons, ← List.append_assoc, ← Noted.noting_noting]
    exact run_ok within

/-- Nested checks come to what their step comes to, but for a failed condition that one of them keeps to itself. -/
theorem nested_checks_settle {checks : List (String × Bool)} {step : Noting σ Unit} {n after : Noted σ}
    {result : Except Fault Unit} (ran : step.run.run (n.noting (opening checks)) = (result, after)) :
    (result = .ok () → (checkAll step checks).run.run n = (.ok (), after.noting (closing checks))) ∧
    (∀ e, result = .error e → e.kind = .violated →
      (∀ outer reason inner, checks = outer ++ (reason, false) :: inner → (∀ c ∈ inner, c.2 = true) →
        (checkAll step checks).run.run n =
          (.ok (), after.noting (failures (reason :: inner.map Prod.fst) e ++ closing outer))) ∧
      ((∀ c ∈ checks, c.2 = true) → ∃ escaped : Fault, escaped.kind = .violated ∧
        (checkAll step checks).run.run n = (.error escaped, after.noting (failures (checks.map Prod.fst) e)) ∧
        ∀ outermost inner, checks.map Prod.fst = outermost :: inner →
          escaped.message = outermost ++ " " ++ foldedArguments inner e.argumentsLiteral)) ∧
    ∀ e, result = .error e → e.kind ≠ .violated → (checkAll step checks).run.run n = (.error e, after) := by
  refine ⟨?_, ?_, ?_⟩
  · rintro rfl
    exact all_ok ran
  · rintro e rfl violated
    refine ⟨?_, ?_⟩
    · rintro outer reason inner rfl fast
      exact all_stopped ran violated fast
    · intro fast
      refine ⟨_, risen_violated violated _, all_rising ran violated fast, ?_⟩
      intro outermost inner reasons
      rw [reasons]
      exact message_risen outermost inner e
  · rintro e rfl other
    exact all_other ran other

def sampleChecks : List (String × Bool) := [("The tools", true), ("The path", false), ("docker", true)]

theorem sampleChecks_settle :
    (checkAll (demand false "java not on path") sampleChecks).execute () = (.ok (), { state := (), log := [
      Log.info "The tools", Log.info "The path", Log.info "docker",
      Log.error "docker FAILED: java not on path",
      Log.error "The path FAILED: docker ('java not on path',)",
      Log.success "The tools ok"] }) := by
  have ran : (demand (σ := Unit) false "java not on path").run.run (Noted.noting { state := () } (opening sampleChecks)) =
    (.error (.ofArguments [.text "java not on path"]), Noted.noting { state := () } (opening sampleChecks)) := rfl
  obtain ⟨-, violated, -⟩ := nested_checks_settle ran
  exact (violated _ rfl rfl).1 [("The tools", true)] "The path" [("docker", true)] rfl (by decide)

end Check
end BytecodeBench
