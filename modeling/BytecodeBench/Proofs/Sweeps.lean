import BytecodeBench.Proofs.StepwisePasses

/-! Sweeps: passes that are not stepwise. A program that is late or fails has answered, and so has one that prints
anything. One that succeeds and prints nothing has not, and ends the sweep: the cases after it are not run and there is
no total. -/

namespace BytecodeBench.Interpretation

namespace Pass

variable {p : Pass} {root : Path} {folder : Folder} {home : Path} {cases : List Case}

variable (p) in
def Answered (root : Path) (xs : List (Case × Nat)) : Prop := ∀ x ∈ xs, (p.behaviour root x).Answers

section Straight

variable (straight : p.stepwise = false)
include straight

/-- A sweep goes on from every program that answers. -/
theorem goesOn_iff {x : Case × Nat} : p.goesOn root x = true ↔ (p.behaviour root x).Answers := by
  simp [goesOn, straight]

theorem goes_on_iff_answered {xs : List (Case × Nat)} :
    (∀ x ∈ xs, p.goesOn root x = true) ↔ p.Answered root xs :=
  forall₂_congr fun _ _ => goesOn_iff straight

theorem record_straight : p.record folder = .ok none := by simp [record, straight]

variable (read : Suite.readCases folder (Suite.caseFile { folder, home }) = .ok cases)
include read

theorem completes (answered : p.Answered folder.root (p.chosen 0 cases)) (free : folder.isFolder recordFile = false) :
    p.Completes folder home cases :=
  (finishes_of_goes_on read (record_straight straight) free ((goes_on_iff_answered straight).mpr answered)).toCompletes

theorem breaks_off (unanswered : ¬p.Answered folder.root (p.chosen 0 cases)) :
    ∃ earlier c later, p.BreaksOff folder home cases earlier c later := by
  rw [← goes_on_iff_answered straight] at unanswered
  obtain ⟨earlier, c, later, split, goes, picked, stops⟩ := (p.exists_first folder.root 0 cases).resolve_left unanswered
  rw [← Bool.not_eq_true, goesOn_iff straight, Nat.zero_add] at stops
  exact ⟨earlier, c, later, breaks_off_at read (record_straight straight) split picked goes stops⟩

end Straight
end Pass

/-- A sweep, of whatever filter, goes through all selected cases and tells their total exactly if each of their programs
answers, and no folder stands where the record goes. Else it breaks off at the first that does not answer. -/
theorem sweep_completes_iff_answered (p : Pass) (straight : p.stepwise = false) (folder : Folder) (home : Path)
    (cases : List Case) (read : Suite.readCases folder (Suite.caseFile { folder, home }) = .ok cases) :
    (p.Completes folder home cases ↔
      p.Answered folder.root (p.chosen 0 cases) ∧ folder.isFolder recordFile = false) ∧
    (¬p.Answered folder.root (p.chosen 0 cases) → ∃ earlier c later, p.BreaksOff folder home cases earlier c later) := by
  refine ⟨⟨?_, ?_⟩, Pass.breaks_off straight read⟩
  · intro completes
    have done := completes.result
    by_cases answered : p.Answered folder.root (p.chosen 0 cases)
    · refine ⟨answered, Bool.eq_false_iff.mpr ?_⟩
      intro filled
      rw [Pass.blocked read (Pass.record_straight straight) filled ((Pass.goes_on_iff_answered straight).mpr answered)]
        at done
      cases done
    · obtain ⟨earlier, c, later, off⟩ := Pass.breaks_off straight read answered
      rw [off.result] at done
      cases done
  · rintro ⟨answered, free⟩
    exact Pass.completes straight read answered free

/-- A program that is late on one method and fails on all others, after it has printed nothing. A case of a third method
does not pass the filter. -/
def troubled : Pass :=
  .ofProgram false (· ≠ "a.B.k:() -> ok") fun command =>
    if "a.B.m:()V" ∈ command then { overdue := true } else { exit := 3 }

def troubledLines : Folder := folderOf "a.B.m:()V () -> *\na.B.k:()V () -> ok\na.B.n:()V () -> ok\n"

theorem troubled_completes :
    Suite.readCases troubledLines (Suite.caseFile { folder := troubledLines }) =
      .ok [caseOf "m" "*", caseOf "k" "ok", caseOf "n" "ok"] ∧
    troubled.chosen 0 [caseOf "m" "*", caseOf "k" "ok", caseOf "n" "ok"] = [(caseOf "m" "*", 0), (caseOf "n" "ok", 1)] ∧
    troubled.Completes troubledLines troubledLines.root [caseOf "m" "*", caseOf "k" "ok", caseOf "n" "ok"] := by
  have read : Suite.readCases troubledLines (Suite.caseFile { folder := troubledLines }) =
      .ok [caseOf "m" "*", caseOf "k" "ok", caseOf "n" "ok"] := by with_unfolding_all rfl
  have chosen : troubled.chosen 0 [caseOf "m" "*", caseOf "k" "ok", caseOf "n" "ok"] =
      [(caseOf "m" "*", 0), (caseOf "n" "ok", 1)] := by with_unfolding_all rfl
  have late : troubled.behaviour troubledLines.root (caseOf "m" "*", 0) = { overdue := true } := by
    with_unfolding_all rfl
  have fails : troubled.behaviour troubledLines.root (caseOf "n" "ok", 1) = { exit := 3 } := by
    with_unfolding_all rfl
  obtain ⟨completes, -⟩ := sweep_completes_iff_answered troubled rfl troubledLines troubledLines.root _ read
  refine ⟨read, chosen, completes.mpr ⟨?_, by decide⟩⟩
  rw [chosen]
  refine List.forall_mem_cons.mpr ⟨?_, List.forall_mem_singleton.mpr ?_⟩
  · rw [late]
    decide
  · rw [fails]
    decide

def silent : Pass := .ofProgram false (fun _ => true) fun _ => {}

def silentLines : Folder := folderOf "a.B.m:()V () -> ok\n"

theorem silent_breaks_off :
    Suite.readCases silentLines (Suite.caseFile { folder := silentLines }) = .ok [caseOf "m" "ok"] ∧
    ¬silent.Completes silentLines silentLines.root [caseOf "m" "ok"] := by
  have read : Suite.readCases silentLines (Suite.caseFile { folder := silentLines }) = .ok [caseOf "m" "ok"] := by
    with_unfolding_all rfl
  have off := @Pass.breaks_off_at silent (caseOf "m" "ok") silentLines silentLines.root _ none read rfl [] [] rfl rfl
    (List.forall_mem_nil _) (by decide)
  refine ⟨read, ?_⟩
  intro completes
  have done := completes.result
  rw [off.result] at done
  cases done

end BytecodeBench.Interpretation
