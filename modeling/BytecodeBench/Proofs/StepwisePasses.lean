import BytecodeBench.Proofs.Passes

/-! One stepwise pass after another. The record that a pass leaves is read as the very case that failed,
since the cases of a suite are written as they are read; the next pass goes on from the first case equal
to it. -/

namespace BytecodeBench.Interpretation

namespace Pass

variable {p : Pass} {folder : Folder} {home : Path} {cases due earlier later : List Case} {c : Case}

theorem Stops.right (stops : p.Stops folder home due earlier c later) :
    ∀ x ∈ p.chosen 0 earlier, p.right folder.root x = true := by
  intro x member
  have goes := stops.goes_on x member
  simp only [goesOn, stops.stepwise, Bool.not_true, Bool.false_or, Bool.and_eq_true] at goes
  exact goes.2

/-- A program that does the same again fails first at the first of equal cases. -/
theorem first_of_equals (stops : p.Stops folder home due earlier c later)
    (clear : ∀ e ∈ earlier ++ c :: later, e.Clear (· ≠ '\r')) (deterministic : p.Deterministic) :
    ((earlier ++ c :: later).dropWhile fun e => !c.same e) = c :: later := by
  have own := clear c (by simp)
  have reflexive : c.same c = true := (own.same_iff own).mpr rfl
  have apart : ∀ e ∈ earlier, (!c.same e) = true := by
    intro e member
    rw [Bool.not_eq_true', Bool.eq_false_iff]
    intro same
    have equal : c = e := (own.same_iff (clear e (List.mem_append_left _ member))).mp same
    subst equal
    -- The earlier one was picked too, was run by the same command, and came out right.
    obtain ⟨n, place⟩ := List.mem_iff_getElem?.mp (List.mem_filter.mpr ⟨member, stops.picked⟩)
    have numbered : (c, n) ∈ p.chosen 0 earlier := List.mk_mem_zipIdx_iff_getElem?.mpr place
    have right := stops.right _ numbered
    have wrong := stops.wrong
    unfold Pass.right behaviour at right wrong
    rw [deterministic _ n] at wrong
    dsimp only at right wrong
    rw [right] at wrong
    cases wrong
  rw [List.dropWhile_append_of_pos apart, List.dropWhile_cons_of_neg (by simp [reflexive])]

section Resuming

variable (ready : Ready folder home cases) (stops : p.Stops folder home due earlier c later)
include ready stops

private theorem ready_again : Ready (p.leaves folder home) home cases := by
  rw [stops.leaves]
  constructor
  · refine Suite.readCases_congr ?_ ready.read
    rw [Folder.file?_put, if_neg (caseFile_elsewhere folder _)]
  · have place := record_place ready.free
    have located : (folder.put recordParts (written c.encode)).locate recordFile = some recordParts := place.located
    unfold Folder.isFolder
    rw [located]
    exact Folder.isFolderAt_put place.free

theorem leaves_record (clear : c.Clear (· ≠ '\r')) :
    ∃ text, (p.leaves folder home).read recordFile = .ok text ∧ Case.decode text = .ok c := by
  rw [stops.leaves]
  exact ⟨_, recorded_put ready.free clear (clear_written clear).2.2⟩

theorem resumes {q : Pass} (answering : q.Answering) (stepwise : q.stepwise = true) (clear : c.Clear (· ≠ '\r')) :
    q.Ends (p.leaves folder home) home (cases.dropWhile fun e => !c.same e) := by
  obtain ⟨text, read, decoded⟩ := leaves_record ready stops clear
  have begins : q.record (p.leaves folder home) = .ok (some c) := by
    unfold record recorded
    rw [if_pos stepwise, read]
    dsimp only
    rw [decoded]
  exact ends (ready_again ready stops) begins answering

end Resuming

/-- The record is gone after a pass exactly if that reached its end. -/
theorem unrecorded_iff (ready : Ready folder home cases) (answering : p.Answering) :
    (p.leaves folder home).file? recordFile = none ↔ (p.comesTo folder home).1 = .ok () := by
  cases begins : p.record folder with
  | error e =>
    -- A record that cannot be read ends the pass before its first case, and stays.
    have ⟨result, leaves⟩ : (p.comesTo folder home).1 = .error e ∧ p.leaves folder home = folder := record_fails begins
    have stepwise : p.stepwise = true := by
      by_contra straight
      simp [record, straight] at begins
    have there : folder.file? recordFile ≠ none := by
      refine @file?_of_recorded folder e ?_
      simpa [record, stepwise] using begins
    simp [result, leaves, there]
  | ok record =>
    rcases ends ready begins answering with finishes | ⟨earlier, c, later, stops⟩
    · simp [finishes.result, finishes.leaves, Folder.file?_remove]
    · have there : (p.leaves folder home).file? recordFile = some (written c.encode) := by
        rw [stops.leaves, Folder.file?_put, (record_place ready.free).located, if_pos rfl]
      simp [stops.result, there]

end Pass

/-- A pass, of whatever filter, runs its cases to their end, or up to the first that fails, and the record is
gone exactly in the first case. Where it stops, it leaves a record of the case that failed; the next stepwise pass goes
on from the first case equal to that one, which is where the first stopped if the program is
deterministic and the first pass had no record. -/
theorem stepwise_resumes (p : Pass) (answering : p.Answering) (folder : Folder) (home : Path) (cases : List Case)
    (ready : Ready folder home cases) :
    (∀ record, p.record folder = .ok record → p.Ends folder home (fromRecord record cases)) ∧
    ((p.leaves folder home).file? recordFile = none ↔ (p.comesTo folder home).1 = .ok ()) ∧
    ∀ record earlier c later, p.record folder = .ok record →
      p.Stops folder home (fromRecord record cases) earlier c later →
      (∃ text d, (p.leaves folder home).read recordFile = .ok text ∧ Case.decode text = .ok d ∧ d.same c = true) ∧
      (∀ q : Pass, q.Answering → q.stepwise = true →
        q.Ends (p.leaves folder home) home (cases.dropWhile fun e => !c.same e)) ∧
      (record = none → p.Deterministic →
        cases = earlier ++ c :: later ∧ (cases.dropWhile fun e => !c.same e) = c :: later) := by
  have clear := Suite.readCases_clear ready.read
  refine ⟨fun record begins => Pass.ends ready begins answering, Pass.unrecorded_iff ready answering, ?_⟩
  intro record earlier c later begins stops
  have member : c ∈ fromRecord record cases := by
    rw [stops.split]
    simp
  have own := clear c (Pass.fromRecord_subset record cases member)
  refine ⟨?_, fun q answers stepwise => Pass.resumes ready stops answers stepwise own, ?_⟩
  · obtain ⟨text, read, decoded⟩ := Pass.leaves_record ready stops own
    exact ⟨text, c, read, decoded, (own.same_iff own).mpr rfl⟩
  · rintro rfl deterministic
    have split : cases = earlier ++ c :: later := stops.split
    refine ⟨split, ?_⟩
    rw [split] at clear ⊢
    exact Pass.first_of_equals stops clear deterministic

def Pass.ofProgram (stepwise : Bool) (admits : String → Bool) (behave : List String → Behaviour) : Pass where
  outside := {
    behaviour := fun _ command => some (behave command)
    tick := fun _ => 0
    prime := fun _ => none
    interpreter := "python"
    find := fun _ => none
    readFilter := fun _ => .ok ⟨admits⟩ }
  given := { settings := [("stepwise", .switch stepwise), ("filter", .text "condition")], words := ["prog"] }
  filter := some ⟨admits⟩
  behave := fun _ => behave
  checked := rfl
  filtered := rfl
  printed := rfl
  named := List.cons_ne_nil _ _
  starts := fun _ _ => rfl

def folderOf (cases : String) : Folder where
  root := ⟨true, ["work"]⟩
  entries := [(["target", "stats", "cases.txt"], .file cases)]

def caseOf (name result : String) : Case := ⟨⟨⟨"a.B"⟩, ⟨name, [], none⟩⟩, ⟨[]⟩, result⟩

/-- Cases of which the last is equal to the first. -/
def fourCases : List Case := [caseOf "m" "ok", caseOf "k" "ok", caseOf "n" "ok", caseOf "m" "ok"]

def fourLines : Folder :=
  folderOf "a.B.m:()V () -> ok\na.B.k:()V () -> ok\na.B.n:()V () -> ok\na.B.m:()V () -> ok\n"

/-- A program that fails on one method. The case of another one does not pass the filter. -/
def failingOn (method : String) : Pass :=
  .ofProgram true (· ≠ "a.B.k:() -> ok") fun command =>
    if method ∈ command then { out := "assertion error\n" } else { out := "ok\n" }

theorem failingOn_answering (method : String) : (failingOn method).Answering := by
  have answers (command : List String) :
      (if method ∈ command then { out := "assertion error\n" } else { out := "ok\n" } : Behaviour).Answers := by
    split <;> decide
  exact fun _ command => answers command

/-- The second case that is picked fails, and the next pass starts there. -/
theorem failingOn_resumed :
    Ready fourLines fourLines.root fourCases ∧
    (failingOn "a.B.n:()V").Stops fourLines fourLines.root fourCases [caseOf "m" "ok", caseOf "k" "ok"]
      (caseOf "n" "ok") [caseOf "m" "ok"] ∧
    (failingOn "a.B.m:()V").Ends ((failingOn "a.B.n:()V").leaves fourLines fourLines.root) fourLines.root
      [caseOf "n" "ok", caseOf "m" "ok"] := by
  have ready : Ready fourLines fourLines.root fourCases := ⟨by with_unfolding_all rfl, by decide⟩
  have goes : ∀ x ∈ [(caseOf "m" "ok", 0)], (failingOn "a.B.n:()V").goesOn fourLines.root x = true :=
    List.forall_mem_singleton.mpr (by with_unfolding_all rfl)
  have fails : (failingOn "a.B.n:()V").right fourLines.root (caseOf "n" "ok", 1) = false := by with_unfolding_all rfl
  have chosen : (failingOn "a.B.n:()V").chosen 0 [caseOf "m" "ok", caseOf "k" "ok"] = [(caseOf "m" "ok", 0)] := by
    with_unfolding_all rfl
  have begins : (failingOn "a.B.n:()V").record fourLines = .ok none := rfl
  have stops : (failingOn "a.B.n:()V").Stops fourLines fourLines.root fourCases [caseOf "m" "ok", caseOf "k" "ok"]
      (caseOf "n" "ok") [caseOf "m" "ok"] := by
    refine Pass.stops_at ready.read begins rfl (by with_unfolding_all rfl) ?_ ready.free rfl (failingOn_answering _ _ _) ?_
    · rw [chosen]
      exact goes
    · rw [chosen]
      exact fails
  obtain ⟨-, -, resumes⟩ := stepwise_resumes (failingOn "a.B.n:()V") (failingOn_answering _) fourLines fourLines.root
    fourCases ready
  obtain ⟨-, next, first⟩ := resumes none _ _ _ begins stops
  have again := next (failingOn "a.B.m:()V") (failingOn_answering _) rfl
  rw [(first rfl fun _ _ _ => rfl).2] at again
  exact ⟨ready, stops, again⟩

def overdueProgram : Pass := .ofProgram false (fun _ => true) fun _ => { out := "ok\n", overdue := true }

def overdueLine : Folder := folderOf "a.B.m:()V () -> *\n"

/-- A run that is overdue counts as right where that is expected, whatever its last line says. -/
theorem overdue_counts_as_right :
    Ready overdueLine overdueLine.root [caseOf "m" "*"] ∧
    (∀ n command, lastLine (overdueProgram.behave n command).out = .ok "ok") ∧
    (∃ text, (overdueProgram.comesTo overdueLine overdueLine.root).2.out = text ++ "Total 1/1\n") ∧
    ¬∃ text, (overdueProgram.comesTo overdueLine overdueLine.root).2.out = text ++ "Total 0/1\n" := by
  have ready : Ready overdueLine overdueLine.root [caseOf "m" "*"] := ⟨by with_unfolding_all rfl, by decide⟩
  have begins : overdueProgram.record overdueLine = .ok none := rfl
  have goes : ∀ x ∈ [(caseOf "m" "*", 0)], overdueProgram.goesOn overdueLine.root x = true :=
    List.forall_mem_singleton.mpr (by with_unfolding_all rfl)
  have line : overdueProgram.totalLine overdueLine.root (overdueProgram.chosen 0 (fromRecord none [caseOf "m" "*"])) ++
      "\n" = "Total 1/1\n" := by with_unfolding_all rfl
  have filled : Text.lines "ok\n" ≠ [] := by decide
  have last : Text.strip ((Text.lines "ok\n").getLastD "") = "ok" := by decide +kernel
  obtain ⟨text, told⟩ := (Pass.finishes_of_goes_on ready.read begins ready.free goes).total
  rw [line] at told
  refine ⟨ready, fun _ _ => (lastLine_eq filled).trans (congrArg Except.ok last), ⟨text, told⟩, ?_⟩
  rintro ⟨other, same⟩
  have long : "Total 1/1\n".toList.length = "Total 0/1\n".toList.length := by decide
  have apart : "Total 1/1\n".toList ≠ "Total 0/1\n".toList := by decide
  rw [told] at same
  have ends := congrArg String.toList same
  rw [String.toList_append, String.toList_append] at ends
  exact apart (List.append_inj' ends long).2

end BytecodeBench.Interpretation
