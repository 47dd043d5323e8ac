import BytecodeBench.CommandLine.Entry
import BytecodeBench.Proofs.CaseFiles
import BytecodeBench.Proofs.Deskwork

/-! Passes over a suite. A pass runs the cases that it picks, in their order, each with a program of its
own, from its record on. It reaches the end, tells how many answers were right and removes the record; or,
stepwise, it stops at the first wrong answer and records the case; or it breaks off at a program that says
nothing. Nothing else in its folder changes. -/

namespace BytecodeBench

def Behaviour.answer (behaviour : Behaviour) : String :=
  if behaviour.overdue then "*"
  else if behaviour.exit ≠ 0 then "failure"
  else Text.strip ((Text.lines behaviour.out).getLastD "")

/-- A program that succeeds prints a line. -/
def Behaviour.Answers (behaviour : Behaviour) : Prop :=
  behaviour.overdue = false → behaviour.exit = 0 → Text.lines behaviour.out ≠ []

namespace Interpretation

open Work

/-! The record. -/

def recordParts : List String := [".jpamb-stepwise"]

/-- What divides the text of a case is kept in a file. -/
theorem format_kept : ∀ d ∈ formatChars ++ Case.divisions, d ≠ '\r' := Text.forall_of_all (by decide)

private theorem recordFile_eq : recordFile = ⟨false, recordParts⟩ := by decide

theorem record_place {f : Folder} (free : f.isFolder recordFile = false) : f.Place recordFile recordParts := by
  obtain ⟨parts, located⟩ : ∃ parts, f.locate recordFile = some parts := by
    unfold Folder.locate
    split
    · exact ⟨_, rfl⟩
    · rw [recordFile_eq]
      exact ⟨_, rfl⟩
  have unfilled : f.isFolderAt parts = false := by simpa [Folder.isFolder, located] using free
  -- An end of the one part that is not the folder itself is that part.
  have whole : parts = recordParts := by
    have ending := Folder.locate_suffix located
    rw [recordFile_eq] at ending
    rcases List.suffix_cons_iff.mp ending with same | none
    · exact same
    · exact absurd (List.suffix_nil.mp none) (Folder.isFolderAt_eq_false.mp unfilled).1
  subst whole
  exact ⟨located, unfilled, rfl⟩

theorem caseFile_elsewhere (f : Folder) (s : Suite) : f.locate s.caseFile ≠ some recordParts := by
  intro located
  have ending := Folder.locate_suffix located
  rw [s.caseFile_parts] at ending
  have last := List.suffix_iff_eq_append.mp ending
  have names := congrArg List.getLast? last
  simp [recordParts] at names

def recorded (folder : Folder) : Except Fault (Option Case) :=
  match folder.read recordFile with
  | .error _ => .ok none
  | .ok content =>
    match Case.decode content with
    | .ok c => .ok (some c)
    | .error e => if e.kind = .malformed then .ok none else .error e

private theorem readRecord_takes {d : Desk} : Takes readRecord d (· = recorded d.suite.folder) d := by
  unfold readRecord recorded
  refine suite_takes.next ?_
  cases d.suite.folder.read recordFile with
  | error e => exact .pure rfl
  | ok content =>
    dsimp only
    cases Case.decode content with
    | ok c => exact .pure rfl
    | error e =>
      dsimp only
      split
      · exact (note_quiet _ d).next (.pure rfl)
      · exact .throw rfl

theorem file?_of_recorded {folder : Folder} {e : Fault} (fails : recorded folder = .error e) :
    folder.file? recordFile ≠ none := by
  intro absent
  have unread : ∃ cause, folder.read recordFile = .error cause := by
    unfold Folder.read Folder.readExact
    rw [absent]
    exact ⟨_, rfl⟩
  obtain ⟨cause, unread⟩ := unread
  unfold recorded at fails
  rw [unread] at fails
  cases fails

theorem recorded_put {folder : Folder} {c : Case} {text : String} (free : folder.isFolder recordFile = false)
    (clear : c.Clear (· ≠ '\r')) (encoded : c.encode = .ok text) :
    (folder.put recordParts text).read recordFile = .ok text ∧ Case.decode text = .ok c := by
  obtain ⟨_, written, -, same, plain, decoded⟩ := clear.encode format_kept
  cases encoded.symm.trans same
  refine ⟨Folder.read_of_file? ?_ fun member => plain _ member rfl, decoded⟩
  rw [Folder.file?_put, (record_place free).located, if_pos rfl]

/-! Passes. -/

/-- A call of the command whose report is printed and whose programs can be started. Its filter is whatever
condition the filter's text is read as. -/
structure Pass where
  outside : Outside
  given : CommandLine.Given
  filter : Option Filter
  behave : Nat → List String → Behaviour
  checked : given.check (CommandLine.checkShared outside) = .ok ()
  filtered : Filter.readAsked outside.readFilter (given.text? "filter") = .ok filter
  printed : CommandLine.reportFile given = none
  named : given.words ≠ []
  starts : ∀ n command, outside.behaviour n command = some (behave n command)

structure Ready (folder : Folder) (home : Path) (cases : List Case) : Prop where
  read : Suite.readCases folder (Suite.caseFile { folder, home }) = .ok cases
  free : folder.isFolder recordFile = false

/-- A text that something has; all cases of suites have theirs. -/
def written (text : Except Fault String) : String := text.toOption.getD ""

/-! Answers. -/

instance (behaviour : Behaviour) : Decidable behaviour.Answers :=
  inferInstanceAs (Decidable (behaviour.overdue = false → behaviour.exit = 0 → Text.lines behaviour.out ≠ []))

def reply (behaviour : Behaviour) : Except Fault String :=
  if behaviour.Answers then .ok behaviour.answer else .error .badIndex

section Answering

variable {c : Case}

theorem clear_written (clear : c.Clear (· ≠ '\r')) :
    c.input.encode = .ok (written c.input.encode) ∧ c.display = .ok (written c.display) ∧
      c.encode = .ok (written c.encode) := by
  obtain ⟨input, text, encoded, whole, -⟩ := clear.encode format_kept
  have shown : ∃ title, c.display = .ok title := by
    unfold Case.display
    rw [encoded]
    exact ⟨_, rfl⟩
  obtain ⟨title, shown⟩ := shown
  rw [encoded, whole, shown]
  exact ⟨rfl, rfl, rfl⟩

theorem lastLine_eq {out : String} (filled : Text.lines out ≠ []) :
    lastLine out = .ok (Text.strip ((Text.lines out).getLastD "")) := by
  unfold lastLine
  rw [List.getLastD_eq_getLast?, List.getLast?_eq_some_getLast filled]
  rfl

private theorem lastLine_of_none {out : String} (empty : Text.lines out = []) : lastLine out = .error .badIndex := by
  unfold lastLine
  rw [empty]
  rfl

/-- A program is started once for a case, and what it answers is known unless it says nothing. -/
theorem answer_replies {outside : Outside} {command : List String} {d : Desk} {behaviour : Behaviour}
    (known : outside.behaviour d.started (command ++ [c.method.encode, written c.input.encode]) = some behaviour)
    (clear : c.Clear (· ≠ '\r')) :
    Takes (answer outside command c) d (· = reply behaviour)
      (d.ran (command ++ [c.method.encode, written c.input.encode]) behaviour) := by
  have attempted : Takes (attempt (runReported outside (command ++ [c.method.encode, written c.input.encode]))) d
      (· = .ok (behaviour.ending (command ++ [c.method.encode, written c.input.encode])))
      (d.ran (command ++ [c.method.encode, written c.input.encode]) behaviour) :=
    (runReported_takes known).attempt fun _ same => congrArg Except.ok same
  unfold answer
  refine (Takes.lift (clear_written clear).1).next (attempted.next ?_)
  unfold Behaviour.ending
  by_cases late : behaviour.overdue = true
  · rw [if_pos late]
    apply Takes.pure
    simp [reply, Behaviour.Answers, Behaviour.answer, late]
  · rw [if_neg late]
    by_cases failed : behaviour.exit ≠ 0
    · rw [if_pos failed]
      refine (note_quiet _ _).next (.pure ?_)
      simp [reply, Behaviour.Answers, Behaviour.answer, late, failed]
    · rw [if_neg failed]
      apply Takes.lift
      by_cases empty : Text.lines behaviour.out = []
      · rw [lastLine_of_none empty]
        simp [reply, Behaviour.Answers, late, failed, empty]
      · rw [lastLine_eq empty]
        simp [reply, Behaviour.Answers, Behaviour.answer, late, failed, empty]

end Answering

namespace Pass

variable (p : Pass)

def stepwise : Bool := p.given.switch? "stepwise" == some true

def comesTo (folder : Folder) (home : Path) : Except Fault Unit × Workbench :=
  ((CommandLine.interpretCommand p.outside).carryOut p.given).execute { suite := { folder, home } }

def leaves (folder : Folder) (home : Path) : Folder := (p.comesTo folder home).2.suite.folder

def command (root : Path) : List String := launched p.outside (p.given.switch? "interpreter") p.given.words root

def words (root : Path) (c : Case) : List String := p.command root ++ [c.method.encode, written c.input.encode]

def picks (c : Case) : Bool := Filter.passes p.filter (written c.display)

def chosen (n : Nat) (cases : List Case) : List (Case × Nat) := (cases.filter p.picks).zipIdx n

def behaviour (root : Path) (x : Case × Nat) : Behaviour := p.behave x.2 (p.words root x.1)

def right (root : Path) (x : Case × Nat) : Bool := x.1.result == (p.behaviour root x).answer

def goesOn (root : Path) (x : Case × Nat) : Bool :=
  decide (p.behaviour root x).Answers && (!p.stepwise || p.right root x)

def calls (root : Path) (xs : List (Case × Nat)) : List String :=
  xs.flatMap fun x => (p.behaviour root x).calls (p.words root x.1)

def record (folder : Folder) : Except Fault (Option Case) := if p.stepwise then recorded folder else .ok none

def Deterministic : Prop := ∀ m n command, p.behave m command = p.behave n command

def totalLine (root : Path) (xs : List (Case × Nat)) : String :=
  "Total " ++ toString (xs.countP (p.right root)) ++ "/" ++ toString xs.length

def Answering : Prop := ∀ n command, (p.behave n command).Answers

/-- The pass runs all cases that it picks, in their order, and tells how many came out right. -/
structure Completes (folder : Folder) (home : Path) (cases : List Case) : Prop where
  result : (p.comesTo folder home).1 = .ok ()
  calls : (p.comesTo folder home).2.calls = p.calls folder.root (p.chosen 0 cases)
  total : ∃ text, (p.comesTo folder home).2.out = text ++ (p.totalLine folder.root (p.chosen 0 cases) ++ "\n")

/-- The pass runs cases to their end, which none of them prevents, and removes the record. -/
structure Finishes (folder : Folder) (home : Path) (cases : List Case) : Prop extends p.Completes folder home cases where
  goes_on : ∀ x ∈ p.chosen 0 cases, p.goesOn folder.root x = true
  leaves : p.leaves folder home = folder.remove recordFile

/-- The pass runs cases up to the first that it does not go on from. -/
structure Halts (folder : Folder) (home : Path) (cases earlier : List Case) (c : Case) (later : List Case) : Prop where
  split : cases = earlier ++ c :: later
  picked : p.picks c = true
  goes_on : ∀ x ∈ p.chosen 0 earlier, p.goesOn folder.root x = true
  calls : (p.comesTo folder home).2.calls = p.calls folder.root (p.chosen 0 (earlier ++ [c]))

/-- The pass halts at the first case that fails, and records that one. -/
structure Stops (folder : Folder) (home : Path) (cases earlier : List Case) (c : Case) (later : List Case) : Prop
    extends p.Halts folder home cases earlier c later where
  stepwise : p.stepwise = true
  wrong : p.right folder.root (c, (p.chosen 0 earlier).length) = false
  result : (p.comesTo folder home).1 = .error (.exit (-1))
  leaves : p.leaves folder home = folder.put recordParts (written c.encode)

/-- The pass halts at a case whose program does not answer, and leaves the folder as it was. -/
structure BreaksOff (folder : Folder) (home : Path) (cases earlier : List Case) (c : Case) (later : List Case) : Prop
    extends p.Halts folder home cases earlier c later where
  silent : ¬(p.behaviour folder.root (c, (p.chosen 0 earlier).length)).Answers
  result : (p.comesTo folder home).1 = .error .badIndex
  leaves : p.leaves folder home = folder

def Ends (folder : Folder) (home : Path) (cases : List Case) : Prop :=
  p.Finishes folder home cases ∨ ∃ earlier c later, p.Stops folder home cases earlier c later

/-! Runs of one case. -/

variable {p} {root : Path} {d : Desk} {c : Case}

private theorem answer_takes (clear : c.Clear (· ≠ '\r')) :
    Takes (answer p.outside (p.command root) c) d (· = reply (p.behaviour root (c, d.started)))
      (d.ran (p.words root c) (p.behaviour root (c, d.started))) :=
  answer_replies (p.starts _ _) clear

private theorem answered_takes (clear : c.Clear (· ≠ '\r')) (answers : (p.behaviour root (c, d.started)).Answers) :
    Takes (answer p.outside (p.command root) c) d (· = .ok (p.behaviour root (c, d.started)).answer)
      (d.ran (p.words root c) (p.behaviour root (c, d.started))) := by
  have answered : reply (p.behaviour root (c, d.started)) = .ok (p.behaviour root (c, d.started)).answer :=
    if_pos answers
  rw [← answered]
  exact answer_takes clear

private theorem runCase_goes_on (title : String) (clear : c.Clear (· ≠ '\r'))
    (goes : p.goesOn root (c, d.started) = true) :
    Takes (runCase p.outside (p.command root) p.stepwise c title) d (· = .ok (p.right root (c, d.started)))
      (d.ran (p.words root c) (p.behaviour root (c, d.started))) := by
  have ⟨answers, passes⟩ : (p.behaviour root (c, d.started)).Answers ∧
      (p.stepwise = false ∨ p.right root (c, d.started) = true) := by
    simpa [goesOn] using goes
  unfold runCase
  refine frame_takes _ ((answered_takes clear answers).next ((tell_quiet _ _).next ?_))
  by_cases same : c.result = (p.behaviour root (c, d.started)).answer
  · rw [if_pos same]
    exact .pure (by simp [right, same])
  · have other : p.right root (c, d.started) = false := by simp [right, same]
    have straight : ¬p.stepwise = true := by simpa [other] using passes
    rw [if_neg same, if_neg straight]
    exact .pure (by rw [other])

private theorem runCase_stops (title : String) (clear : c.Clear (· ≠ '\r'))
    (free : d.suite.folder.isFolder recordFile = false)
    (answers : (p.behaviour root (c, d.started)).Answers) (stepwise : p.stepwise = true)
    (wrong : p.right root (c, d.started) = false) :
    Takes (runCase p.outside (p.command root) p.stepwise c title) d (· = .error (.exit (-1)))
      ((d.ran (p.words root c) (p.behaviour root (c, d.started))).holding
        (d.suite.folder.put recordParts (written c.encode))) := by
  have other : ¬c.result = (p.behaviour root (c, d.started)).answer := by simpa [right] using wrong
  have recording : (d.ran (p.words root c) (p.behaviour root (c, d.started))).suite.folder.write recordFile
      (written c.encode) = .ok _ := (record_place free).write _
  unfold runCase
  refine frame_takes _ ((answered_takes clear answers).next ((tell_quiet _ _).next ?_))
  rw [if_neg other, if_pos stepwise]
  exact (Takes.lift (clear_written clear).2.2).next ((writeFile_takes recording).next (.stop (.throw rfl) rfl))

private theorem runCase_breaks_off (title : String) (clear : c.Clear (· ≠ '\r'))
    (silent : ¬(p.behaviour root (c, d.started)).Answers) :
    Takes (runCase p.outside (p.command root) p.stepwise c title) d (· = .error .badIndex)
      (d.ran (p.words root c) (p.behaviour root (c, d.started))) := by
  have unanswered : reply (p.behaviour root (c, d.started)) = .error .badIndex := if_neg silent
  have asked := @answer_takes p root d c clear
  rw [unanswered] at asked
  unfold runCase
  exact frame_takes _ (asked.stop rfl)

/-! Runs of several cases. -/

variable (p) in
def after (root : Path) (d : Desk) (xs : List (Case × Nat)) : Desk :=
  { d with started := d.started + xs.length, calls := d.calls ++ p.calls root xs }

variable (p) in
def tallied (root : Path) (tally : Tally) (xs : List (Case × Nat)) : Tally :=
  { right := tally.right + xs.countP (p.right root), count := tally.count + xs.length }

theorem chosen_cons_of_picked {n : Nat} (picked : p.picks c = true) (cases : List Case) :
    p.chosen n (c :: cases) = (c, n) :: p.chosen (n + 1) cases := by
  simp [chosen, picked]

theorem chosen_cons_of_passed {n : Nat} (passed : ¬p.picks c = true) (cases : List Case) :
    p.chosen n (c :: cases) = p.chosen n cases := by
  simp [chosen, passed]

private theorem after_cons (xs : List (Case × Nat)) :
    p.after root d ((c, d.started) :: xs) =
      p.after root (d.ran (p.words root c) (p.behaviour root (c, d.started))) xs := by
  simp [after, Desk.ran, calls, Nat.add_comm 1, Nat.add_assoc]

private theorem tallied_cons (tally : Tally) (x : Case × Nat) (xs : List (Case × Nat)) :
    p.tallied root tally (x :: xs) = p.tallied root (tally.add (p.right root x)) xs := by
  simp only [tallied, Tally.add, List.countP_cons, List.length_cons, Tally.mk.injEq]
  cases p.right root x <;> simp <;> omega

section Running

variable {post : Except Fault Tally → Prop} {ending : Desk} {cases rest : List Case} (tally : Tally)

private theorem runCases_picked (clear : c.Clear (· ≠ '\r')) (picked : p.picks c = true)
    (takes : Takes (do
      let right ← runCase p.outside (p.command root) p.stepwise c (written c.display)
      runCases p.outside (p.command root) p.stepwise p.filter (tally.add right) rest) d post ending) :
    Takes (runCases p.outside (p.command root) p.stepwise p.filter tally (c :: rest)) d post ending := by
  unfold picks at picked
  rw [runCases]
  refine (Takes.lift (clear_written clear).2.1).next ?_
  rw [if_pos picked]
  exact takes

private theorem runCases_passed (clear : c.Clear (· ≠ '\r')) (passed : ¬p.picks c = true)
    (takes : Takes (runCases p.outside (p.command root) p.stepwise p.filter tally rest) d post ending) :
    Takes (runCases p.outside (p.command root) p.stepwise p.filter tally (c :: rest)) d post ending := by
  unfold picks at passed
  rw [runCases]
  refine (Takes.lift (clear_written clear).2.1).next ?_
  rw [if_neg passed]
  exact takes

/-- As long as what is picked goes on, running cases comes to running the rest. -/
theorem runCases_goes_on (clear : ∀ c ∈ cases, c.Clear (· ≠ '\r'))
    (goes : ∀ x ∈ p.chosen d.started cases, p.goesOn root x = true)
    (others : Takes (runCases p.outside (p.command root) p.stepwise p.filter
      (p.tallied root tally (p.chosen d.started cases)) rest) (p.after root d (p.chosen d.started cases)) post ending) :
    Takes (runCases p.outside (p.command root) p.stepwise p.filter tally (cases ++ rest)) d post ending := by
  -- The desk and the tally move on with each case that is picked, and its number with them.
  induction cases generalizing d tally with
  | nil => simpa [chosen, after, tallied, calls] using others
  | cons c cases ih =>
    obtain ⟨own, later⟩ := List.forall_mem_cons.mp clear
    by_cases picked : p.picks c = true
    · rw [chosen_cons_of_picked picked] at goes others
      rw [after_cons, tallied_cons] at others
      obtain ⟨first, following⟩ := List.forall_mem_cons.mp goes
      exact runCases_picked tally own picked ((runCase_goes_on _ own first).next (ih _ later following others))
    · rw [chosen_cons_of_passed picked] at goes others
      exact runCases_passed tally own picked (ih tally later goes others)

private theorem runCases_all (clear : ∀ c ∈ cases, c.Clear (· ≠ '\r'))
    (goes : ∀ x ∈ p.chosen d.started cases, p.goesOn root x = true) :
    Takes (runCases p.outside (p.command root) p.stepwise p.filter tally cases) d
      (· = .ok (p.tallied root tally (p.chosen d.started cases))) (p.after root d (p.chosen d.started cases)) := by
  have takes : Takes (runCases p.outside (p.command root) p.stepwise p.filter tally (cases ++ [])) d
      (· = .ok (p.tallied root tally (p.chosen d.started cases))) (p.after root d (p.chosen d.started cases)) :=
    runCases_goes_on tally clear goes (.pure rfl)
  rwa [List.append_nil] at takes

private theorem chosen_concat {n : Nat} (picked : p.picks c = true) (cases : List Case) :
    p.chosen n (cases ++ [c]) = p.chosen n cases ++ [(c, n + (p.chosen n cases).length)] := by
  simp [chosen, picked, List.zipIdx_append]

private theorem runCases_halts {e : Fault} (clear : ∀ e ∈ cases ++ c :: rest, e.Clear (· ≠ '\r'))
    (goes : ∀ x ∈ p.chosen d.started cases, p.goesOn root x = true) (picked : p.picks c = true)
    (halts : Takes (runCase p.outside (p.command root) p.stepwise c (written c.display))
      (p.after root d (p.chosen d.started cases)) (· = .error e) ending) :
    Takes (runCases p.outside (p.command root) p.stepwise p.filter tally (cases ++ c :: rest)) d (· = .error e) ending := by
  obtain ⟨earlier, later⟩ := List.forall_mem_append.mp clear
  apply runCases_goes_on tally earlier goes
  apply runCases_picked _ (later c List.mem_cons_self) picked
  exact halts.stop rfl

/-- Either all of what is picked goes on, or there is a first case that stops the pass. -/
theorem exists_first (root : Path) (n : Nat) (cases : List Case) :
    (∀ x ∈ p.chosen n cases, p.goesOn root x = true) ∨ ∃ earlier c later, cases = earlier ++ c :: later ∧
      (∀ x ∈ p.chosen n earlier, p.goesOn root x = true) ∧ p.picks c = true ∧
      p.goesOn root (c, n + (p.chosen n earlier).length) = false := by
  induction cases generalizing n with
  | nil => exact Or.inl (List.forall_mem_nil _)
  | cons c cases ih =>
    by_cases picked : p.picks c = true
    · cases goes : p.goesOn root (c, n) with
      | false => exact Or.inr ⟨[], c, cases, rfl, List.forall_mem_nil _, picked, goes⟩
      | true =>
        rcases ih (n + 1) with all | ⟨earlier, e, later, rfl, some, pickedLater, stops⟩
        · rw [chosen_cons_of_picked picked]
          exact Or.inl (List.forall_mem_cons.mpr ⟨goes, all⟩)
        · refine Or.inr ⟨c :: earlier, e, later, rfl, ?_, pickedLater, ?_⟩
          · rw [chosen_cons_of_picked picked]
            exact List.forall_mem_cons.mpr ⟨goes, some⟩
          · rw [chosen_cons_of_picked picked, List.length_cons, ← stops]
            congr 2
            omega
    · rcases ih n with all | ⟨earlier, e, later, rfl, some, pickedLater, stops⟩
      · rw [chosen_cons_of_passed picked]
        exact Or.inl all
      · refine Or.inr ⟨c :: earlier, e, later, rfl, ?_, pickedLater, ?_⟩
        · rwa [chosen_cons_of_passed picked]
        · rwa [chosen_cons_of_passed picked]

end Running

/-! Whole passes. -/

variable {folder : Folder} {home : Path} {cases : List Case} {record : Option Case}

variable (p) in
/-- The work of a pass, without the printing of its report. -/
def work : Work Unit := carryOut p.outside p.given.words (p.given.switch? "interpreter") p.stepwise p.filter

variable (p) in
def resume (command : List String) (record : Option Case) : Work Unit := do
  let cases ← ask Suite.cases
  let tally ← runCases p.outside command p.stepwise p.filter {} (fromRecord record cases)
  removeFile recordFile
  tell ("Total " ++ toString tally.right ++ "/" ++ toString tally.count)

theorem work_eq : p.work = launchCommand p.outside (p.given.switch? "interpreter") p.given.words >>= fun command =>
    (if p.stepwise then readRecord else pure none) >>= p.resume command := by
  unfold work carryOut
  refine congrArg _ (funext fun command => ?_)
  split <;> rfl

def fresh (folder : Folder) (home : Path) : Desk := ⟨{ folder, home }, 0, [], ""⟩

theorem comesTo_eq (kept : (p.work.execute { suite := { folder, home } }).2.report.file = none) :
    p.comesTo folder home = ((p.work.execute { suite := { folder, home } }).1,
      { (p.work.execute { suite := { folder, home } }).2 with
        out := (p.work.execute { suite := { folder, home } }).2.out ++
          (p.work.execute { suite := { folder, home } }).2.report.text }) := by
  have opened : p.comesTo folder home = (closing p.work finishReport).execute { suite := { folder, home } } := by
    unfold comesTo CommandLine.interpretCommand CommandLine.readFilter CommandLine.reporting
    dsimp only
    rw [p.checked, p.filtered, p.printed]
    rfl
  rw [opened]
  exact execute_closing p.work (execute_finishReport kept)

theorem comesTo_of_takes {result : Except Fault Unit} {after : Desk}
    (takes : Takes p.work (fresh folder home) (· = result) after) :
    (p.comesTo folder home).1 = result ∧ p.leaves folder home = after.suite.folder ∧
      (p.comesTo folder home).2.calls = after.calls := by
  obtain ⟨rfl, rfl, kept, -⟩ := takes { suite := { folder, home } } rfl rfl
  unfold leaves
  rw [comesTo_eq kept]
  exact ⟨rfl, rfl, rfl⟩

private theorem comesTo_of_closes {line : String} {after : Desk} (closes : Closes p.work (fresh folder home) line after) :
    (p.comesTo folder home).1 = .ok () ∧ p.leaves folder home = after.suite.folder ∧
      (p.comesTo folder home).2.calls = after.calls ∧
      ∃ text, (p.comesTo folder home).2.out = text ++ (line ++ "\n") := by
  obtain ⟨done, rfl, kept, text, told⟩ := closes { suite := { folder, home } } rfl rfl
  unfold leaves
  rw [comesTo_eq kept, told]
  refine ⟨done, rfl, rfl, (p.work.execute { suite := { folder, home } }).2.out ++ text, ?_⟩
  simp [String.append_assoc]

private theorem total_single (right count : Nat) :
    Text.lines ("Total " ++ toString right ++ "/" ++ toString count) = ["Total " ++ toString right ++ "/" ++ toString count] := by
  have digits (n : Nat) : ∀ c ∈ (toString n).toList, Text.isLineBoundary c = false := by
    have known : ∀ c ∈ Decimal.digitChars, Text.isLineBoundary c = false := Text.forall_of_all (by decide)
    intro c member
    apply known c (Decimal.toDigits_subset n c _)
    simpa [Nat.repr] using member
  have title : ∀ c ∈ "Total ".toList, Text.isLineBoundary c = false := Text.forall_of_all (by decide)
  have slash : ∀ c ∈ "/".toList, Text.isLineBoundary c = false := Text.forall_of_all (by decide)
  apply Text.lines_of_unbroken
  · simp
  · simp only [String.toList_append, List.forall_mem_append]
    exact ⟨⟨⟨title, digits _⟩, slash⟩, digits _⟩

private theorem totalLine_single (root : Path) (xs : List (Case × Nat)) :
    Text.lines (p.totalLine root xs) = [p.totalLine root xs] :=
  total_single _ _

theorem fromRecord_subset (record : Option Case) (cases : List Case) : fromRecord record cases ⊆ cases := by
  cases record with
  | none => exact List.Subset.refl _
  | some c => exact (List.dropWhile_suffix _).subset

def loaded (folder : Folder) (home : Path) (cases : List Case) : Desk :=
  ⟨{ folder, home, cached := some cases }, 0, [], ""⟩

theorem launch_takes :
    Takes (launchCommand p.outside (p.given.switch? "interpreter") p.given.words) (fresh folder home)
      (· = .ok (p.command folder.root)) (fresh folder home) :=
  launchCommand_takes p.named

theorem record_takes {result : Except Fault (Option Case)} (begins : p.record folder = result) :
    Takes (if p.stepwise then readRecord else pure none) (fresh folder home) (· = result) (fresh folder home) := by
  subst begins
  unfold record
  split
  · exact readRecord_takes
  · exact .pure rfl

theorem cases_takes (read : Suite.readCases folder (Suite.caseFile { folder, home }) = .ok cases) :
    Takes (ask Suite.cases) (fresh folder home) (· = .ok cases) (loaded folder home cases) := by
  have known : Suite.cases { folder, home } = (.ok cases, { folder, home, cached := some cases }) := by
    unfold Suite.cases
    dsimp only
    rw [read]
  have asked := @ask_takes _ (fresh folder home) Suite.cases
  rw [show (fresh folder home).suite = { folder, home } from rfl, known] at asked
  exact asked

section Reading

variable (read : Suite.readCases folder (Suite.caseFile { folder, home }) = .ok cases)
include read

theorem fromRecord_clear (record : Option Case) : ∀ c ∈ fromRecord record cases, c.Clear (· ≠ '\r') :=
  fun c member => Suite.readCases_clear read c (fromRecord_subset record cases member)

private theorem running_takes (goes : ∀ x ∈ p.chosen 0 (fromRecord record cases), p.goesOn folder.root x = true) :
    Takes (runCases p.outside (p.command folder.root) p.stepwise p.filter {} (fromRecord record cases))
      (loaded folder home cases)
      (· = .ok ⟨(p.chosen 0 (fromRecord record cases)).countP (p.right folder.root),
        (p.chosen 0 (fromRecord record cases)).length⟩)
      (p.after folder.root (loaded folder home cases) (p.chosen 0 (fromRecord record cases))) := by
  have ran := @runCases_all p folder.root (loaded folder home cases) _ {} (fromRecord_clear read record) goes
  simpa [tallied, loaded] using ran

variable (begins : p.record folder = .ok record)
include begins

theorem finishes_of_goes_on (free : folder.isFolder recordFile = false)
    (goes : ∀ x ∈ p.chosen 0 (fromRecord record cases), p.goesOn folder.root x = true) :
    p.Finishes folder home (fromRecord record cases) := by
  have closes : Closes p.work (fresh folder home) (p.totalLine folder.root (p.chosen 0 (fromRecord record cases)))
      ((p.after folder.root (loaded folder home cases) (p.chosen 0 (fromRecord record cases))).holding
        (folder.remove recordFile)) := by
    rw [work_eq]
    refine launch_takes.closes ((record_takes begins).closes ((cases_takes read).closes ?_))
    refine (running_takes read goes).closes ((removeFile_takes free).closes ?_)
    exact tell_closes (totalLine_single _ _)
  obtain ⟨result, leaves, calls, total⟩ := comesTo_of_closes closes
  exact { result, calls, total, goes_on := goes, leaves }

/-- A folder where the record goes cannot be removed like one. -/
theorem blocked (filled : folder.isFolder recordFile = true)
    (goes : ∀ x ∈ p.chosen 0 (fromRecord record cases), p.goesOn folder.root x = true) :
    (p.comesTo folder home).1 = .error .isFolder := by
  have refuses : Takes (removeFile recordFile)
      (p.after folder.root (loaded folder home cases) (p.chosen 0 (fromRecord record cases))) (· = .error .isFolder)
      (p.after folder.root (loaded folder home cases) (p.chosen 0 (fromRecord record cases))) := by
    refine suite_takes.next ?_
    have same : (p.after folder.root (loaded folder home cases) (p.chosen 0 (fromRecord record cases))).suite.folder.isFolder
        recordFile = true := filled
    simp only [same, ↓reduceIte]
    exact .stop (.throw rfl) rfl
  have takes : Takes p.work (fresh folder home) (· = .error .isFolder)
      (p.after folder.root (loaded folder home cases) (p.chosen 0 (fromRecord record cases))) := by
    rw [work_eq]
    refine launch_takes.next ((record_takes begins).next ((cases_takes read).next ?_))
    exact (running_takes read goes).next (refuses.stop rfl)
  exact (comesTo_of_takes takes).1

variable {earlier later : List Case} (split : fromRecord record cases = earlier ++ c :: later) (picked : p.picks c = true)
  (goes : ∀ x ∈ p.chosen 0 earlier, p.goesOn folder.root x = true)
include split picked goes

/-- A pass halts where the run of a case ends it. -/
theorem halts_at {e : Fault} {ending : Desk}
    (calls : ending.calls = p.calls folder.root (p.chosen 0 (earlier ++ [c])))
    (halts : Takes (runCase p.outside (p.command folder.root) p.stepwise c (written c.display))
      (p.after folder.root (loaded folder home cases) (p.chosen 0 earlier)) (· = .error e) ending) :
    p.Halts folder home (fromRecord record cases) earlier c later ∧ (p.comesTo folder home).1 = .error e ∧
      p.leaves folder home = ending.suite.folder := by
  have clear := fromRecord_clear read record
  rw [split] at clear
  have halted := @runCases_halts p folder.root (loaded folder home cases) c ending earlier later {} e clear goes picked halts
  rw [← split] at halted
  have takes : Takes p.work (fresh folder home) (· = .error e) ending := by
    rw [work_eq]
    exact launch_takes.next ((record_takes begins).next ((cases_takes read).next (halted.stop rfl)))
  obtain ⟨result, leaves, ran⟩ := comesTo_of_takes takes
  exact ⟨⟨split, picked, goes, ran.trans calls⟩, result, leaves⟩

theorem stops_at (free : folder.isFolder recordFile = false) (stepwise : p.stepwise = true)
    (answers : (p.behaviour folder.root (c, (p.chosen 0 earlier).length)).Answers)
    (wrong : p.right folder.root (c, (p.chosen 0 earlier).length) = false) :
    p.Stops folder home (fromRecord record cases) earlier c later := by
  have own := fromRecord_clear read record c (by simp [split])
  have stopped := @runCase_stops p folder.root (p.after folder.root (loaded folder home cases) (p.chosen 0 earlier)) c
    (written c.display) own free (by simpa [after, loaded] using answers) stepwise (by simpa [after, loaded] using wrong)
  obtain ⟨halts, result, leaves⟩ := halts_at read begins split picked goes (by
    rw [chosen_concat picked]
    simp [after, loaded, Desk.ran, Desk.holding, calls]) stopped
  exact { halts with stepwise, wrong, result, leaves }

theorem breaks_off_at (silent : ¬(p.behaviour folder.root (c, (p.chosen 0 earlier).length)).Answers) :
    p.BreaksOff folder home (fromRecord record cases) earlier c later := by
  have own := fromRecord_clear read record c (by simp [split])
  have broken := @runCase_breaks_off p folder.root (p.after folder.root (loaded folder home cases) (p.chosen 0 earlier)) c
    (written c.display) own (by simpa [after, loaded] using silent)
  obtain ⟨halts, result, leaves⟩ := halts_at read begins split picked goes (by
    rw [chosen_concat picked]
    simp [after, loaded, Desk.ran, calls]) broken
  exact { halts with silent, result, leaves }

end Reading

theorem ends (ready : Ready folder home cases) (begins : p.record folder = .ok record) (answering : p.Answering) :
    p.Ends folder home (fromRecord record cases) := by
  rcases p.exists_first folder.root 0 (fromRecord record cases) with
    all | ⟨earlier, c, later, split, goes, picked, stops⟩
  · exact Or.inl (finishes_of_goes_on ready.read begins ready.free all)
  · have ⟨stepwise, wrong⟩ : p.stepwise = true ∧ p.right folder.root (c, (p.chosen 0 earlier).length) = false := by
      simpa [goesOn, answering _ _, behaviour] using stops
    exact Or.inr ⟨earlier, c, later,
      stops_at ready.read begins split picked goes ready.free stepwise (answering _ _) wrong⟩

theorem record_fails {e : Fault} (begins : p.record folder = .error e) :
    (p.comesTo folder home).1 = .error e ∧ p.leaves folder home = folder := by
  have takes : Takes p.work (fresh folder home) (· = .error e) (fresh folder home) := by
    rw [work_eq]
    exact launch_takes.next ((record_takes begins).stop rfl)
  obtain ⟨result, leaves, -⟩ := comesTo_of_takes takes
  exact ⟨result, leaves⟩

end Pass
end Interpretation
end BytecodeBench
