import BytecodeBench.Launch
import BytecodeBench.Report

/-! Work as seen from the desk. While the report is printed, what a command reports, notes and times
bears on nothing else: what comes of its works is settled by the suite, by the programs that were
started and by how these behave. Each rule below says what some work makes of the desk. -/

namespace BytecodeBench

/-- All of a workbench that the works of a command hand on to each other, but for the report. -/
structure Desk where
  suite : Suite
  started : Nat
  calls : List String
  out : String

def Workbench.desk (b : Workbench) : Desk := ⟨b.suite, b.started, b.calls, b.out⟩

/-- What is told can be written: the report is printed, or its file is open. -/
def Report.Ready (r : Report) : Prop := r.file = none ∨ r.opened = true

namespace Work

variable {α β : Type} {d middle after : Desk} {post : Except Fault β → Prop}

theorem execute_bind (w : Work α) (f : α → Work β) (b : Workbench) :
    (w >>= f).execute b = match w.execute b with
      | (.ok a, next) => (f a).execute next
      | (.error e, next) => (.error e, next) := by
  have unfolded : (w >>= f).execute b = match w.execute b with
      | (result, next) => (ExceptT.bindCont f result).run next := rfl
  rw [unfolded]
  rcases w.execute b with ⟨_ | _, _⟩ <;> rfl

theorem execute_next {w : Work α} {f : α → Work β} {b next : Workbench} {a : α} (first : w.execute b = (.ok a, next)) :
    (w >>= f).execute b = (f a).execute next := by
  rw [execute_bind, first]

theorem execute_lift (x : Except Fault α) (b : Workbench) : (lift x).execute b = (x, b) := rfl

theorem execute_get (b : Workbench) : (get : Work Workbench).execute b = (.ok b, b) := rfl

theorem execute_suite (b : Workbench) : suite.execute b = (.ok b.suite, b) := rfl

theorem execute_writeFile (p : Path) (content : String) (b : Workbench) :
    (writeFile p content).execute b = match b.suite.folder.write p content with
      | .ok folder => (.ok (), { b with suite.folder := folder })
      | .error e => (.error e, b) := by
  unfold writeFile
  rw [execute_next (execute_suite b), execute_bind, execute_lift]
  cases b.suite.folder.write p content <;> rfl

/-- Some work takes a desk to another one, with a result as described, and goes on with the report. -/
def Takes (w : Work α) (d : Desk) (post : Except Fault α → Prop) (after : Desk) : Prop :=
  ∀ b : Workbench, b.report.file = none → b.desk = d →
    post (w.execute b).1 ∧ (w.execute b).2.desk = after ∧
      (w.execute b).2.report.file = none ∧ (w.execute b).2.report.margin = b.report.margin

def Quiet (w : Work Unit) : Prop := ∀ d, Takes w d (· = .ok ()) d

namespace Takes

variable {w : Work α} {f : α → Work β}

theorem pure {b : β} (holds : post (.ok b)) : Takes (Pure.pure b) d post d :=
  fun _ printed same => ⟨holds, same, printed, rfl⟩

theorem throw {e : Fault} (holds : post (.error e)) : Takes (throw e : Work β) d post d :=
  fun _ printed same => ⟨holds, same, printed, rfl⟩

theorem lift {result : Except Fault β} (holds : post result) : Takes (lift result) d post d :=
  fun _ printed same => ⟨holds, same, printed, rfl⟩

theorem bind {between : Except Fault α → Prop} (first : Takes w d between middle)
    (rest : ∀ a, between (.ok a) → Takes (f a) middle post after)
    (stops : ∀ e, between (.error e) → post (.error e) ∧ middle = after) : Takes (w >>= f) d post after := by
  intro b printed same
  rw [execute_bind]
  obtain ⟨holds, reached, kept, margin⟩ := first b printed same
  rcases found : w.execute b with ⟨e | a, next⟩
  · rw [found] at holds reached kept margin
    obtain ⟨done, rfl⟩ := stops e holds
    exact ⟨done, reached, kept, margin⟩
  · rw [found] at holds reached kept margin
    obtain ⟨done, last, still, ending⟩ := rest a holds next kept reached
    exact ⟨done, last, still, ending.trans margin⟩

theorem next {a : α} (first : Takes w d (· = .ok a) middle) (rest : Takes (f a) middle post after) :
    Takes (w >>= f) d post after := by
  apply first.bind
  · intro other same
    cases same
    exact rest
  · intro e impossible
    cases impossible

theorem stop {e : Fault} (first : Takes w d (· = .error e) middle) (holds : post (.error e)) :
    Takes (w >>= f) d post middle := by
  apply first.bind
  · intro a impossible
    cases impossible
  · intro other same
    cases same
    exact ⟨holds, rfl⟩

theorem reading {f : Workbench → Work β}
    (rest : ∀ b : Workbench, b.report.file = none → b.desk = d → Takes (f b) d post after) :
    Takes (get >>= f) d post after :=
  fun b printed same => rest b printed same b printed same

theorem changing {change : Workbench → Workbench} {post : Except Fault Unit → Prop}
    (report : ∀ b, (change b).report.file = b.report.file ∧ (change b).report.margin = b.report.margin)
    (changes : ∀ b : Workbench, b.desk = d → (change b).desk = after) (holds : post (.ok ())) :
    Takes (modify change) d post after := by
  intro b printed same
  exact ⟨holds, changes b same, (report b).1.trans printed, (report b).2⟩

theorem attempt {post : Except Fault (Except Fault α) → Prop} {between : Except Fault α → Prop}
    (takes : Takes w d between after) (holds : ∀ result, between result → post (.ok result)) :
    Takes (attempt w) d post after :=
  fun b printed same => ⟨holds _ (takes b printed same).1, (takes b printed same).2⟩

end Takes

/-! Notes and reports. -/

namespace Quiet

theorem pure : Quiet (Pure.pure ()) := fun _ => .pure rfl

theorem seq {w : Work Unit} {f : Unit → Work Unit} (first : Quiet w) (rest : Quiet (f ())) : Quiet (w >>= f) :=
  fun d => (first d).next (rest d)

theorem forM {f : α → Work Unit} (each : ∀ a, Quiet (f a)) (items : List α) : Quiet (items.forM f) := by
  induction items with
  | nil => exact pure
  | cons a items ih => exact (each a).seq ih

end Quiet

theorem note_quiet (entry : LogEntry) : Quiet (note entry) :=
  fun _ => .changing (fun _ => ⟨rfl, rfl⟩) (fun _ same => same) rfl

theorem execute_reportText {b : Workbench} (ready : b.report.Ready) (text : String) :
    (reportText text).execute b = (.ok (), { b with report.text := b.report.text ++ text }) := by
  obtain ⟨_, _, _, ⟨_, _, file, opened⟩⟩ := b
  rcases ready with printed | opened
  · cases printed
    rfl
  · cases opened
    cases file <;> rfl

private theorem reportText_quiet (text : String) : Quiet (reportText text) := by
  intro d b printed same
  rw [execute_reportText (.inl printed)]
  exact ⟨rfl, same, printed, rfl⟩

theorem tell_quiet (text : String) : Quiet (tell text) :=
  fun _ => .reading fun _ _ _ => Quiet.forM (fun _ => reportText_quiet _) _ _

private theorem hear_quiet {listen : String → Work Unit} (quiet : ∀ line, Quiet (listen line)) (text : String) :
    Quiet (hear text listen) :=
  Quiet.forM (fun _ => quiet _) _

theorem execute_closing (w : Work α) {close : Work Unit} {b after : Workbench}
    (closes : close.execute (w.execute b).2 = (.ok (), after)) :
    (closing w close).execute b = ((w.execute b).1, after) := by
  have attempted : (attempt w).execute b = (.ok (w.execute b).1, (w.execute b).2) := rfl
  unfold closing
  rw [execute_bind, attempted]
  dsimp only
  rw [execute_bind, closes]
  rfl

theorem execute_finishReport {b : Workbench} (printed : b.report.file = none) :
    finishReport.execute b = (.ok (), { b with out := b.out ++ b.report.text }) := by
  obtain ⟨_, _, _, ⟨_, _, _, _⟩⟩ := b
  cases printed
  rfl

/-- The workbench that the work within a frame starts at: the title is told, and the margin is wider. -/
def framing (title : String) (b : Workbench) : Workbench :=
  { b with
    report.text := b.report.text ++ (edge b.report.margin ++ "┌ " ++ title ++ "\n")
    report.margin := edge b.report.margin ++ "│ " }

/-- The workbench that a frame leaves, by the margin around it and what the work within leaves. -/
def unframing (title margin : String) (b : Workbench) : Workbench :=
  { b with
    report.text := b.report.text ++ (edge margin ++ "└ " ++ title ++ "\n")
    report.margin := margin }

/-- A frame is closed whatever comes of the work within. -/
theorem execute_frame {b : Workbench} {w : Work α} {title : String} (ready : b.report.Ready)
    (still : (w.execute (framing title b)).2.report.Ready) :
    (frame title w).execute b =
      ((w.execute (framing title b)).1, unframing title b.report.margin (w.execute (framing title b)).2) := by
  have opened : (frame title w).execute b = (closing w do
      setMargin b.report.margin
      reportLine (edge b.report.margin ++ "└ " ++ title)).execute (framing title b) := by
    unfold frame reportLine
    rw [execute_bind]
    change (reportText _ >>= _).execute b = _
    rw [execute_bind, execute_reportText ready]
    rfl
  rw [opened]
  exact execute_closing w (@execute_reportText { (w.execute (framing title b)).2 with report.margin := b.report.margin } still _)

/-- A frame is nothing to the desk. -/
theorem frame_takes {w : Work α} {post : Except Fault α → Prop} (title : String) (takes : Takes w d post after) :
    Takes (frame title w) d post after := by
  intro b printed same
  obtain ⟨holds, reached, kept, -⟩ := takes (framing title b) printed same
  rw [execute_frame (.inl printed) (.inl kept)]
  exact ⟨holds, reached, kept, rfl⟩

/-! The end of a report. -/

/-- Some work takes a desk to another one, and the last line that it reports is known. -/
def Closes (w : Work Unit) (d : Desk) (line : String) (after : Desk) : Prop :=
  ∀ b : Workbench, b.report.file = none → b.desk = d →
    (w.execute b).1 = .ok () ∧ (w.execute b).2.desk = after ∧ (w.execute b).2.report.file = none ∧
      ∃ text, (w.execute b).2.report.text = text ++ (b.report.margin ++ line ++ "\n")

theorem Takes.closes {w : Work α} {f : α → Work Unit} {a : α} {line : String} (first : Takes w d (· = .ok a) middle)
    (rest : Closes (f a) middle line after) : Closes (w >>= f) d line after := by
  intro b printed same
  obtain ⟨holds, reached, kept, margin⟩ := first b printed same
  have whole : (w >>= f).execute b = (f a).execute (w.execute b).2 := by
    rw [execute_bind, ← Prod.eta (w.execute b), holds]
  rw [whole, ← margin]
  exact rest _ kept reached

theorem tell_closes {line : String} (single : Text.lines line = [line]) : Closes (tell line) d line d := by
  intro b printed same
  have told : (tell line).execute b =
      (.ok (), { b with report.text := b.report.text ++ (b.report.margin ++ line ++ "\n") }) := by
    unfold tell reportLine
    rw [execute_bind, execute_get]
    dsimp only
    rw [single, List.forM, execute_bind, execute_reportText (.inl printed)]
    rfl
  rw [told]
  exact ⟨rfl, same, printed, b.report.text, rfl⟩

end Work

/-! Programs. -/

namespace Behaviour

/-- What a program that is run leaves among the calls: its command, and the end that is forced on it. -/
def calls (behaviour : Behaviour) (command : List String) : List String :=
  Text.join " " command :: if behaviour.overdue then ["(terminate)"] else []

def ending (behaviour : Behaviour) (command : List String) : Except Fault String :=
  if behaviour.overdue then .error .overdueRun
  else if behaviour.exit ≠ 0 then
    .error (.failedRun (Work.shownCommand command) behaviour.exit behaviour.out behaviour.err)
  else .ok behaviour.out

end Behaviour

def Desk.ran (d : Desk) (command : List String) (behaviour : Behaviour) : Desk :=
  { d with started := d.started + 1, calls := d.calls ++ behaviour.calls command }

namespace Work

variable {outside : Outside} {command : List String} {behaviour : Behaviour}

private theorem readClock_takes : Takes (readClock outside) d (fun result => ∃ time, result = .ok time) d :=
  fun _ printed same => ⟨⟨_, rfl⟩, same, printed, rfl⟩

private theorem noteCall_takes (call : String) :
    Takes (noteCall call) d (· = .ok ()) { d with calls := d.calls ++ [call] } := by
  refine .changing (fun _ => ⟨rfl, rfl⟩) ?_ rfl
  rintro b rfl
  rfl

theorem execute_start (outside : Outside) (command : List String) (b : Workbench) :
    (start outside command).execute b = ((outside.behaviour b.started command).elim (.error .missingFile) .ok,
      { b with started := b.started + 1, calls := b.calls ++ [Text.join " " command] }) := by
  unfold start
  rw [execute_next (execute_get b)]
  cases outside.behaviour b.started command <;> rfl

private theorem start_takes (known : outside.behaviour d.started command = some behaviour) :
    Takes (start outside command) d (· = .ok behaviour)
      { d with started := d.started + 1, calls := d.calls ++ [Text.join " " command] } := by
  rintro b printed rfl
  rw [execute_start, show outside.behaviour b.started command = some behaviour from known]
  exact ⟨rfl, rfl, printed, rfl⟩

private theorem run_takes {hearOut hearErr : String → Work Unit}
    (known : outside.behaviour d.started command = some behaviour)
    (quietOut : ∀ line, Quiet (hearOut line)) (quietErr : ∀ line, Quiet (hearErr line)) :
    Takes (run outside command hearOut hearErr) d (fun result => result.map Prod.fst = behaviour.ending command)
      (d.ran command behaviour) := by
  have timed {f : Nat → Work (String × Nat)} {d after : Desk} {post : Except Fault (String × Nat) → Prop}
      (rest : ∀ time, Takes (f time) d post after) : Takes (readClock outside >>= f) d post after :=
    readClock_takes.bind (fun time _ => rest time) fun _ ⟨_, impossible⟩ => nomatch impossible
  unfold run
  apply timed
  intro before
  refine (start_takes known).next ?_
  refine (hear_quiet quietErr _ _).next ?_
  refine (hear_quiet quietOut _ _).next ?_
  dsimp only
  by_cases late : behaviour.overdue = true
  · have reached : d.ran command behaviour =
        { d with started := d.started + 1, calls := d.calls ++ [Text.join " " command] ++ ["(terminate)"] } := by
      simp [Desk.ran, Behaviour.calls, late]
    rw [if_pos late, reached]
    exact (noteCall_takes _).next (.stop (.throw rfl) (by simp [Behaviour.ending, late, Except.map]))
  · have reached : d.ran command behaviour =
        { d with started := d.started + 1, calls := d.calls ++ [Text.join " " command] } := by
      simp [Desk.ran, Behaviour.calls, late]
    rw [if_neg late, reached]
    apply timed
    intro time
    split
    next failed => exact .stop (.throw rfl) (by simp [Behaviour.ending, late, failed, Except.map])
    next done => exact .pure (by simp [Behaviour.ending, late, done, Except.map])

/-- Running a program and reporting what it printed. -/
theorem runReported_takes (known : outside.behaviour d.started command = some behaviour) :
    Takes (runReported outside command) d (· = behaviour.ending command) (d.ran command behaviour) := by
  have heard := frame_takes "Stderr" (run_takes known (fun _ => Quiet.pure) tell_quiet)
  unfold runReported
  apply frame_takes
  apply heard.bind
  · rintro ⟨out, time⟩ ends
    refine (frame_takes "Stdout" (tell_quiet out _)).next (.pure ends)
  · exact fun e ends => ⟨ends, rfl⟩

end Work

/-! Files. -/

def Desk.holding (d : Desk) (folder : Folder) : Desk := { d with suite := { d.suite with folder } }

namespace Work

variable {outside : Outside}

theorem suite_takes : Takes suite d (· = .ok d.suite) d := by
  rintro b printed rfl
  exact ⟨rfl, rfl, printed, rfl⟩

private theorem setFolder_takes (folder : Folder) : Takes (setFolder folder) d (· = .ok ()) (d.holding folder) := by
  refine .changing (fun _ => ⟨rfl, rfl⟩) ?_ rfl
  rintro b rfl
  rfl

theorem writeFile_takes {p : Path} {content : String} {folder : Folder}
    (written : d.suite.folder.write p content = .ok folder) :
    Takes (writeFile p content) d (· = .ok ()) (d.holding folder) :=
  suite_takes.next ((Takes.lift written).next (setFolder_takes folder))

theorem removeFile_takes {p : Path} (free : d.suite.folder.isFolder p = false) :
    Takes (removeFile p) d (· = .ok ()) (d.holding (d.suite.folder.remove p)) := by
  refine suite_takes.next ?_
  simp only [free, Bool.false_eq_true, ↓reduceIte]
  exact setFolder_takes _

theorem ask_takes (question : Suite → Except Fault α × Suite) :
    Takes (ask question) d (· = (question d.suite).1) { d with suite := (question d.suite).2 } := by
  have kept : Takes (modify fun b => { b with suite := (question d.suite).2 }) d (· = .ok ())
      { d with suite := (question d.suite).2 } := by
    refine .changing (fun _ => ⟨rfl, rfl⟩) ?_ rfl
    rintro b rfl
    rfl
  exact suite_takes.next (kept.next (.lift rfl))

/-! Launching. -/

def isInterpreted (asked : Option Bool) (program : List String) : Bool := asked.getD (isScript (program.headD ""))

def interpreterFrom (outside : Outside) (root : Path) : String :=
  match root.below? (.ofText outside.interpreter) with
  | some parts => Path.text ⟨false, parts⟩
  | none => outside.interpreter

def launched (outside : Outside) (asked : Option Bool) (program : List String) (root : Path) : List String :=
  if isInterpreted asked program then interpreterFrom outside root :: program else program

/-- Launching takes notes, and does nothing else. -/
theorem execute_launchCommand {asked : Option Bool} {program : List String} (named : program ≠ []) (b : Workbench) :
    ∃ log, (launchCommand outside asked program).execute b =
      (.ok (launched outside asked program b.suite.folder.root), { b with log }) := by
  obtain ⟨log, needs⟩ : ∃ log, (needsInterpreter asked program).execute b =
      (.ok (isInterpreted asked program), { b with log }) := by
    cases asked with
    | some answer => exact ⟨b.log, rfl⟩
    | none =>
      cases program with
      | nil => exact absurd rfl named
      | cons word words =>
        unfold needsInterpreter isInterpreted
        dsimp only [Option.getD_none, List.headD_cons]
        split
        next script =>
          rw [script]
          exact ⟨_, rfl⟩
        next other =>
          rw [Bool.eq_false_iff.mpr other]
          exact ⟨b.log, rfl⟩
  have word : ∀ b, ∃ log, (interpreterWord outside).execute b =
      (.ok (interpreterFrom outside b.suite.folder.root), { b with log }) := by
    intro b
    unfold interpreterWord interpreterFrom
    rw [execute_next (execute_suite b)]
    cases b.suite.folder.root.below? (.ofText outside.interpreter) with
    | some parts => exact ⟨b.log, rfl⟩
    | none => exact ⟨_, rfl⟩
  unfold launchCommand launched
  rw [execute_next needs]
  split
  · obtain ⟨log, found⟩ := word { b with log }
    rw [execute_next found]
    exact ⟨log, rfl⟩
  · exact ⟨log, rfl⟩

theorem launchCommand_takes {asked : Option Bool} {program : List String} (named : program ≠ []) :
    Takes (launchCommand outside asked program) d (· = .ok (launched outside asked program d.suite.folder.root)) d := by
  rintro b printed rfl
  obtain ⟨log, done⟩ := @execute_launchCommand outside asked program named b
  rw [done]
  exact ⟨rfl, rfl, printed, rfl⟩

end Work
end BytecodeBench
