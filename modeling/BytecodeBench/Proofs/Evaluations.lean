import BytecodeBench.CommandLine.Entry
import BytecodeBench.Proofs.CaseFiles
import BytecodeBench.Proofs.Magnitudes
import BytecodeBench.Proofs.TimedWork

/-! Evaluations in which nothing goes wrong outside: all programs succeed, all answers can be read and all
measured times are positive. Still the work of such an evaluation may be lost. An introduction that cannot be
read is only noted, and missed when all methods have been run and the report is due; and it is then, too, that
the file of the report is opened. -/

namespace BytecodeBench

theorem Suite.caseMethods_folder (s : Suite) : s.caseMethods.2.folder = s.folder := by
  unfold caseMethods Suite.cases
  cases s.cached with
  | some cases => rfl
  | none => cases readCases s.folder s.caseFile <;> rfl

namespace Evaluation

open Work

/-- An evaluation of a program that always ends in time and with code zero, with times that can be measured. -/
structure Undisturbed where
  outside : Outside
  given : CommandLine.Given
  iterations : Int
  behave : Nat → List String → Behaviour
  checked : given.check (CommandLine.checkShared outside) = .ok ()
  counted : ((given.text? "iterations").bind Decimal.readInt?).getD 3 = iterations
  repeated : 1 ≤ iterations
  named : given.words ≠ []
  starts : ∀ n command, outside.behaviour n command = some (behave n command)
  timely : ∀ n command, (behave n command).overdue = false
  succeeds : ∀ n command, (behave n command).exit = 0
  /-- The clock is read in pairs, of which the second ends what is measured. -/
  measured : ∀ n, n % 2 = 1 → Magnitude.Measurable (outside.tick n)

namespace Undisturbed

variable (v : Undisturbed)

def comesTo (folder : Folder) (home : Path) : Except Fault Unit × Workbench :=
  ((CommandLine.evaluateCommand v.outside).carryOut v.given).execute { suite := { folder, home } }

def command (root : Path) : List String := launched v.outside (v.given.switch? "interpreter") v.given.words root

def introduced (root : Path) : Except Fault AnalysisInfo :=
  AnalysisInfo.parse (v.behave 0 (v.command root ++ ["info"])).out

def Accepted (root : Path) (methods : Table AbsMethodId (List String)) : Prop :=
  ∀ n, ∀ method ∈ methods, ∃ response : Response Float,
    Response.parse (v.behave n (v.command root ++ [method.1.encode])).out = .ok response

def introducing (root : Path) : String := Text.join " " (v.command root ++ ["info"])

def runs (root : Path) (methods : Table AbsMethodId (List String)) : List String :=
  methods.flatMap fun method =>
    List.replicate v.iterations.toNat (Text.join " " (v.command root ++ [method.1.encode]))

/-- A part of the report, with the results of as many runs as were asked for. -/
def Part (d : Datum) : Prop :=
  ∃ score time relative results,
    d = .record [("score", score), ("time", time), ("relative", relative), ("iterations", .list results)] ∧
    results.length = v.iterations.toNat

def Covers (info : AnalysisInfo) (methods : Table AbsMethodId (List String)) (d : Datum) : Prop :=
  ∃ parts score time relative,
    d = .record [("info", .record info.fields), ("bymethod", .record parts), ("score", score), ("time", time),
      ("relative", relative)] ∧
    parts.map Prod.fst = methods.map (·.1.encode) ∧ ∀ part ∈ parts, v.Part part.2

def found (b : Workbench) : Option String :=
  match CommandLine.reportFile v.given with
  | none => some b.out
  | some file => b.suite.folder.file? file

def Writable (folder : Folder) : Prop :=
  ∀ file, CommandLine.reportFile v.given = some file → ∃ opened, folder.write file "" = .ok opened

/-- The evaluation fails before the program is run on any method. -/
structure StopsEarly (folder : Folder) (home : Path) : Prop where
  result : ∃ e, (v.comesTo folder home).1 = .error e
  calls : (v.comesTo folder home).2.calls <+: [v.introducing folder.root]

/-- All runs were made, and a report on them was written. -/
structure Reports (folder : Folder) (home : Path) (methods : Table AbsMethodId (List String)) : Prop where
  result : (v.comesTo folder home).1 = .ok ()
  calls : (v.comesTo folder home).2.calls = v.introducing folder.root :: v.runs folder.root methods
  report : ∃ info d, v.introduced folder.root = .ok info ∧ v.Covers info methods d ∧
    v.found (v.comesTo folder home).2 = some (Json.writeIndented 2 d)

/-- All runs were made, and nothing was written. -/
structure Loses (folder : Folder) (home : Path) (methods : Table AbsMethodId (List String)) (e : Fault) : Prop where
  result : (v.comesTo folder home).1 = .error e
  calls : (v.comesTo folder home).2.calls = v.introducing folder.root :: v.runs folder.root methods
  out : (v.comesTo folder home).2.out = ""
  leaves : (v.comesTo folder home).2.suite.folder = folder

end Undisturbed

/-! One run on a method. -/

variable {outside : Outside} {b : Workbench}

private theorem calibrate_gives :
    Gives (calibrate outside) b (· = outside.tick (b.readings + 1)) { b with readings := b.readings + 2 } := by
  unfold calibrate
  refine .after (execute_readClock outside b) (.after (execute_readClock outside _) ?_)
  rw [Nat.add_sub_cancel_left]
  exact ⟨_, _, _, rfl, rfl⟩

private theorem readResponse_gives {out : String} {response : Response Float}
    (accepted : Response.parse out = .ok response) :
    Gives (Trial.readResponse out) b (· = response) b := by
  unfold Trial.readResponse
  exact (Notes.noteAll _).next fun log => .lift accepted

namespace Undisturbed

variable {v : Undisturbed} {root : Path} {methods : Table AbsMethodId (List String)}

/-- The workbench after some runs on methods: each starts a program, and reads the clock six times. -/
def ran (b : Workbench) (calls : List String) : Workbench :=
  { b with
    readings := b.readings + 6 * calls.length
    started := b.started + calls.length
    calls := b.calls ++ calls }

private theorem ran_nil : ran b [] = b := by
  unfold ran
  rw [List.append_nil]
  rfl

private theorem ran_even {calls : List String} (even : b.readings % 2 = 0) : (ran b calls).readings % 2 = 0 := by
  change (b.readings + 6 * calls.length) % 2 = 0
  omega

private theorem ran_ran (first rest : List String) : ran (ran b first) rest = ran b (first ++ rest) := by
  unfold ran
  simp only [List.length_append, List.append_assoc, Nat.mul_add, Nat.add_assoc]

variable {id : AbsMethodId} {correct : List String}

private theorem runOnce_gives {iteration : Nat} (even : b.readings % 2 = 0)
    (accepted : ∃ response : Response Float,
      Response.parse (v.behave b.started (v.command root ++ [id.encode])).out = .ok response) :
    Gives (runOnce v.outside (v.command root) id correct iteration) b (fun _ => True)
      (ran b [Text.join " " (v.command root ++ [id.encode])]) := by
  obtain ⟨response, accepted⟩ := accepted
  obtain ⟨relative, known⟩ := Magnitude.relativeTime_ok (v.measured (b.readings + 3) (by omega))
    (v.measured (b.readings + 1) (by omega)) (v.measured (b.readings + 5) (by omega))
  unfold runOnce
  refine (Notes.note _).next fun log => calibrate_gives.next fun log clock => ?_
  refine (run_gives (v.starts _ _) (v.timely _ _) (v.succeeds _ _) Notes.ignore fun _ => Notes.note _).next
    fun log clock => ?_
  refine calibrate_gives.next fun log clock => (readResponse_gives accepted).next fun log clock => ?_
  exact (Gives.lift known).next fun log clock => .pure trivial

/-! Runs on several methods. -/

private theorem runTimes_gives {sums : Sums} {results : List Datum} {iteration : Nat} (count : Nat)
    (even : b.readings % 2 = 0)
    (accepted : ∀ n, ∃ response : Response Float,
      Response.parse (v.behave n (v.command root ++ [id.encode])).out = .ok response) :
    Gives (runTimes v.outside (v.command root) id correct sums results iteration count) b
      (fun all => all.2.length = results.length + count)
      (ran b (List.replicate count (Text.join " " (v.command root ++ [id.encode])))) := by
  induction count generalizing b sums results iteration with
  | zero =>
    rw [List.replicate_zero, ran_nil]
    exact .pure rfl
  | succ count ih =>
    rw [List.replicate_succ, ← List.singleton_append, ← ran_ran]
    refine (runOnce_gives even (accepted _)).bind fun run _ log clock => ?_
    refine Gives.mono (ih (b := { ran b _ with log, clock }) (ran_even even)) ?_
    intro all length
    rw [length, List.length_append, List.length_singleton]
    omega

private theorem means_ok (sums : Sums) (count : Int) (some : count ≠ 0) : ∃ means, sums.means count = .ok means := by
  unfold Sums.means mean
  simp only [if_neg some]
  exact ⟨_, rfl⟩

private theorem runMethod_gives (even : b.readings % 2 = 0)
    (accepted : ∀ n, ∃ response : Response Float,
      Response.parse (v.behave n (v.command root ++ [id.encode])).out = .ok response) :
    Gives (runMethod v.outside (v.command root) v.iterations id correct) b (fun run => v.Part run.2)
      (ran b (List.replicate v.iterations.toNat (Text.join " " (v.command root ++ [id.encode])))) := by
  unfold runMethod
  refine (Notes.note _).next fun log => ?_
  refine (runTimes_gives (b := { b with log }) _ even accepted).bind fun all length log clock => ?_
  obtain ⟨means, known⟩ := means_ok all.1 v.iterations (by have := v.repeated; omega)
  refine (Gives.lift known).next fun log clock => .pure ⟨_, _, _, _, rfl, ?_⟩
  rw [length, List.length_nil, Nat.zero_add]

private theorem runMethods_gives {sums : Sums} {results : List (String × Datum)} (even : b.readings % 2 = 0)
    (accepted : v.Accepted root methods) :
    Gives (runMethods v.outside (v.command root) v.iterations sums results methods) b
      (fun all => ∃ parts, all.2 = results ++ parts ∧ parts.map Prod.fst = methods.map (·.1.encode) ∧
        ∀ part ∈ parts, v.Part part.2)
      (ran b (v.runs root methods)) := by
  induction methods generalizing b sums results with
  | nil =>
    rw [runs, List.flatMap_nil, ran_nil]
    exact .pure ⟨[], (List.append_nil _).symm, rfl, fun _ impossible => nomatch impossible⟩
  | cons method methods ih =>
    obtain ⟨id, correct⟩ := method
    rw [runs, List.flatMap_cons, ← ran_ran]
    have own : ∀ n, ∃ response : Response Float,
        Response.parse (v.behave n (v.command root ++ [id.encode])).out = .ok response :=
      fun n => accepted n (id, correct) List.mem_cons_self
    refine (runMethod_gives even own).bind fun run part log clock => ?_
    refine Gives.mono (ih (b := { ran b _ with log, clock }) (ran_even even)
      fun n other member => accepted n other (List.mem_cons_of_mem _ member)) ?_
    rintro ⟨total, all⟩ ⟨parts, same, names, each⟩
    refine ⟨(id.encode, run.2) :: parts, ?_, ?_, ?_⟩
    · rw [same, List.append_assoc]
      rfl
    · rw [List.map_cons, List.map_cons, names]
    · exact List.forall_mem_cons.mpr ⟨part, each⟩

/-! The whole evaluation. -/

private theorem introduction_gives :
    Gives (introduction v.outside (v.command root)) b
      (· = (AnalysisInfo.parse (v.behave b.started (v.command root ++ ["info"])).out).toOption)
      { b with
        readings := b.readings + 2
        started := b.started + 1
        calls := b.calls ++ [v.introducing root] } := by
  unfold introduction
  refine (run_gives (v.starts _ _) (v.timely _ _) (v.succeeds _ _) (fun _ => Notes.note _) fun _ => Notes.note _).next
    fun log clock => ?_
  dsimp only
  cases AnalysisInfo.parse (v.behave b.started (v.command root ++ ["info"])).out with
  | ok info => exact .pure rfl
  | error e => exact (Notes.note _).next fun log => (Notes.noteAll _).next fun log => .pure rfl

variable {folder : Folder} {home : Path}

def begun (v : Undisturbed) (folder : Folder) (home : Path) : Workbench :=
  { suite := { folder, home }, report := { file := CommandLine.reportFile v.given } }

def work (v : Undisturbed) : Work Unit := carryOut v.outside v.given.words (v.given.switch? "interpreter") v.iterations

theorem comesTo_eq {last : Workbench}
    (finishes : finishReport.execute (v.work.execute (v.begun folder home)).2 = (.ok (), last)) :
    v.comesTo folder home = ((v.work.execute (v.begun folder home)).1, last) := by
  have opened : v.comesTo folder home = (closing v.work finishReport).execute (v.begun folder home) := by
    unfold comesTo CommandLine.evaluateCommand
    dsimp only
    rw [v.checked, v.counted]
    rfl
  rw [opened]
  exact execute_closing v.work finishes

def deliver (v : Undisturbed) (root : Path) (sums : Sums) (parts : List (String × Datum)) : Work Unit := do
  reportText (Json.writeIndented 2 (← lift (reportData (v.introduced root).toOption sums parts)))

structure Due (v : Undisturbed) (folder : Folder) (methods : Table AbsMethodId (List String)) (b : Workbench) : Prop where
  report : b.report = { file := CommandLine.reportFile v.given }
  keeps : b.suite.folder = folder
  calls : b.calls = v.introducing folder.root :: v.runs folder.root methods
  out : b.out = ""

private theorem work_reaches (listed : (Suite.caseMethods { folder, home }).1 = .ok methods)
    (accepted : v.Accepted folder.root methods) :
    ∃ sums parts b, v.work.execute (v.begun folder home) = (v.deliver folder.root sums parts).execute b ∧
      v.Due folder methods b ∧ parts.map Prod.fst = methods.map (·.1.encode) ∧ ∀ part ∈ parts, v.Part part.2 := by
  obtain ⟨log, launches⟩ :=
    @execute_launchCommand v.outside (v.given.switch? "interpreter") _ v.named (v.begun folder home)
  obtain ⟨_, log, clock, introduces, rfl⟩ := @introduction_gives { v.begun folder home with log } v folder.root
  have asks := @execute_ask _ { v.begun folder home with
    log, clock, readings := 2, started := 1, calls := [v.introducing folder.root] } _ _ listed
  obtain ⟨⟨sums, parts⟩, log, clock, runs, _, rfl, names, each⟩ := @runMethods_gives { v.begun folder home with
    suite := (Suite.caseMethods { folder, home }).2
    log, clock, readings := 2, started := 1, calls := [v.introducing folder.root] } v folder.root methods {} []
    (Nat.mod_self 2) accepted
  have reaches := calc v.work.execute (v.begun folder home)
    _ = _ := execute_next launches
    _ = _ := execute_next introduces
    _ = _ := execute_next asks
    _ = _ := execute_next runs
  exact ⟨sums, parts, _, reaches, ⟨rfl, Suite.caseMethods_folder { folder, home }, rfl, rfl⟩, names, each⟩

private theorem reportData_ok {info : AnalysisInfo} {sums : Sums} {parts : List (String × Datum)} (some : methods ≠ [])
    (names : parts.map Prod.fst = methods.map (·.1.encode)) (each : ∀ part ∈ parts, v.Part part.2) :
    ∃ d, reportData (.some info) sums parts = .ok d ∧ v.Covers info methods d := by
  have filled : (parts.length : Int) ≠ 0 := by
    have same := congrArg List.length names
    rw [List.length_map, List.length_map] at same
    have := List.length_pos_iff.mpr some
    omega
  unfold reportData mean
  simp only [if_neg filled]
  exact ⟨_, rfl, parts, _, _, _, rfl, names, each⟩

section Outcomes

variable {sums : Sums} {parts : List (String × Datum)} {text : String} {e : Fault}
  (due : v.Due folder methods b)
include due

theorem Due.loses (fails : v.work.execute (v.begun folder home) = (.error e, b)) : v.Loses folder home methods e := by
  have finishes : finishReport.execute (v.work.execute (v.begun folder home)).2 = (.ok (), b) := by
    rw [fails]
    apply execute_finishReport_unwritten
    · rw [due.report]
    · rw [due.report]
  have ends := comesTo_eq finishes
  rw [fails] at ends
  constructor
  · rw [ends]
  · rw [ends, due.calls]
  · rw [ends, due.out]
  · rw [ends, due.keeps]

theorem Due.closes {told last : Workbench} {d : Datum} {info : AnalysisInfo} (read : v.introduced folder.root = .ok info)
    (covers : v.Covers info methods d) (tells : v.work.execute (v.begun folder home) = (.ok (), told))
    (finishes : finishReport.execute told = (.ok (), last)) (same : last.calls = b.calls)
    (found : v.found last = some (Json.writeIndented 2 d)) : v.Reports folder home methods := by
  have ends := @comesTo_eq v folder home last (by rw [tells, finishes])
  rw [tells] at ends
  constructor
  · rw [ends]
  · rw [ends, same, due.calls]
  · rw [ends]
    exact ⟨info, d, read, covers, found⟩

/-- A report that is told at last is found where it was to go. -/
theorem Due.reports {d : Datum} {info : AnalysisInfo} (read : v.introduced folder.root = .ok info)
    (covers : v.Covers info methods d) (writable : v.Writable folder)
    (tells : v.work.execute (v.begun folder home) = (reportText (Json.writeIndented 2 d)).execute b) :
    v.Reports folder home methods := by
  have asked : b.report.file = CommandLine.reportFile v.given := by rw [due.report]
  have empty : b.report.text = "" := by rw [due.report]
  cases goes : CommandLine.reportFile v.given with
  | none =>
    have printed : b.report.file = none := asked.trans goes
    rw [execute_reportText (.inl printed)] at tells
    refine due.closes read covers tells (execute_finishReport printed) rfl ?_
    unfold found
    rw [goes]
    dsimp only
    rw [due.out, empty, String.empty_append, String.empty_append]
  | some file =>
    have closed : b.report.opened = false := by rw [due.report]
    obtain ⟨opened, written⟩ := writable file goes
    rw [← due.keeps] at written
    rw [execute_reportText_opening (asked.trans goes) closed written, empty, String.empty_append] at tells
    obtain ⟨parts, place, rfl⟩ := Folder.write_eq_ok.mp written
    -- the file is made empty when the report is opened, and written again when it is finished
    have again := (place.put "").write (Json.writeIndented 2 d)
    refine due.closes read covers tells (execute_finishReport_opened (asked.trans goes) rfl again) rfl ?_
    unfold found
    rw [goes]
    exact Folder.file?_write again

end Outcomes

section Endings

variable (listed : (Suite.caseMethods { folder, home }).1 = .ok methods) (accepted : v.Accepted folder.root methods)
include listed accepted

theorem loses_unintroduced {e : Fault} (unread : v.introduced folder.root = .error e) :
    v.Loses folder home methods .neverSet := by
  obtain ⟨sums, parts, b, reaches, due, -⟩ := work_reaches listed accepted
  apply due.loses
  rw [reaches, deliver, unread]
  rfl

variable {info : AnalysisInfo} (some : methods ≠ []) (read : v.introduced folder.root = .ok info)
include some read

private theorem work_tells :
    ∃ d b, v.work.execute (v.begun folder home) = (reportText (Json.writeIndented 2 d)).execute b ∧
    v.Covers info methods d ∧ v.Due folder methods b := by
  obtain ⟨sums, parts, b, reaches, due, names, each⟩ := work_reaches listed accepted
  obtain ⟨d, known, covers⟩ := @reportData_ok v methods info sums parts some names each
  refine ⟨d, b, ?_, covers, due⟩
  rw [reaches, deliver, read]
  change (lift (reportData (.some info) sums parts) >>= _).execute b = _
  rw [known]
  rfl

theorem loses_refused (unwritable : ¬v.Writable folder) : ∃ e, v.Loses folder home methods e := by
  obtain ⟨d, b, tells, -, due⟩ := work_tells listed accepted some read
  unfold Writable at unwritable
  push Not at unwritable
  obtain ⟨file, goes, never⟩ := unwritable
  cases refused : folder.write file "" with
  | ok opened => exact absurd refused (never opened)
  | error e =>
    have asked : b.report.file = .some file := by rw [due.report, goes]
    have closed : b.report.opened = false := by rw [due.report]
    rw [← due.keeps] at refused
    rw [execute_reportText_refused asked closed refused] at tells
    exact ⟨_, due.loses tells⟩

theorem reports (writable : v.Writable folder) : v.Reports folder home methods := by
  obtain ⟨d, b, tells, covers, due⟩ := work_tells listed accepted some read
  exact due.reports read covers writable tells

end Endings

/-- Work that is lost did not stop early, and was not reported. -/
theorem Loses.unsettled {e : Fault} (lost : v.Loses folder home methods e) (some : methods ≠ []) :
    ¬(v.StopsEarly folder home ∨ v.Reports folder home methods) := by
  rintro (early | reported)
  -- an early stop makes one call at most, and there is at least one more for the first method
  · have few := early.calls.length_le
    rw [lost.calls, List.length_cons, List.length_singleton] at few
    obtain ⟨method, rest, rfl⟩ := List.exists_cons_of_ne_nil some
    have often := v.repeated
    rw [runs, List.flatMap_cons, List.length_append, List.length_replicate] at few
    omega
  · cases lost.result.symm.trans reported.result

end Undisturbed

/-- The work of an undisturbed evaluation is reported exactly if the program introduced itself and the report can
go where it is asked for. Otherwise all of its runs are made, and nothing is written. -/
theorem evaluation_reported_iff_introduced (v : Undisturbed) (folder : Folder) (home : Path)
    (methods : Table AbsMethodId (List String)) (listed : (Suite.caseMethods { folder, home }).1 = .ok methods)
    (some : methods ≠ []) (accepted : v.Accepted folder.root methods) :
    (v.StopsEarly folder home ∨ v.Reports folder home methods ↔
      (∃ info, v.introduced folder.root = .ok info) ∧ v.Writable folder) ∧
    ((∃ e, v.introduced folder.root = .error e) → v.Loses folder home methods .neverSet) ∧
    (¬v.Writable folder → ∃ e, v.Loses folder home methods e) := by
  have unread : (∃ e, v.introduced folder.root = .error e) → v.Loses folder home methods .neverSet := by
    rintro ⟨e, unread⟩
    exact Undisturbed.loses_unintroduced listed accepted unread
  have unwritable : ¬v.Writable folder → ∃ e, v.Loses folder home methods e := by
    intro unwritable
    cases read : v.introduced folder.root with
    | ok info => exact Undisturbed.loses_refused listed accepted some read unwritable
    | error e => exact ⟨_, unread ⟨e, read⟩⟩
  refine ⟨⟨?_, ?_⟩, unread, unwritable⟩
  · intro settled
    constructor
    · cases read : v.introduced folder.root with
      | ok info => exact ⟨info, rfl⟩
      | error e => exact absurd settled ((unread ⟨e, read⟩).unsettled some)
    · by_contra closed
      obtain ⟨e, lost⟩ := unwritable closed
      exact lost.unsettled some settled
  · rintro ⟨⟨info, read⟩, writable⟩
    exact .inr (Undisturbed.reports listed accepted some read writable)

/-- An evaluation, each method twice, of a program that says so of itself and is undecided on all else. -/
def ofIntroduction (introduction : String) : Undisturbed where
  outside := {
    behaviour := fun _ command =>
      some { out := if command.getLast? = some "info" then introduction else "ok;50%\n" }
    tick := fun _ => 1000
    prime := fun _ => none
    interpreter := "python"
    find := fun _ => none }
  given := { settings := [("iterations", .text "2"), ("report", .text "report.json")], words := ["analysis"] }
  iterations := 2
  behave := fun _ command => { out := if command.getLast? = some "info" then introduction else "ok;50%\n" }
  checked := by with_unfolding_all rfl
  counted := by with_unfolding_all rfl
  repeated := by decide
  named := List.cons_ne_nil _ _
  starts := fun _ _ => rfl
  timely := fun _ _ => rfl
  succeeds := fun _ _ => rfl
  measured := fun _ _ => ⟨Nat.succ_pos _, show Nat.log2 1000 < 1000 by decide⟩

def twoMethods : Folder where
  root := ⟨true, ["work"]⟩
  entries := [(["target", "stats", "cases.txt"], .file "a.B.m:()V () -> ok\na.B.n:()V () -> *\na.B.m:()V () -> *\n")]

def caseOf (name result : String) : Case := ⟨⟨⟨"a.B"⟩, ⟨name, [], none⟩⟩, ⟨[]⟩, result⟩

def twoMethodsTable : Table AbsMethodId (List String) :=
  [((caseOf "m" "ok").method, ["ok", "*"]), ((caseOf "n" "*").method, ["*"])]

theorem twoMethods_listed :
    (Suite.caseMethods { folder := twoMethods, home := twoMethods.root }).1 = .ok twoMethodsTable := by
  have read : Suite.readCases twoMethods (Suite.caseFile { folder := twoMethods, home := twoMethods.root }) =
      .ok [caseOf "m" "ok", caseOf "n" "*", caseOf "m" "*"] := by
    with_unfolding_all rfl
  unfold Suite.caseMethods Suite.cases
  dsimp only
  rw [read]
  rfl

theorem ofIntroduction_out {introduction word : String} (n : Nat) (command : List String) :
    ((ofIntroduction introduction).behave n (command ++ [word])).out =
      if word = "info" then introduction else "ok;50%\n" := by
  unfold ofIntroduction
  dsimp only
  rw [List.getLast?_concat]
  simp only [Option.some.injEq]

theorem ofIntroduction_accepted (introduction : String) :
    (ofIntroduction introduction).Accepted twoMethods.root twoMethodsTable := by
  have read : ∃ response : Response Float, Response.parse "ok;50%\n" = .ok response := by
    with_unfolding_all exact ⟨_, rfl⟩
  have other : ∀ method ∈ twoMethodsTable, method.1.encode ≠ "info" := by decide +kernel
  intro n method member
  rw [ofIntroduction_out, if_neg (other method member)]
  exact read

def fiveLines : String := "analysis\n1.0\ngroup\nsyntactic,python\nno\n"

/-- The program introduces itself, and the report stands in its file. -/
theorem fiveLines_reported :
    (Suite.caseMethods { folder := twoMethods, home := twoMethods.root }).1 = .ok twoMethodsTable ∧
    (ofIntroduction fiveLines).Accepted twoMethods.root twoMethodsTable ∧
    ((ofIntroduction fiveLines).StopsEarly twoMethods twoMethods.root ∨
      (ofIntroduction fiveLines).Reports twoMethods twoMethods.root twoMethodsTable) := by
  have read : ∃ info, (ofIntroduction fiveLines).introduced twoMethods.root = .ok info := by
    unfold Undisturbed.introduced
    rw [ofIntroduction_out]
    with_unfolding_all exact ⟨_, rfl⟩
  have writable : (ofIntroduction fiveLines).Writable twoMethods := by
    intro file asked
    have named : CommandLine.reportFile (ofIntroduction fiveLines).given = some (.ofText "report.json") := rfl
    cases named.symm.trans asked
    with_unfolding_all exact ⟨_, rfl⟩
  refine ⟨twoMethods_listed, ofIntroduction_accepted fiveLines, ?_⟩
  exact (evaluation_reported_iff_introduced (ofIntroduction fiveLines) twoMethods twoMethods.root twoMethodsTable
    twoMethods_listed (List.cons_ne_nil _ _) (ofIntroduction_accepted fiveLines)).1.mpr ⟨read, writable⟩

/-- A program that has only a line to say of itself is run on all methods, for nothing. -/
theorem oneLine_lost :
    (ofIntroduction "analysis\n").Accepted twoMethods.root twoMethodsTable ∧
    (ofIntroduction "analysis\n").Loses twoMethods twoMethods.root twoMethodsTable .neverSet ∧
    ((ofIntroduction "analysis\n").comesTo twoMethods twoMethods.root).2.calls =
      ["analysis info", "analysis a.B.m:()V", "analysis a.B.m:()V", "analysis a.B.n:()V", "analysis a.B.n:()V"] ∧
    ¬((ofIntroduction "analysis\n").StopsEarly twoMethods twoMethods.root ∨
      (ofIntroduction "analysis\n").Reports twoMethods twoMethods.root twoMethodsTable) := by
  have accepted := ofIntroduction_accepted "analysis\n"
  have unread : (ofIntroduction "analysis\n").introduced twoMethods.root = .error (.wrongLineCount 1) := by
    unfold Undisturbed.introduced
    rw [ofIntroduction_out]
    with_unfolding_all rfl
  have lost := Undisturbed.loses_unintroduced twoMethods_listed accepted unread
  refine ⟨accepted, lost, ?_, lost.unsettled (List.cons_ne_nil _ _)⟩
  rw [lost.calls]
  with_unfolding_all rfl

end Evaluation
end BytecodeBench
