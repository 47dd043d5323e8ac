import BytecodeBench.Proofs.Deskwork

/-! Work by the clock. Of the works that start programs and measure them, all but the notes and the time of day is
known: which programs were started, how often the clock was read, and how long each measured part took. The rules
for it are about success, whatever the report. -/

namespace BytecodeBench

namespace Work

variable {α β : Type} {b middle last : Workbench} {outside : Outside}

/-- Some work succeeds with a result as described, and leaves a workbench that is known up to its notes and its
clock. -/
def Gives (w : Work α) (b : Workbench) (good : α → Prop) (last : Workbench) : Prop :=
  ∃ a log clock, w.execute b = (.ok a, { last with log, clock }) ∧ good a

def Notes (w : Work Unit) : Prop := ∀ b, ∃ log, w.execute b = (.ok (), { b with log })

namespace Gives

variable {w : Work α} {f : α → Work β} {a : α} {good : β → Prop}

theorem pure {a : β} (holds : good a) : Gives (Pure.pure a) b good b := ⟨a, b.log, b.clock, rfl, holds⟩

theorem lift {x : Except Fault α} (known : x = .ok a) : Gives (lift x) b (· = a) b := by
  rw [known]
  exact ⟨a, b.log, b.clock, rfl, rfl⟩

theorem mono {w : Work β} {better : β → Prop} (gives : Gives w b good last) (implies : ∀ a, good a → better a) :
    Gives w b better last := by
  obtain ⟨a, log, clock, done, holds⟩ := gives
  exact ⟨a, log, clock, done, implies a holds⟩

theorem after (first : w.execute b = (.ok a, middle)) (rest : Gives (f a) middle good last) :
    Gives (w >>= f) b good last := by
  obtain ⟨result, log, clock, ends, holds⟩ := rest
  exact ⟨result, log, clock, (execute_next first).trans ends, holds⟩

theorem bind {between : α → Prop} (first : Gives w b between middle)
    (rest : ∀ a, between a → ∀ log clock, Gives (f a) { middle with log, clock } good last) :
    Gives (w >>= f) b good last := by
  obtain ⟨a, log, clock, done, holds⟩ := first
  exact .after done (rest a holds log clock)

theorem next (first : Gives w b (· = a) middle)
    (rest : ∀ log clock, Gives (f a) { middle with log, clock } good last) : Gives (w >>= f) b good last := by
  obtain ⟨_, log, clock, done, rfl⟩ := first
  exact .after done (rest log clock)

end Gives

namespace Notes

theorem next {w : Work Unit} {f : Unit → Work β} {good : β → Prop} (notes : Notes w)
    (rest : ∀ log, Gives (f ()) { b with log } good last) : Gives (w >>= f) b good last := by
  obtain ⟨log, done⟩ := notes b
  exact .after done (rest log)

theorem forM {f : α → Work Unit} (each : ∀ a, Notes (f a)) (items : List α) : Notes (items.forM f) := by
  induction items with
  | nil => exact fun b => ⟨b.log, rfl⟩
  | cons a items ih =>
    intro b
    obtain ⟨log, first⟩ := each a b
    obtain ⟨log', rest⟩ := ih { b with log }
    refine ⟨log', ?_⟩
    rw [List.forM, execute_next first]
    exact rest

theorem note (entry : LogEntry) : Notes (note entry) := fun b => ⟨b.log ++ [entry], rfl⟩

theorem noteAll (log : Log) : Notes (noteAll log) := fun b => ⟨b.log ++ log, rfl⟩

theorem ignore (line : String) : Notes (ignore line) := fun b => ⟨b.log, rfl⟩

theorem hear {listen : String → Work Unit} (each : ∀ line, Notes (listen line)) (text : String) :
    Notes (hear text listen) :=
  forM (fun _ => each _) _

end Notes

theorem execute_readClock (outside : Outside) (b : Workbench) :
    (readClock outside).execute b =
      (.ok (b.clock + outside.tick b.readings),
        { b with clock := b.clock + outside.tick b.readings, readings := b.readings + 1 }) :=
  rfl

/-- A run of a program that ends in time and with code zero. The clock is read before it and after it. -/
theorem run_gives {command : List String} {behaviour : Behaviour} {hearOut hearErr : String → Work Unit}
    (known : outside.behaviour b.started command = some behaviour) (timely : behaviour.overdue = false)
    (succeeds : behaviour.exit = 0) (out : ∀ line, Notes (hearOut line)) (err : ∀ line, Notes (hearErr line)) :
    Gives (run outside command hearOut hearErr) b (· = (behaviour.out, outside.tick (b.readings + 1)))
      { b with
        readings := b.readings + 2
        started := b.started + 1
        calls := b.calls ++ [Text.join " " command] } := by
  have starts (clock readings : Nat) := execute_start outside command { b with clock, readings }
  simp only [known] at starts
  unfold run
  refine .after (execute_readClock outside b) (.after (starts _ _) ?_)
  refine (Notes.hear err _).next fun log => (Notes.hear out _).next fun log' => ?_
  simp only [timely, succeeds, Bool.false_eq_true, ↓reduceIte, ne_eq, not_true_eq_false]
  refine .after (execute_readClock outside _) ?_
  rw [Nat.add_sub_cancel_left]
  exact ⟨_, _, _, rfl, rfl⟩

/-! Reports that go to files. -/

variable {file : Path}

private theorem execute_openReport_file (asked : b.report.file = some file) (closed : b.report.opened = false) :
    openReport.execute b = match b.suite.folder.write file "" with
      | .ok folder => (.ok (), { b with suite.folder := folder, report.opened := true })
      | .error e => (.error (.unwritableReport (Text.quoted file.text) (refusalText e)), b) := by
  have attempted : (attempt (writeFile file "")).execute b =
      (.ok ((writeFile file "").execute b).1, ((writeFile file "").execute b).2) := rfl
  rw [execute_writeFile] at attempted
  unfold openReport
  rw [execute_next (execute_get b)]
  simp only [asked, closed]
  rw [execute_next attempted]
  cases b.suite.folder.write file "" with
  | ok folder =>
    rw [← asked]
    rfl
  | error e => rfl

theorem execute_reportText_opening {text : String} {folder : Folder} (asked : b.report.file = some file)
    (closed : b.report.opened = false) (written : b.suite.folder.write file "" = .ok folder) :
    (reportText text).execute b =
      (.ok (), { b with suite.folder := folder, report.opened := true, report.text := b.report.text ++ text }) := by
  have opens := execute_openReport_file asked closed
  rw [written] at opens
  exact execute_next opens

theorem execute_reportText_refused {text : String} {e : Fault} (asked : b.report.file = some file)
    (closed : b.report.opened = false) (refused : b.suite.folder.write file "" = .error e) :
    (reportText text).execute b = (.error (.unwritableReport (Text.quoted file.text) (refusalText e)), b) := by
  have opens := execute_openReport_file asked closed
  rw [refused] at opens
  unfold reportText
  rw [execute_bind, opens]

private theorem execute_finishReport_file (asked : b.report.file = some file) :
    finishReport.execute b =
      if b.report.opened then (writeFile file b.report.text).execute b else (.ok (), b) := by
  unfold finishReport
  rw [execute_next (execute_get b)]
  simp only [asked]
  split <;> rfl

theorem execute_finishReport_opened {folder : Folder} (asked : b.report.file = some file)
    (opened : b.report.opened = true) (written : b.suite.folder.write file b.report.text = .ok folder) :
    finishReport.execute b = (.ok (), { b with suite.folder := folder }) := by
  rw [execute_finishReport_file asked, if_pos opened, execute_writeFile, written]

/-- Where nothing was reported, nothing is left to be done. -/
theorem execute_finishReport_unwritten (closed : b.report.opened = false) (empty : b.report.text = "") :
    finishReport.execute b = (.ok (), b) := by
  cases asked : b.report.file with
  | none =>
    rw [execute_finishReport asked, empty, String.append_empty]
  | some file =>
    rw [execute_finishReport_file asked, closed]
    rfl

theorem execute_ask {question : Suite → Except Fault α × Suite} {a : α} (known : (question b.suite).1 = .ok a) :
    (ask question).execute b = (.ok a, { b with suite := (question b.suite).2 }) := by
  rw [← known]
  rfl

end Work

end BytecodeBench
