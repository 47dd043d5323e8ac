import BytecodeBench.Commands.Interpretation
import BytecodeBench.Commands.Trial
import BytecodeBench.Proofs.Deskwork

/-! The frames of a report. Each line that is told opens a frame, closes one, or stands within the frames that are open,
behind a bar for each of them. Whatever is reported and wherever it stops, the frames are closed in turn, the last one
first, and the margin is left as it was. -/

namespace BytecodeBench

inductive Mark
  | opening (depth : Nat) (title : String)
  | line (depth : Nat) (text : String)
  | closing (depth : Nat) (title : String)

namespace Mark

def bars (depth : Nat) : String := String.ofList (List.replicate depth '│')

def margin : Nat → String
  | 0 => ""
  | depth + 1 => bars (depth + 1) ++ " "

def text : Mark → String
  | opening depth title => bars depth ++ "┌ " ++ title
  | line depth text => margin depth ++ text
  | closing depth title => bars depth ++ "└ " ++ title

def written : List Mark → String
  | [] => ""
  | mark :: rest => mark.text ++ "\n" ++ written rest

/-- The titles of the frames that are open after a line, the innermost first. A line tells the number of the frames
around it, and what it closes is the innermost frame, by its title. -/
def pass? : List String → Mark → Option (List String)
  | titles, opening depth title => if depth = titles.length then some (title :: titles) else none
  | titles, line depth _ => if depth = titles.length then some titles else none
  | title :: titles, closing depth closed => if closed = title ∧ depth = titles.length then some titles else none
  | [], closing .. => none

/-- Within so many frames, lines close all that they open and nothing else. -/
def Balanced (depth : Nat) (marks : List Mark) : Prop :=
  ∀ titles : List String, titles.length = depth → marks.foldlM pass? titles = some titles

def framed (depth : Nat) (title : String) (marks : List Mark) : List Mark :=
  opening depth title :: marks ++ [closing depth title]

def lines (depth : Nat) (text : String) : List Mark := (Text.lines text).map (line depth)

variable {depth : Nat} {title : String} {marks more : List Mark}

private theorem edge_margin (depth : Nat) : Work.edge (margin depth) = bars depth := by
  cases depth with
  | zero => rfl
  | succ depth => simp [Work.edge, margin, bars]

private theorem bars_succ (depth : Nat) : bars depth ++ "│ " = margin (depth + 1) := by
  apply String.toList_inj.mp
  simp [margin, bars, List.replicate_succ']

theorem written_append (marks more : List Mark) : written (marks ++ more) = written marks ++ written more := by
  induction marks with
  | nil => simp [written]
  | cons mark marks ih => simp only [List.cons_append, written, ih, String.append_assoc]

namespace Balanced

theorem nil : Balanced depth [] := fun _ _ => rfl

theorem append (first : Balanced depth marks) (rest : Balanced depth more) : Balanced depth (marks ++ more) := by
  intro titles inside
  rw [List.foldlM_append, first titles inside]
  exact rest titles inside

theorem lines (depth : Nat) (texts : List String) : Balanced depth (texts.map (line depth)) := by
  intro titles inside
  induction texts with
  | nil => rfl
  | cons text texts ih =>
    have passed : pass? titles (line depth text) = some titles := if_pos inside.symm
    rw [List.map_cons, List.foldlM_cons, passed]
    exact ih

theorem framed (within : Balanced (depth + 1) marks) : Balanced depth (framed depth title marks) := by
  intro titles inside
  have opened : pass? titles (opening depth title) = some (title :: titles) := if_pos inside.symm
  have closed : pass? (title :: titles) (closing depth title) = some titles := if_pos ⟨rfl, inside.symm⟩
  have between : marks.foldlM pass? (title :: titles) = some (title :: titles) :=
    within (title :: titles) (congrArg Nat.succ inside)
  rw [Mark.framed, List.cons_append, List.foldlM_cons, opened]
  change (marks ++ [closing depth title]).foldlM pass? (title :: titles) = some titles
  rw [List.foldlM_append, between]
  change [closing depth title].foldlM pass? (title :: titles) = some titles
  rw [List.foldlM_cons, closed]
  rfl

end Balanced
end Mark

open Mark

/-! What a workbench is told. -/

structure Told (b after : Workbench) (marks : List Mark) : Prop where
  text : after.report.text = b.report.text ++ written marks
  margin : after.report.margin = b.report.margin
  ready : b.report.Ready → after.report.Ready

namespace Told

variable {b middle after : Workbench} {marks more : List Mark} {depth : Nat} {title : String}

theorem of_report (same : after.report = b.report) : Told b after [] := by
  constructor <;> simp [same, written]

theorem trans (first : Told b middle marks) (rest : Told middle after more) : Told b after (marks ++ more) where
  text := by rw [rest.text, first.text, written_append, String.append_assoc]
  margin := rest.margin.trans first.margin
  ready := rest.ready ∘ first.ready

/-- What the work within a frame tells, the frame tells between its two lines. -/
theorem framed (outer : b.report.margin = Mark.margin depth) (told : Told (Work.framing title b) after marks) :
    Told b (Work.unframing title b.report.margin after) (framed depth title marks) where
  text := by
    have within := told.text
    unfold Work.framing at within
    dsimp only at within
    unfold Work.unframing Mark.framed
    dsimp only
    rw [within, outer, edge_margin, List.cons_append, written, written_append]
    simp only [Mark.text, written, String.append_assoc, String.append_empty]
  margin := rfl
  ready := told.ready

theorem reportLine (ready : b.report.Ready) (text : String) :
    Told b ((Work.reportLine (Mark.margin depth ++ text)).execute b).2 [line depth text] := by
  rw [Work.reportLine, Work.execute_reportText ready]
  exact ⟨by simp [written, Mark.text], rfl, fun _ => ready⟩

end Told

theorem Work.framing_margin {b : Workbench} {depth : Nat} (title : String) (outer : b.report.margin = Mark.margin depth) :
    (Work.framing title b).report.margin = Mark.margin (depth + 1) := by
  rw [← bars_succ, ← edge_margin, ← outer]
  rfl

namespace Work

variable {α β : Type}

/-! Any work. -/

/-- Within so many frames, some work tells balanced lines, wherever it stops. -/
def Framed (depth : Nat) (w : Work α) : Prop :=
  ∀ b, b.report.margin = Mark.margin depth → ∃ marks, Balanced depth marks ∧ Told b (w.execute b).2 marks

def Silent (w : Work α) : Prop := ∀ b, (w.execute b).2.report = b.report

namespace Silent

theorem pure (a : α) : Silent (Pure.pure a) := fun _ => rfl

theorem throw (e : Fault) : Silent (throw e : Work α) := fun _ => rfl

theorem lift (x : Except Fault α) : Silent (lift x) := fun _ => rfl

theorem note (entry : LogEntry) : Silent (note entry) := fun _ => rfl

theorem noteAll (log : Log) : Silent (noteAll log) := fun _ => rfl

theorem noteCall (call : String) : Silent (noteCall call) := fun _ => rfl

theorem suite : Silent suite := fun _ => rfl

theorem setFolder (folder : Folder) : Silent (setFolder folder) := fun _ => rfl

theorem readClock (outside : Outside) : Silent (readClock outside) := fun _ => rfl

theorem bind {w : Work α} {f : α → Work β} (first : Silent w) (rest : ∀ a, Silent (f a)) : Silent (w >>= f) := by
  intro b
  have before := first b
  rw [execute_bind]
  rcases found : w.execute b with ⟨e | a, next⟩
  · rw [found] at before
    exact before
  · rw [found] at before
    exact (rest a next).trans before

theorem ask (question : Suite → Except Fault α × Suite) : Silent (ask question) :=
  suite.bind fun _ => bind (fun _ => rfl) fun _ => lift _

theorem writeFile (p : Path) (content : String) : Silent (writeFile p content) :=
  suite.bind fun _ => (lift _).bind fun _ => setFolder _

theorem removeFile (p : Path) : Silent (removeFile p) := by
  refine suite.bind fun s => ?_
  dsimp only
  split
  · exact (throw _).bind fun _ => setFolder _
  · exact setFolder _

theorem start (outside : Outside) (command : List String) : Silent (start outside command) := by
  unfold Work.start
  refine bind (fun _ => rfl) fun b => bind (fun _ => rfl) fun _ => (noteCall _).bind fun _ => ?_
  split
  · exact pure _
  · exact throw _

theorem launchCommand (outside : Outside) (asked : Option Bool) (program : List String) :
    Silent (launchCommand outside asked program) := by
  have needs : Silent (needsInterpreter asked program) := by
    unfold needsInterpreter
    split
    · exact pure _
    · exact throw _
    · split
      · exact (note _).bind fun _ => pure _
      · exact pure _
  have word : Silent (interpreterWord outside) := by
    refine suite.bind fun s => ?_
    split
    · exact pure _
    · exact (note _).bind fun _ => pure _
  refine needs.bind fun interpreted => ?_
  split
  · exact word.bind fun _ => pure _
  · exact pure _

end Silent

theorem Silent.framed {w : Work α} (silent : Silent w) (depth : Nat) : Framed depth w :=
  fun b _ => ⟨[], .nil, .of_report (silent b)⟩

/-- The file of a report is opened, or it cannot be opened and nothing happens. -/
theorem execute_openReport (b : Workbench) :
    (∃ e, openReport.execute b = (.error e, b)) ∨
      ∃ opened, openReport.execute b = (.ok (), opened) ∧ opened.report.Ready ∧ Told b opened [] := by
  have attempted (p : Path) (content : String) : (attempt (writeFile p content)).execute b =
    (.ok ((writeFile p content).execute b).1, ((writeFile p content).execute b).2) := rfl
  unfold openReport
  rw [execute_next (execute_get b)]
  cases file : b.report.file with
  | none =>
    simp only [file]
    exact .inr ⟨b, rfl, .inl file, .of_report rfl⟩
  | some p =>
    cases opened : b.report.opened with
    | true =>
      simp only [file, opened]
      exact .inr ⟨b, rfl, .inr opened, .of_report rfl⟩
    | false =>
      simp only [file, opened]
      rw [execute_next (attempted p ""), execute_writeFile]
      cases b.suite.folder.write p "" with
      | error e => exact .inl ⟨_, rfl⟩
      | ok folder => exact .inr ⟨_, rfl, .inr rfl, String.append_empty.symm, rfl, fun _ => .inr rfl⟩

/-- Telling a line begins with opening the file of the report. -/
theorem execute_reportLine_opened {b opened : Workbench} (line : String) (opens : openReport.execute b = (.ok (), opened))
    (ready : opened.report.Ready) : (reportLine line).execute b = (reportLine line).execute opened := by
  have told : (reportLine line).execute b = (.ok (), { opened with report.text := opened.report.text ++ (line ++ "\n") }) :=
    execute_next opens
  rw [told]
  exact (execute_reportText ready _).symm

private theorem execute_reportLine_refused {b : Workbench} {e : Fault} (line : String)
    (refused : openReport.execute b = (.error e, b)) :
    (reportLine line).execute b = (.error e, b) := by
  unfold reportLine reportText
  rw [execute_bind, refused]

namespace Framed

variable {depth : Nat} {w : Work α}

/-- It is enough to look at reports that can be told, if the work begins with telling a line. -/
theorem of_ready
    (opened : ∀ b middle, openReport.execute b = (.ok (), middle) → middle.report.Ready →
      middle.report.margin = b.report.margin → w.execute b = w.execute middle)
    (refused : ∀ b e, openReport.execute b = (.error e, b) → w.execute b = (.error e, b))
    (framed : ∀ b, b.report.Ready → b.report.margin = Mark.margin depth →
      ∃ marks, Balanced depth marks ∧ Told b (w.execute b).2 marks) : Framed depth w := by
  intro b outer
  rcases execute_openReport b with ⟨e, failed⟩ | ⟨middle, opens, ready, told⟩
  · rw [refused b e failed]
    exact ⟨[], .nil, .of_report rfl⟩
  · rw [opened b middle opens ready told.margin]
    obtain ⟨marks, balanced, later⟩ := framed middle ready (told.margin.trans outer)
    exact ⟨marks, balanced, told.trans later⟩

theorem bind {f : α → Work β} (first : Framed depth w) (rest : ∀ a, Framed depth (f a)) : Framed depth (w >>= f) := by
  intro b outer
  obtain ⟨marks, balanced, told⟩ := first b outer
  rw [execute_bind]
  rcases found : w.execute b with ⟨e | a, middle⟩
  · rw [found] at told
    exact ⟨marks, balanced, told⟩
  · rw [found] at told
    obtain ⟨more, further, later⟩ := rest a middle (told.margin.trans outer)
    exact ⟨marks ++ more, balanced.append further, told.trans later⟩

theorem attempt (framed : Framed depth w) : Framed depth (attempt w) := framed

theorem forM {f : α → Work Unit} (each : ∀ a, Framed depth (f a)) (items : List α) : Framed depth (items.forM f) := by
  induction items with
  | nil => exact (Silent.pure ()).framed depth
  | cons a items ih => exact (each a).bind fun _ => ih

theorem reportLine (text : String) : Framed depth (reportLine (Mark.margin depth ++ text)) := by
  refine of_ready (fun _ _ opens ready _ => execute_reportLine_opened _ opens ready)
    (fun _ _ => execute_reportLine_refused _) fun b ready outer => ?_
  exact ⟨_, .lines depth [text], .reportLine ready text⟩

theorem tell (text : String) : Framed depth (tell text) := by
  intro b outer
  unfold Work.tell
  rw [execute_next (execute_get b), outer]
  exact forM reportLine _ b outer

theorem frame (title : String) (framed : Framed (depth + 1) w) : Framed depth (frame title w) := by
  -- The opening line opens the file; from then on the closing line can be told too, whatever happened between them.
  refine of_ready ?_ ?_ ?_
  · intro b middle opens ready margin
    unfold Work.frame
    rw [execute_next (execute_get b), execute_next (execute_get middle), margin, execute_bind, execute_bind,
      execute_reportLine_opened _ opens ready]
  · intro b e refused
    unfold Work.frame
    rw [execute_next (execute_get b), execute_bind, execute_reportLine_refused _ refused]
  · intro b ready outer
    obtain ⟨marks, balanced, told⟩ := framed (framing title b) (framing_margin title outer)
    rw [execute_frame ready (told.ready ready)]
    exact ⟨_, balanced.framed, told.framed outer⟩

theorem run (outside : Outside) (command : List String) : Framed depth (run outside command ignore Work.tell) := by
  have ends (before : Nat) (behaviour : Behaviour) : Silent (do
      let after ← readClock outside
      if behaviour.exit ≠ 0 then
        throw (.failedRun (shownCommand command) behaviour.exit behaviour.out behaviour.err)
      return (behaviour.out, after - before)) := by
    refine (Silent.readClock outside).bind fun after => ?_
    dsimp only
    split
    · exact (Silent.throw _).bind fun _ => .pure _
    · exact .pure _
  unfold Work.run
  refine ((Silent.readClock outside).framed depth).bind fun before => ?_
  refine ((Silent.start outside command).framed depth).bind fun behaviour => ?_
  refine (forM (fun _ => tell _) _).bind fun _ => (forM (fun _ => (Silent.pure ()).framed depth) _).bind fun _ => ?_
  dsimp only
  split
  · exact ((Silent.noteCall _).bind fun _ => (Silent.throw _).bind fun _ => ends before behaviour).framed depth
  · exact (ends before behaviour).framed depth

theorem runReported (outside : Outside) (command : List String) : Framed depth (runReported outside command) :=
  frame _ ((frame _ (run outside command)).bind fun (out, _) => (frame _ (tell out)).bind fun _ => (Silent.pure out).framed _)

end Framed

end Work

namespace Block

open Work

mutual

theorem carryOut_framed (outside : Outside) (depth : Nat) : ∀ block : Block, Framed depth (carryOut outside block)
  | output datum => by
    rw [carryOut]
    exact .tell _
  | run command => by
    rw [carryOut]
    exact (Framed.runReported outside command).bind fun _ => (Silent.pure ()).framed depth
  | fail cause => by
    rw [carryOut]
    exact (Silent.throw cause).framed depth
  | frame title body => by
    rw [carryOut]
    exact .frame title (carryOutAll_framed outside (depth + 1) body)

theorem carryOutAll_framed (outside : Outside) (depth : Nat) : ∀ blocks : List Block,
    Framed depth (carryOutAll outside blocks)
  | [] => by
    rw [carryOutAll]
    exact (Silent.pure ()).framed depth
  | block :: rest => by
    rw [carryOutAll]
    exact (carryOut_framed outside depth block).bind fun _ => carryOutAll_framed outside depth rest

end

end Block

/-! The commands that report. -/

namespace Interpretation

open Work

variable (outside : Outside) (command : List String) (stepwise : Bool) (filter : Option Filter)

private theorem readRecord_silent : Silent readRecord := by
  refine Silent.suite.bind fun s => ?_
  split
  · exact .pure _
  · split
    · exact .pure _
    · split
      · exact (Silent.note _).bind fun _ => .pure _
      · exact .throw _

private theorem answer_framed (depth : Nat) (c : Case) : Framed depth (answer outside command c) := by
  refine ((Silent.lift _).framed depth).bind fun input => (Framed.runReported outside _).attempt.bind fun result => ?_
  split
  · exact (Silent.lift _).framed depth
  · exact (Silent.pure _).framed depth
  · split
    · exact ((Silent.note _).bind fun _ => .pure _).framed depth
    · exact (Silent.throw _).framed depth

private theorem runCase_framed (depth : Nat) (c : Case) (title : String) :
    Framed depth (runCase outside command stepwise c title) := by
  refine .frame _ ((answer_framed outside command _ c).bind fun found => (Framed.tell _).bind fun _ => ?_)
  dsimp only
  split
  · exact (Silent.pure _).framed _
  · split
    · exact ((Silent.lift _).bind fun _ => (Silent.writeFile _ _).bind fun _ => (Silent.throw _).bind fun _ => .pure _).framed _
    · exact (Silent.pure _).framed _

private theorem runCases_framed (depth : Nat) (tally : Tally) (cases : List Case) :
    Framed depth (runCases outside command stepwise filter tally cases) := by
  induction cases generalizing tally with
  | nil => exact (Silent.pure tally).framed depth
  | cons c rest ih =>
    refine ((Silent.lift _).framed depth).bind fun title => ?_
    split
    · exact (runCase_framed outside command stepwise depth c title).bind fun _ => ih _
    · exact ih _

theorem carryOut_framed (depth : Nat) (program : List String) (asked : Option Bool) :
    Framed depth (carryOut outside program asked stepwise filter) := by
  refine ((Silent.launchCommand outside asked program).framed depth).bind fun command => ?_
  have goesOn (record : Option Case) : Framed depth (do
      let cases ← ask Suite.cases
      let tally ← runCases outside command stepwise filter {} (fromRecord record cases)
      removeFile recordFile
      tell ("Total " ++ toString tally.right ++ "/" ++ toString tally.count)) :=
    ((Silent.ask _).framed depth).bind fun _ => (runCases_framed outside command stepwise filter depth _ _).bind fun _ =>
      ((Silent.removeFile _).framed depth).bind fun _ => .tell _
  dsimp only
  split
  · exact (readRecord_silent.framed depth).bind goesOn
  · exact ((Silent.pure none).framed depth).bind goesOn

end Interpretation

namespace Trial

open Work

variable (outside : Outside) (command : List String) (filter : Option Filter)

private theorem introduce_framed (depth : Nat) : Framed depth (introduce outside command) := by
  refine .frame _ ((Framed.runReported outside _).bind fun out => ((Silent.lift _).framed _).bind fun info => ?_)
  exact .frame _ (.forM (fun _ => .tell _) _)

private theorem tryMethod_framed (depth : Nat) (id : AbsMethodId) (correct : List String) :
    Framed depth (tryMethod outside command id correct) := by
  refine .frame _ ((Framed.runReported outside _).bind fun out => ?_)
  refine (((Silent.noteAll _).bind fun _ => .lift _).framed _).bind fun response => ?_
  refine (Framed.frame _ (.forM (fun _ => .tell _) _)).bind fun _ => ?_
  exact (Framed.tell _).bind fun _ => (Silent.pure _).framed _

private theorem tryMethods_framed (depth : Nat) (total : Amount Float) (methods : Table AbsMethodId (List String)) :
    Framed depth (tryMethods outside command filter total methods) := by
  induction methods generalizing total with
  | nil => exact (Silent.pure total).framed depth
  | cons method rest ih =>
    unfold tryMethods
    split
    · exact (tryMethod_framed outside command depth _ _).bind fun _ => ih _
    · exact ih _

theorem carryOut_framed (depth : Nat) (program : List String) (asked : Option Bool) :
    Framed depth (carryOut outside program asked filter) := by
  refine ((Silent.launchCommand outside asked program).framed depth).bind fun command => ?_
  have trial : Framed depth (do
      let total ← tryMethods outside command filter (.whole 0) (← ask Suite.caseMethods)
      tell ("Total " ++ Decimal.fixed 2 total.toQuantity)) :=
    ((Silent.ask _).framed depth).bind fun methods =>
      (tryMethods_framed outside command filter depth _ methods).bind fun _ => .tell _
  dsimp only
  split
  · exact (introduce_framed outside command depth).bind fun _ => trial
  · exact trial

end Trial

end BytecodeBench
