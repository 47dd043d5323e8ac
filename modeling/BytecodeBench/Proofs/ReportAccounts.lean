import BytecodeBench.Proofs.ReportFrames

/-! What a tree of parts tells, line by line: each part its own lines, up to the first that fails, and the frames around
it are closed. -/

namespace BytecodeBench

open Mark

def Mark.heard (depth : Nat) (text : String) : List Mark :=
  (Folder.linesWithEnds [] text.toList).flatMap fun line => lines depth (String.ofList line.toList.dropLast)

theorem Mark.Balanced.heard (depth : Nat) (text : String) : Balanced depth (heard depth text) := by
  unfold Mark.heard
  induction Folder.linesWithEnds [] text.toList with
  | nil => exact .nil
  | cons line rest ih => exact (Balanced.lines depth _).append ih

def runEnding (command : List String) : Option Behaviour → Except Fault String
  | none => .error .missingFile
  | some behaviour => behaviour.ending command

/-- What is told of running a program. What it printed is told only if it ended well. -/
def runMarks (depth : Nat) (command : List String) (behaviour : Option Behaviour) : List Mark :=
  framed depth ("Run " ++ Text.shellCommand command)
    (framed (depth + 1) "Stderr" (heard (depth + 2) (behaviour.elim "" Behaviour.err)) ++
      match runEnding command behaviour with
      | .ok out => framed (depth + 1) "Stdout" (lines (depth + 2) out)
      | .error _ => [])

private theorem runMarks_balanced (depth : Nat) (command : List String) (behaviour : Option Behaviour) :
    Balanced depth (runMarks depth command behaviour) := by
  refine .framed (.append (.framed (.heard _ _)) ?_)
  split
  · exact .framed (.lines _ _)
  · exact .nil

/-- What is told within so many frames, how many programs were started then, and how it ends. -/
structure Account (depth : Nat) where
  marks : List Mark
  balanced : Balanced depth marks
  started : Nat
  ending : Except Fault Unit

namespace Block

mutual

def account (outside : Outside) (depth started : Nat) : Block → Account depth
  | output datum => ⟨lines depth datum.display, .lines _ _, started, .ok ()⟩
  | run command =>
    let behaviour := outside.behaviour started command
    ⟨runMarks depth command behaviour, runMarks_balanced _ _ _, started + 1, (runEnding command behaviour).map fun _ => ()⟩
  | fail cause => ⟨[], .nil, started, .error cause⟩
  | frame title body =>
    let inside := accountAll outside (depth + 1) started body
    ⟨framed depth title inside.marks, inside.balanced.framed, inside.started, inside.ending⟩

/-- What parts of a report tell up to the first that fails. -/
def accountAll (outside : Outside) (depth started : Nat) : List Block → Account depth
  | [] => ⟨[], .nil, started, .ok ()⟩
  | block :: rest =>
    let first := account outside depth started block
    match first.ending with
    | .ok () =>
      let others := accountAll outside depth first.started rest
      ⟨first.marks ++ others.marks, first.balanced.append others.balanced, others.started, others.ending⟩
    | .error _ => first

end

end Block

namespace Work

variable {α β : Type}

/-- Where the report can be told, some work tells these lines, and ends as described. -/
def Reports (w : Work α) (depth started : Nat) (marks : List Mark) (later : Nat) (post : Except Fault α → Prop) : Prop :=
  ∀ b : Workbench, b.report.Ready → b.report.margin = Mark.margin depth → b.started = started →
    post (w.execute b).1 ∧ (w.execute b).2.started = later ∧ Told b (w.execute b).2 marks

private theorem execute_hear_ignore (text : String) (b : Workbench) : (hear text ignore).execute b = (.ok (), b) := by
  unfold hear
  induction Folder.linesWithEnds [] text.toList with
  | nil => rfl
  | cons line rest ih => exact ih

namespace Reports

variable {w : Work α} {f : α → Work β} {depth started middle later : Nat} {marks more : List Mark}
  {post : Except Fault α → Prop} {last : Except Fault β → Prop} {outside : Outside} {command : List String}

theorem pure {a : α} (holds : post (.ok a)) : Reports (Pure.pure a) depth started [] started post :=
  fun _ _ _ same => ⟨holds, same, .of_report rfl⟩

theorem throw {e : Fault} (holds : post (.error e)) : Reports (throw e : Work α) depth started [] started post :=
  fun _ _ _ same => ⟨holds, same, .of_report rfl⟩

theorem bind (first : Reports w depth started marks middle post)
    (rest : ∀ a, post (.ok a) → Reports (f a) depth middle more later last)
    (stops : ∀ e, post (.error e) → last (.error e) ∧ more = [] ∧ middle = later) :
    Reports (w >>= f) depth started (marks ++ more) later last := by
  intro b ready outer same
  obtain ⟨holds, reached, told⟩ := first b ready outer same
  rw [execute_bind]
  rcases found : w.execute b with ⟨e | a, next⟩
  · rw [found] at holds reached told
    obtain ⟨done, rfl, rfl⟩ := stops e holds
    exact ⟨done, reached, told.trans (.of_report rfl)⟩
  · rw [found] at holds reached told
    obtain ⟨done, ended, further⟩ := rest a holds next (told.ready ready) (told.margin.trans outer) reached
    exact ⟨done, ended, told.trans further⟩

theorem next {a : α} (first : Reports w depth started marks middle (· = .ok a))
    (rest : Reports (f a) depth middle more later last) : Reports (w >>= f) depth started (marks ++ more) later last := by
  refine first.bind ?_ ?_
  · intro other same
    cases same
    exact rest
  · intro e impossible
    cases impossible

theorem stop {e : Fault} (first : Reports w depth started marks later (· = .error e)) (holds : last (.error e)) :
    Reports (w >>= f) depth started marks later last := by
  rw [← List.append_nil marks]
  refine first.bind ?_ ?_
  · intro a impossible
    cases impossible
  · intro other same
    cases same
    exact ⟨holds, rfl, rfl⟩

/-- Goes on after some work that tells nothing. -/
theorem skip (goes : ∀ b, b.started = started →
      ∃ a after, w.execute b = (.ok a, after) ∧ after.report = b.report ∧ after.started = middle ∧
        Reports (f a) depth middle marks later last) : Reports (w >>= f) depth started marks later last := by
  intro b ready outer same
  obtain ⟨a, after, done, report, reached, rest⟩ := goes b same
  rw [execute_next done]
  have told : Told b after [] := .of_report report
  obtain ⟨holds, ended, further⟩ := rest after (told.ready ready) (told.margin.trans outer) reached
  exact ⟨holds, ended, told.trans further⟩

theorem forM {f : α → Work Unit} {tells : α → List Mark}
    (each : ∀ a, Reports (f a) depth started (tells a) started (· = .ok ())) (items : List α) :
    Reports (items.forM f) depth started (items.flatMap tells) started (· = .ok ()) := by
  induction items with
  | nil => exact pure rfl
  | cons a items ih => exact (each a).next ih

theorem reportLine (text : String) :
    Reports (reportLine (Mark.margin depth ++ text)) depth started [line depth text] started (· = .ok ()) := by
  intro b ready outer same
  have told : Told b _ [line depth text] := .reportLine ready text
  rw [Work.reportLine, execute_reportText ready] at told ⊢
  exact ⟨rfl, same, told⟩

theorem tell (text : String) : Reports (tell text) depth started (lines depth text) started (· = .ok ()) := by
  intro b ready outer same
  unfold Work.tell lines
  rw [execute_next (execute_get b), outer, List.map_eq_flatMap]
  exact forM reportLine _ b ready outer same

theorem frame (title : String) (within : Reports w (depth + 1) started marks later post) :
    Reports (frame title w) depth started (framed depth title marks) later post := by
  intro b ready outer same
  obtain ⟨holds, reached, told⟩ := within (framing title b) ready (framing_margin title outer) same
  rw [execute_frame ready (told.ready ready)]
  exact ⟨holds, reached, told.framed outer⟩

/-- What a program prints on its way is told as it is heard. -/
theorem run (outside : Outside) (command : List String) (depth started : Nat) :
    Reports (run outside command ignore Work.tell) depth started
      (heard depth ((outside.behaviour started command).elim "" Behaviour.err)) (started + 1)
      (fun result => result.map Prod.fst = runEnding command (outside.behaviour started command)) := by
  -- The times that are read are part of the result, but neither the lines nor the ending depend on them.
  have clock {f : Nat → Work (String × Nat)} {started later : Nat} {marks : List Mark}
      {post : Except Fault (String × Nat) → Prop} (rest : ∀ time, Reports (f time) depth started marks later post) :
      Reports (readClock outside >>= f) depth started marks later post :=
    skip fun b same => ⟨_, _, rfl, rfl, same, rest _⟩
  unfold Work.run
  refine clock fun before => ?_
  cases known : outside.behaviour started command with
  | none =>
    refine stop (e := .missingFile) ?_ rfl
    rintro b - - rfl
    rw [execute_start, known]
    exact ⟨rfl, rfl, .of_report rfl⟩
  | some behaviour =>
    apply skip
    intro b same
    have begun := execute_start outside command b
    rw [same, known] at begun
    refine ⟨behaviour, _, begun, rfl, rfl, ?_⟩
    rw [← List.append_nil (heard _ _)]
    refine (forM (fun _ => tell _) _).next (skip fun b same => ⟨(), b, execute_hear_ignore _ b, rfl, same, ?_⟩)
    dsimp only
    by_cases late : behaviour.overdue = true
    · rw [if_pos late]
      refine skip fun b same => ⟨_, _, rfl, rfl, same, stop (throw rfl) ?_⟩
      simp [runEnding, Behaviour.ending, late, Except.map]
    · rw [if_neg late]
      refine clock fun time => ?_
      split
      next failed => exact stop (throw rfl) (by simp [runEnding, Behaviour.ending, late, failed, Except.map])
      next done => exact pure (by simp [runEnding, Behaviour.ending, late, done, Except.map])

theorem runReported (outside : Outside) (command : List String) (depth started : Nat) :
    Reports (runReported outside command) depth started (runMarks depth command (outside.behaviour started command))
      (started + 1) (· = runEnding command (outside.behaviour started command)) := by
  unfold Work.runReported runMarks
  refine frame _ ((frame "Stderr" (run outside command _ _)).bind ?_ ?_)
  · rintro ⟨out, time⟩ ends
    rw [← ends]
    change Reports _ _ _ (framed (depth + 1) "Stdout" (lines (depth + 2) out)) _ _
    rw [← List.append_nil (framed _ _ _)]
    exact (frame "Stdout" (tell out)).next (pure rfl)
  · intro e ends
    rw [← ends]
    exact ⟨rfl, rfl, rfl⟩

end Reports

end Work

namespace Block

open Work

mutual

theorem carryOut_reports (outside : Outside) (depth started : Nat) : ∀ block : Block,
    Reports (carryOut outside block) depth started (account outside depth started block).marks
      (account outside depth started block).started (· = (account outside depth started block).ending)
  | output datum => by
    rw [carryOut, account]
    exact .tell _
  | run command => by
    rw [carryOut, account]
    dsimp only
    rw [← List.append_nil (runMarks _ _ _)]
    refine (Reports.runReported outside command depth started).bind ?_ ?_
    · intro out ends
      rw [← ends]
      exact .pure rfl
    · intro e ends
      rw [← ends]
      exact ⟨rfl, rfl, rfl⟩
  | fail cause => by
    rw [carryOut, account]
    exact .throw rfl
  | frame title body => by
    rw [carryOut, account]
    exact .frame title (carryOutAll_reports outside (depth + 1) started body)

theorem carryOutAll_reports (outside : Outside) (depth started : Nat) : ∀ blocks : List Block,
    Reports (carryOutAll outside blocks) depth started (accountAll outside depth started blocks).marks
      (accountAll outside depth started blocks).started (· = (accountAll outside depth started blocks).ending)
  | [] => by
    rw [carryOutAll, accountAll]
    exact .pure rfl
  | block :: rest => by
    have first := carryOut_reports outside depth started block
    rw [carryOutAll, accountAll]
    dsimp only
    split
    next ends =>
      rw [ends] at first
      exact first.next (carryOutAll_reports outside depth _ rest)
    next e ends =>
      rw [ends] at first
      exact first.stop ends.symm

end

end Block

/-- A report that begins outside of all frames stays balanced, and ends outside of them, whatever is reported and
wherever it stops: a tree of frames tells exactly its lines up to the first fault, and the commands that report tell
balanced lines, even if the file of the report cannot be opened on the way. -/
theorem Work.reports_stay_balanced (outside : Outside) (b : Workbench) (unframed : b.report.margin = "") :
    (∀ blocks, b.report.Ready →
      let told := Block.accountAll outside 0 b.started blocks
      ((Block.carryOutAll outside blocks).execute b).1 = told.ending ∧ Balanced 0 told.marks ∧
        Told b ((Block.carryOutAll outside blocks).execute b).2 told.marks) ∧
    (∀ blocks, ∃ marks, Balanced 0 marks ∧ Told b ((Block.carryOutAll outside blocks).execute b).2 marks) ∧
    (∀ program asked stepwise filter, ∃ marks, Balanced 0 marks ∧
      Told b ((Interpretation.carryOut outside program asked stepwise filter).execute b).2 marks) ∧
    ∀ program asked filter, ∃ marks, Balanced 0 marks ∧
      Told b ((Trial.carryOut outside program asked filter).execute b).2 marks := by
  refine ⟨?_, ?_, ?_, ?_⟩
  · intro blocks ready
    obtain ⟨ends, -, told⟩ := Block.carryOutAll_reports outside 0 b.started blocks b ready unframed rfl
    exact ⟨ends, (Block.accountAll outside 0 b.started blocks).balanced, told⟩
  · intro blocks
    exact Block.carryOutAll_framed outside 0 blocks b unframed
  · intro program asked stepwise filter
    exact Interpretation.carryOut_framed outside stepwise filter 0 program asked b unframed
  · intro program asked filter
    exact Trial.carryOut_framed outside filter 0 program asked b unframed

def sluggish : Outside where
  behaviour _ _ := some { err := "late\n", overdue := true }
  tick _ := 1
  prime _ := none
  interpreter := "/bin/script"
  find _ := none

/-- A program is run within two frames; nothing is told behind it. -/
def interruptedParts : List Block :=
  [.frame "outer" [.output (.text "a\nb"), .frame "inner" [.run ["prog"], .output (.text "never")]],
    .output (.text "never")]

def blankBench : Workbench := { suite := .ofFolder { root := .ofText "/bench" } }

theorem interruptedParts_stay_balanced :
    blankBench.report.margin = "" ∧ blankBench.report.Ready ∧
      ((Block.carryOutAll sluggish interruptedParts).execute blankBench).1 = .error .overdueRun ∧
      ((Block.carryOutAll sluggish interruptedParts).execute blankBench).2.report.text =
        "┌ outer\n│ a\n│ b\n│┌ inner\n││┌ Run prog\n│││┌ Stderr\n││││ late\n│││└ Stderr\n││└ Run prog\n│└ inner\n└ outer\n" ∧
      ((Block.carryOutAll sluggish interruptedParts).execute blankBench).2.report.margin = "" := by
  obtain ⟨ends, -, told⟩ := (Work.reports_stay_balanced sluggish blankBench rfl).1 interruptedParts (.inl rfl)
  exact ⟨rfl, .inl rfl, ends.trans rfl, told.text.trans (by decide +kernel), told.margin⟩

end BytecodeBench
