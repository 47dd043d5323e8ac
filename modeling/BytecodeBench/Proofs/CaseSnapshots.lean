import BytecodeBench.OpenSuites
import BytecodeBench.Proofs.CaseFiles
import Mathlib.Data.List.Induction

/-! Cases that open suites keep. Between two resets of a suite, its first successful read decides what every
later one gives, whatever becomes of the file; a read that fails decides nothing. -/

namespace BytecodeBench

namespace Suite

variable {s : Suite} {found : List Case}

def decoded (s : Suite) : Except Fault (List Case) := readCases s.folder s.caseFile

def current (s : Suite) : Except Fault (List Case) :=
  match s.cached with
  | some cases => .ok cases
  | none => s.decoded

theorem current_kept (kept : s.cached = some found) : s.current = .ok found := by simp [current, kept]

theorem current_empty (empty : s.cached = none) : s.current = s.decoded := by simp [current, empty]

theorem current_failed {e : Fault} (failed : s.current = .error e) : s.decoded = .error e := by
  cases kept : s.cached with
  | none => rw [← current_empty kept, failed]
  | some cases =>
    rw [current_kept kept] at failed
    cases failed

theorem cases_eq (s : Suite) : s.cases = (s.current, { s with cached := s.current.toOption }) := by
  unfold cases
  cases kept : s.cached with
  | some cases =>
    rw [current_kept kept]
    simp [Except.toOption, ← kept]
  | none =>
    rw [current_empty kept, decoded]
    cases readCases s.folder s.caseFile <;> simp [Except.toOption, ← kept]

theorem decoded_of_file? {text : String} (held : s.folder.file? s.caseFile = some text) :
    s.decoded = (Folder.fileLines text).mapM Case.decode := by
  unfold decoded readCases
  rw [Folder.readLines_of_file? held]
  rfl

end Suite

namespace OpenSuites

inductive Operation
  | construct (home : Path)
  | forget (home : Path)
  | write (file : Path) (content : String)
  | cases (home : Path)
  | methods (home : Path)

inductive Answer
  | nothing
  | cases (found : List Case)
  | methods (found : Table AbsMethodId (List String))

namespace Operation

/-- The suite of the path has no cases after the operation, whatever it had before. A path that is not
absolute opens nothing. -/
def Resets (p : Path) : Operation → Prop
  | construct home => home = p ∧ home.rooted = true
  | forget home => home = p
  | _ => False

def Reads (p : Path) : Operation → Prop
  | cases home => home = p
  | methods home => home = p
  | _ => False

theorem Reads.not_resets {p : Path} {op : Operation} (reads : op.Reads p) : ¬op.Resets p := by
  cases op with
  | construct | forget | write => cases reads
  | cases | methods => exact id

def view : Operation → List Case → Answer
  | cases _, found => .cases found
  | methods _, found => .methods (Case.results found)
  | _, _ => .nothing

end Operation

/-- An operation that fails changes nothing. -/
def attempt (all : OpenSuites) : Except Fault OpenSuites → Except Fault Answer × OpenSuites
  | .ok after => (.ok .nothing, after)
  | .error e => (.error e, all)

def perform (all : OpenSuites) : Operation → Except Fault Answer × OpenSuites
  | .construct home => all.attempt (all.openAt home)
  | .forget home => (.ok .nothing, all.forget home)
  | .write file content => all.attempt (all.write file content)
  | .cases home => let (found, after) := all.cases home; (Answer.cases <$> found, after)
  | .methods home => let (found, after) := all.caseMethods home; (Answer.methods <$> found, after)

def answer (all : OpenSuites) (op : Operation) : Except Fault Answer := (all.perform op).1

def after (all : OpenSuites) (history : List Operation) : OpenSuites :=
  history.foldl (fun all op => (all.perform op).2) all

variable {all start : OpenSuites} {p home : Path} {op read : Operation} {found : List Case}
  {history since : List Operation}

theorem after_append (all : OpenSuites) (first second : List Operation) :
    all.after (first ++ second) = (all.after first).after second := List.foldl_append

theorem after_concat (all : OpenSuites) (history : List Operation) (op : Operation) :
    all.after (history ++ [op]) = ((all.after history).perform op).2 := all.after_append history [op]

/-! Steps. -/

def keep (all : OpenSuites) (p : Path) (cases : Option (List Case)) : OpenSuites :=
  { all with kept := all.kept.insert p cases }

theorem cached_keep (cases : Option (List Case)) :
    ((all.keep home cases).suite p).cached = if p = home then cases else (all.suite p).cached := by
  have looked := Table.find?_insert p home cases all.kept
  simp only [suite, keep, looked, beq_iff_eq]
  split <;> rfl

/-- A read gives what the suite has and keeps it; a read that fails leaves nothing. -/
theorem perform_read (reads : op.Reads p) :
    all.perform op = (op.view <$> (all.suite p).current, all.keep p (all.suite p).current.toOption) := by
  cases op with
  | cases home =>
    cases reads
    simp only [perform, OpenSuites.cases, consult, Suite.cases_eq]
    rfl
  | methods home =>
    cases reads
    simp only [perform, OpenSuites.caseMethods, consult, Suite.caseMethods, Suite.cases_eq]
    cases (all.suite p).current <;> rfl
  | _ => cases reads

private theorem perform_reset (resets : op.Resets p) : (all.perform op).2 = all.keep p none := by
  cases op with
  | construct home =>
    obtain ⟨rfl, rooted⟩ := resets
    simp [perform, openAt, Suite.requireRooted, rooted, bind, Except.bind, pure, Except.pure, attempt, renew, keep]
  | forget home =>
    cases resets
    rfl
  | _ => cases resets

/-- An operation changes what the suite keeps that it is for, or it writes a file, or it changes nothing. -/
theorem perform_state (all : OpenSuites) (op : Operation) :
    (∃ home cases, (op.Resets home ∨ op.Reads home) ∧ (all.perform op).2 = all.keep home cases) ∨
    (∃ file content, op = .write file content) ∧ (all.perform op).2.kept = all.kept ∨
    (all.perform op).2 = all := by
  cases op with
  | construct home =>
    by_cases rooted : home.rooted = true
    · have own : (Operation.construct home).Resets home := ⟨rfl, rooted⟩
      exact Or.inl ⟨home, none, Or.inl own, perform_reset own⟩
    · apply Or.inr
      simp [perform, openAt, Suite.requireRooted, rooted, bind, Except.bind, attempt]
  | forget home => exact Or.inl ⟨home, none, Or.inl rfl, rfl⟩
  | write file content =>
    refine Or.inr (Or.inl ⟨⟨file, content, rfl⟩, ?_⟩)
    simp only [perform, OpenSuites.write]
    cases all.folder.write file content <;> rfl
  | cases home =>
    have own : (Operation.cases home).Reads home := rfl
    exact Or.inl ⟨home, _, Or.inr own, congrArg Prod.snd (perform_read own)⟩
  | methods home =>
    have own : (Operation.methods home).Reads home := rfl
    exact Or.inl ⟨home, _, Or.inr own, congrArg Prod.snd (perform_read own)⟩

private theorem perform_other (calm : ¬op.Resets p) (blind : ¬op.Reads p) :
    ((all.perform op).2.suite p).cached = (all.suite p).cached := by
  rcases all.perform_state op with ⟨home, cases, concerns, state⟩ | ⟨-, kept⟩ | state
  · have apart : p ≠ home := by
      intro same
      exact concerns.elim (same ▸ calm) (same ▸ blind)
    rw [state, cached_keep, if_neg apart]
  · simp only [suite, kept]
  · rw [state]

/-- Files change only where they are written. -/
theorem perform_folder (unwritten : ∀ file content, op ≠ .write file content) :
    (all.perform op).2.folder = all.folder := by
  rcases all.perform_state op with ⟨home, cases, -, state⟩ | ⟨⟨file, content, same⟩, -⟩ | state
  · rw [state]
    rfl
  · exact absurd same (unwritten file content)
  · rw [state]

private theorem decoded_write {after : OpenSuites} {content : String}
    (written : all.write (all.suite p).caseFile content = .ok after) :
    (after.suite p).decoded = (Folder.fileLines content).mapM Case.decode := by
  obtain ⟨folder, stored, same⟩ := bind_eq_ok.mp written
  cases same
  exact Suite.decoded_of_file? (Folder.file?_write stored)

/-! Runs. -/

def Unread (start : OpenSuites) (p : Path) (history : List Operation) : Prop :=
  ∀ early read late, history = early ++ read :: late → read.Reads p →
    ∃ e, (start.after early).answer read = .error e

/-- The first successful read of the suite found the cases in its file. -/
def Snapshot (start : OpenSuites) (p : Path) (history : List Operation) (cases : List Case) : Prop :=
  ∃ early first late, history = early ++ first :: late ∧ first.Reads p ∧ start.Unread p early ∧
    ((start.after early).suite p).decoded = .ok cases ∧
    (start.after early).answer first = .ok (first.view cases)

def Accounts (start : OpenSuites) (p : Path) (history : List Operation) : Option (List Case) → Prop
  | none => start.Unread p history
  | some cases => start.Snapshot p history cases

theorem Unread.concat (unread : start.Unread p since)
    (next : op.Reads p → ∃ e, (start.after since).answer op = .error e) : start.Unread p (since ++ [op]) := by
  intro early read late split reads
  -- The read is the new operation, or nothing new.
  rcases List.eq_nil_or_concat late with rfl | ⟨late, last, rfl⟩
  · obtain ⟨rfl, single⟩ := List.append_inj' split rfl
    cases single
    exact next reads
  · rw [List.concat_eq_append, ← List.cons_append, ← List.append_assoc] at split
    obtain ⟨rfl, -⟩ := List.append_inj' split rfl
    exact unread early read late rfl reads

theorem Snapshot.concat (taken : start.Snapshot p since found) (op : Operation) :
    start.Snapshot p (since ++ [op]) found := by
  obtain ⟨early, first, late, rfl, rest⟩ := taken
  exact ⟨early, first, late ++ [op], by simp, rest⟩

theorem Snapshot.not_unread (taken : start.Snapshot p since found) : ¬start.Unread p since := by
  obtain ⟨early, first, late, split, reads, -, -, answered⟩ := taken
  intro unread
  obtain ⟨e, failed⟩ := unread early first late split reads
  rw [answered] at failed
  cases failed

theorem answer_read (reads : op.Reads p) : all.answer op = op.view <$> (all.suite p).current :=
  congrArg Prod.fst (perform_read reads)

private theorem answer_eq_ok {given : Answer} (reads : op.Reads p) (succeeded : all.answer op = .ok given) :
    ∃ cases, (all.suite p).current = .ok cases ∧ given = op.view cases := by
  rw [answer_read reads] at succeeded
  cases current : (all.suite p).current with
  | error e =>
    rw [current] at succeeded
    cases succeeded
  | ok cases =>
    rw [current] at succeeded
    cases succeeded
    exact ⟨cases, rfl, rfl⟩

private theorem answer_eq_error {e : Fault} (reads : op.Reads p) (failed : all.answer op = .error e) :
    (all.suite p).current = .error e := by
  rw [answer_read reads] at failed
  cases current : (all.suite p).current with
  | error e =>
    rw [current] at failed
    cases failed
    rfl
  | ok cases =>
    rw [current] at failed
    cases failed

theorem cached_read (reads : op.Reads p) :
    ((all.perform op).2.suite p).cached = (all.suite p).current.toOption := by
  rw [perform_read reads, cached_keep, if_pos rfl]

private theorem cached_reset (resets : op.Resets p) : ((all.perform op).2.suite p).cached = none := by
  rw [perform_reset resets, cached_keep, if_pos rfl]

theorem cached_after_reset (all : OpenSuites) (before : List Operation) (resets : op.Resets p) :
    ((all.after (before ++ [op])).suite p).cached = none := by
  rw [after_concat, cached_reset resets]

theorem Accounts.eq_none {kept : Option (List Case)} (accounted : start.Accounts p since kept)
    (unread : start.Unread p since) : kept = none := by
  cases kept with
  | none => rfl
  | some cases => exact absurd unread (Snapshot.not_unread accounted)

theorem Accounts.step (accounted : start.Accounts p since ((start.after since).suite p).cached) (calm : ¬op.Resets p) :
    start.Accounts p (since ++ [op]) ((start.after (since ++ [op])).suite p).cached := by
  rw [after_concat]
  by_cases reads : op.Reads p
  · rw [cached_read reads]
    cases kept : ((start.after since).suite p).cached with
    | some cases =>
      rw [kept] at accounted
      rw [Suite.current_kept kept]
      exact Snapshot.concat accounted op
    | none =>
      -- Only here is the file asked, and a success makes this read the first one.
      rw [kept] at accounted
      have given : (start.after since).answer op = _ := answer_read reads
      rw [Suite.current_empty kept] at given ⊢
      cases file : ((start.after since).suite p).decoded with
      | error e =>
        rw [file] at given
        exact Unread.concat accounted fun _ => ⟨e, given⟩
      | ok cases =>
        rw [file] at given
        exact ⟨since, op, [], rfl, reads, accounted, file, given⟩
  · rw [perform_other calm reads]
    cases kept : ((start.after since).suite p).cached with
    | some cases =>
      rw [kept] at accounted
      exact Snapshot.concat accounted op
    | none =>
      rw [kept] at accounted
      exact Unread.concat accounted fun read => absurd read reads

/-- What a suite keeps is accounted for by what happened since it kept nothing. -/
theorem accounts_run (empty : (start.suite p).cached = none) (calm : ∀ op ∈ since, ¬op.Resets p) :
    start.Accounts p since ((start.after since).suite p).cached := by
  induction since using List.reverseRecOn with
  | nil =>
    have fresh : start.Accounts p [] none := by
      intro early read late split
      simp at split
    exact empty ▸ fresh
  | append_singleton since op ih =>
    have earlier := ih fun other member => calm other (List.mem_append_left [op] member)
    exact earlier.step (calm op (by simp))

private theorem empty_run (empty : (start.suite p).cached = none) (blind : ∀ op ∈ since, ¬op.Reads p) :
    ((start.after since).suite p).cached = none := by
  induction since generalizing start with
  | nil => exact empty
  | cons op since ih =>
    refine ih ?_ fun other member => blind other (List.mem_cons_of_mem op member)
    by_cases resets : op.Resets p
    · exact cached_reset resets
    · rw [perform_other resets (blind op List.mem_cons_self), empty]

theorem answer_empty (empty : (all.suite p).cached = none) (reads : read.Reads p) :
    all.answer read = read.view <$> (all.suite p).decoded := by
  rw [answer_read reads, Suite.current_empty empty]

private theorem cached_failed {e : Fault} (reads : read.Reads p) (failed : all.answer read = .error e) :
    ((all.perform read).2.suite p).cached = none := by
  rw [cached_read reads, answer_eq_error reads failed]
  rfl

/-- A suite decodes its file again after a read that failed, and after whatever else happened since then. -/
theorem answer_after_failure {next : Operation} {e : Fault} (reads : read.Reads p) (failed : all.answer read = .error e)
    (blind : ∀ op ∈ since, ¬op.Reads p) (again : next.Reads p) :
    (all.after (read :: since)).answer next = next.view <$> ((all.after (read :: since)).suite p).decoded := by
  have still : (((all.perform read).2.after since).suite p).cached = none :=
    empty_run (cached_failed reads failed) blind
  exact answer_empty still again

/-- Between two resets of a suite, every successful read gives the cases that its file held at the first
one. Until then each read decodes the file, and fails for its first malformed line; a read that fails
leaves the suite empty, so the next one decodes the file once more. The file is what was last written. -/
theorem reads_give_first_snapshot (all : OpenSuites) {p : Path} (before : List Operation) {since : List Operation}
    {reset read : Operation} (resets : reset.Resets p) (calm : ∀ op ∈ since, ¬op.Resets p) (reads : read.Reads p) :
    let start := all.after (before ++ [reset])
    let now := start.after since
    (∀ given, now.answer read = .ok given →
      ∃ cases, start.Snapshot p (since ++ [read]) cases ∧ given = read.view cases) ∧
    (start.Unread p since → now.answer read = read.view <$> (now.suite p).decoded) ∧
    (∀ text early line late fault, start.Unread p since → now.folder.file? (now.suite p).caseFile = some text →
      Folder.fileLines text = early ++ line :: late → (∀ other ∈ early, ∃ c, Case.decode other = .ok c) →
      Case.decode line = .error fault → now.answer read = .error fault) ∧
    (∀ fault, now.answer read = .error fault →
      (now.suite p).decoded = .error fault ∧ ((now.perform read).2.suite p).cached = none ∧
      ∀ later next, (∀ op ∈ later, ¬op.Reads p) → next.Reads p →
        let meanwhile := now.after (read :: later)
        meanwhile.answer next = next.view <$> (meanwhile.suite p).decoded) ∧
    (∀ content after, now.write (now.suite p).caseFile content = .ok after →
      (after.suite p).decoded = (Folder.fileLines content).mapM Case.decode) ∧
    (∀ op, (∀ file content, op ≠ .write file content) → (now.perform op).2.folder = now.folder) := by
  intro start now
  have accounted : start.Accounts p since (now.suite p).cached := accounts_run (all.cached_after_reset before resets) calm
  refine ⟨?_, ?_, ?_, ?_, fun _ _ => decoded_write, fun _ => perform_folder⟩
  · intro given succeeded
    obtain ⟨cases, current, rfl⟩ := answer_eq_ok reads succeeded
    have taken := accounted.step reads.not_resets
    rw [after_concat, cached_read reads, current] at taken
    exact ⟨cases, taken, rfl⟩
  · intro unread
    exact answer_empty (accounted.eq_none unread) reads
  · intro text early line late fault unread held lines fine malformed
    have refused : (now.suite p).decoded = .error fault := by
      rw [Suite.decoded_of_file? held, lines, mapM_first_error fine malformed]
    rw [answer_empty (accounted.eq_none unread) reads, refused]
    rfl
  · intro fault failed
    refine ⟨Suite.current_failed (answer_eq_error reads failed), cached_failed reads failed, ?_⟩
    intro later next blind again
    exact answer_after_failure reads failed blind again

def sampleHome : Path := .ofText "/work"

def sampleFile : Path := .ofText "/work/target/stats/cases.txt"

def sampleSuites (content : String) (kept : Option (List Case)) : OpenSuites where
  folder := { root := sampleHome, entries := [(["target", "stats", "cases.txt"], .file content)] }
  kept := [(sampleHome, kept)]

def sampleCases : List Case :=
  [⟨⟨⟨"a.B"⟩, ⟨"f", [.int], none⟩⟩, ⟨[.int 1]⟩, "*"⟩, ⟨⟨⟨"a.B"⟩, ⟨"f", [.int], none⟩⟩, ⟨[.int 2]⟩, "ok"⟩]

/-- The file is damaged, repaired after a read failed, and emptied after a read succeeded. -/
def sampleHistory : List Operation :=
  [.write sampleFile "a.B.f:(I)V (1) -> *\njunk\n", .cases sampleHome,
    .write sampleFile "a.B.f:(I)V (1) -> *\na.B.f:(I)V (2) -> ok\n", .methods sampleHome, .write sampleFile ""]

private theorem sampleSuites_write (content next : String) (kept : Option (List Case)) :
    ((sampleSuites content kept).perform (.write sampleFile next)).2 = sampleSuites next kept := by
  with_unfolding_all rfl

private theorem sampleSuites_read (content : String) {current : Except Fault (List Case)} {op : Operation}
    (reads : op.Reads sampleHome)
    (known : ((sampleSuites content none).suite sampleHome).decoded = current) :
    ((sampleSuites content none).perform op).2 = sampleSuites content current.toOption := by
  have empty : ((sampleSuites content none).suite sampleHome).cached = none := by with_unfolding_all rfl
  have performed : (sampleSuites content none).perform op = _ := perform_read reads
  rw [Suite.current_empty empty, known] at performed
  exact congrArg Prod.snd performed

theorem sampleHistory_gives_repaired_file :
    let start := (sampleSuites "" (some sampleCases)).after ([.cases sampleHome] ++ [.construct sampleHome])
    (start.after sampleHistory).answer (.cases sampleHome) = .ok (.cases sampleCases) ∧
      start.Snapshot sampleHome (sampleHistory ++ [.cases sampleHome]) sampleCases := by
  intro start
  have resets : (Operation.construct sampleHome).Resets sampleHome := ⟨rfl, by decide⟩
  have calm : ∀ op ∈ sampleHistory, ¬op.Resets sampleHome := by
    simp [sampleHistory, Operation.Resets]
  have reads : (Operation.cases sampleHome).Reads sampleHome := rfl
  have counts : (Operation.methods sampleHome).Reads sampleHome := rfl
  have damaged : ((sampleSuites "a.B.f:(I)V (1) -> *\njunk\n" none).suite sampleHome).decoded =
      .error (.unexpectedLine (Text.quoted "junk\n")) := by
    with_unfolding_all rfl
  have repaired : ((sampleSuites "a.B.f:(I)V (1) -> *\na.B.f:(I)V (2) -> ok\n" none).suite sampleHome).decoded =
      .ok sampleCases := by
    with_unfolding_all rfl
  have opened : start = sampleSuites "" none := by
    with_unfolding_all rfl
  have last : start.after sampleHistory = sampleSuites "" (some sampleCases) := by
    simp only [opened, after, sampleHistory, List.foldl_cons, List.foldl_nil, sampleSuites_write,
      sampleSuites_read _ reads damaged, sampleSuites_read _ counts repaired, Except.toOption]
  have kept : ((sampleSuites "" (some sampleCases)).suite sampleHome).cached = some sampleCases := by
    with_unfolding_all rfl
  have succeeded : (start.after sampleHistory).answer (.cases sampleHome) = .ok (.cases sampleCases) := by
    rw [last, answer_read reads, Suite.current_kept kept]
    rfl
  obtain ⟨cases, taken, same⟩ := (reads_give_first_snapshot _ [.cases sampleHome] resets calm reads).1 _ succeeded
  cases same
  exact ⟨succeeded, taken⟩

end OpenSuites

end BytecodeBench
