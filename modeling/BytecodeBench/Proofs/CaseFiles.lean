import BytecodeBench.Proofs.CaseTexts
import BytecodeBench.Proofs.Tables
import BytecodeBench.Suite

/-! Cases in files. Reading a file leaves one kind of line end, so the cases of a suite hold no carriage
return, and the text of one of them is found in a file as it was written there. -/

namespace BytecodeBench

namespace Folder

variable {f : Folder} {p : Path} {parts : List String} {content : String}

/-! Texts of files. -/

private theorem unifyLineEnds_clear (cs : List Char) : '\r' ∉ unifyLineEnds cs := by
  fun_induction unifyLineEnds cs with
  | case1 rest ih => simpa using ih
  | case2 rest _ ih => simpa using ih
  | case3 c rest _ other ih =>
    rintro (_ | ⟨_, member⟩)
    · exact other rfl
    · exact ih member
  | case4 => exact List.not_mem_nil

private theorem unifyLineEnds_of_clear {cs : List Char} (absent : '\r' ∉ cs) : unifyLineEnds cs = cs := by
  fun_induction unifyLineEnds cs with
  | case1 rest ih => exact absurd List.mem_cons_self absent
  | case2 rest _ ih => exact absurd List.mem_cons_self absent
  | case3 c rest _ other ih => rw [ih fun member => absent (List.mem_cons_of_mem c member)]
  | case4 => rfl

theorem linesWithEnds_within {line cs : List Char} {found : String} (member : found ∈ linesWithEnds line cs) :
    ∀ c ∈ found.toList, c ∈ line ∨ c ∈ cs := by
  fun_induction linesWithEnds line cs with
  | case1 line empty => cases member
  | case2 line filled =>
    intro c inside
    rw [List.mem_singleton.mp member, String.toList_ofList, List.mem_reverse] at inside
    exact Or.inl inside
  | case3 line rest ih =>
    intro c inside
    rcases List.mem_cons.mp member with rfl | later
    · rw [String.toList_ofList, List.mem_reverse] at inside
      rcases List.mem_cons.mp inside with rfl | early
      · exact Or.inr List.mem_cons_self
      · exact Or.inl early
    · rcases ih later c inside with none | within
      · cases none
      · exact Or.inr (List.mem_cons_of_mem _ within)
  | case4 line c rest _ ih =>
    intro d inside
    rcases ih member d inside with early | within
    · rcases List.mem_cons.mp early with rfl | early
      · exact Or.inr List.mem_cons_self
      · exact Or.inl early
    · exact Or.inr (List.mem_cons_of_mem _ within)

/-- In a line of a file, only the last character ends it. -/
theorem linesWithEnds_ended {line cs : List Char} {found : String} (unbroken : '\n' ∉ line)
    (member : found ∈ linesWithEnds line cs) : '\n' ∉ found.toList.dropLast := by
  fun_induction linesWithEnds line cs with
  | case1 line empty => cases member
  | case2 line filled =>
    rw [List.mem_singleton.mp member, String.toList_ofList]
    intro inside
    exact unbroken (List.mem_reverse.mp (List.dropLast_subset _ inside))
  | case3 line rest ih =>
    rcases List.mem_cons.mp member with rfl | later
    · rw [String.toList_ofList, List.reverse_cons, List.dropLast_concat, List.mem_reverse]
      exact unbroken
    · exact ih List.not_mem_nil later
  | case4 line c rest other ih =>
    apply ih _ member
    rintro (_ | ⟨_, inside⟩)
    · exact other rfl
    · exact unbroken inside

theorem read_eq_ok : f.read p = .ok content ↔
    ∃ text, f.file? p = some text ∧ String.ofList (unifyLineEnds text.toList) = content := by
  unfold read readExact
  cases f.file? p with
  | none => simp [bind, Except.bind]
  | some text => simp [bind, Except.bind, pure, Except.pure]

theorem read_clear (done : f.read p = .ok content) : '\r' ∉ content.toList := by
  obtain ⟨text, -, rfl⟩ := read_eq_ok.mp done
  rw [String.toList_ofList]
  exact unifyLineEnds_clear _

theorem read_of_file? (found : f.file? p = some content) (absent : '\r' ∉ content.toList) : f.read p = .ok content := by
  refine read_eq_ok.mpr ⟨content, found, ?_⟩
  rw [unifyLineEnds_of_clear absent, String.ofList_toList]

def fileLines (text : String) : List String := linesWithEnds [] (unifyLineEnds text.toList)

theorem readLines_of_file? {text : String} (found : f.file? p = some text) :
    f.readLines p = .ok (fileLines text) := by
  have read := read_eq_ok.mpr ⟨text, found, rfl⟩
  unfold readLines
  rw [read]
  exact congrArg (Except.ok ∘ linesWithEnds []) String.toList_ofList

/-! Changes of a folder. -/

theorem isFolderAt_eq_false : f.isFolderAt parts = false ↔ parts ≠ [] ∧ ∀ row ∈ f.entries,
    ¬(row.1 = parts ∧ row.2 = .folder) ∧ ¬(parts.length < row.1.length ∧ parts <+: row.1) := by
  unfold isFolderAt
  simp

def put (f : Folder) (parts : List String) (content : String) : Folder :=
  { f with entries := f.entries.insert parts (.file content) }

theorem file?_put (q : Path) :
    (f.put parts content).file? q = if f.locate q = some parts then some content else f.file? q := by
  have place : (f.put parts content).locate q = f.locate q := rfl
  unfold file?
  rw [place]
  cases f.locate q with
  | none => rfl
  | some found =>
    by_cases same : found = parts
    · subst same
      simp [put, Table.find?_insert_self]
    · have looked := Table.find?_insert found parts (.file content) f.entries
      simp [put, looked, same]

theorem isFolderAt_put (free : f.isFolderAt parts = false) : (f.put parts content).isFolderAt parts = false := by
  obtain ⟨filled, others⟩ := isFolderAt_eq_false.mp free
  refine isFolderAt_eq_false.mpr ⟨filled, ?_⟩
  intro row member
  rcases Table.mem_insert member with old | rfl
  · exact others row old
  · simp

/-- A place for a text, in a folder that is there. -/
structure Place (f : Folder) (p : Path) (parts : List String) : Prop where
  located : f.locate p = some parts
  free : f.isFolderAt parts = false
  housed : f.isFolderAt parts.dropLast = true

theorem Place.write (place : f.Place p parts) (content : String) : f.write p content = .ok (f.put parts content) := by
  simp [Folder.write, Folder.put, place.located, place.free, place.housed]

theorem write_eq_ok {after : Folder} :
    f.write p content = .ok after ↔ ∃ parts, f.Place p parts ∧ after = f.put parts content := by
  constructor
  · intro written
    unfold write at written
    cases located : f.locate p with
    | none =>
      rw [located] at written
      cases written
    | some parts =>
      rw [located] at written
      dsimp only at written
      split at written
      · cases written
      next free =>
        split at written
        · cases written
        next housed =>
          cases written
          exact ⟨parts, ⟨located, Bool.eq_false_iff.mpr free, by simpa using housed⟩, rfl⟩
  · rintro ⟨parts, place, rfl⟩
    exact place.write content

theorem file?_write {after : Folder} (written : f.write p content = .ok after) : after.file? p = some content := by
  obtain ⟨parts, place, rfl⟩ := write_eq_ok.mp written
  rw [file?_put, if_pos place.located]

/-- Where a text stands, another one can. -/
theorem Place.put (place : f.Place p parts) (content : String) : (f.put parts content).Place p parts := by
  obtain ⟨filled, -⟩ := isFolderAt_eq_false.mp place.free
  have stands : (parts, Entry.file content) ∈ (f.put parts content).entries :=
    Table.mem_insert_self parts (.file content) f.entries
  refine ⟨place.located, isFolderAt_put place.free, ?_⟩
  by_contra missing
  obtain ⟨-, others⟩ := isFolderAt_eq_false.mp (Bool.eq_false_iff.mpr missing)
  apply (others _ stands).2
  refine ⟨?_, List.dropLast_prefix parts⟩
  have some : 0 < parts.length := List.length_pos_iff.mpr filled
  rw [List.length_dropLast]
  exact Nat.sub_lt some Nat.one_pos

theorem file?_remove (f : Folder) (p : Path) : (f.remove p).file? p = none := by
  unfold remove
  cases located : f.locate p with
  | none => simp [file?, located]
  | some parts =>
    have place : Folder.locate { f with entries := f.entries.filter fun row => row.1 != parts } p = some parts :=
      located
    have looked := Table.find?_filter parts parts f.entries
    simp only [beq_self_eq_true, ↓reduceIte] at looked
    simp [file?, place, looked]

end Folder

/-! Paths. -/

theorem Path.under_plain {names : List String} (plain : ∀ name ∈ names, ofText name = ⟨false, [name]⟩) (base : Path) :
    base.under names = { base with parts := base.parts ++ names } := by
  induction names generalizing base with
  | nil => simp [under]
  | cons name names ih =>
    have first : base.join (ofText name) = { base with parts := base.parts ++ [name] } := by
      rw [plain name List.mem_cons_self]
      rfl
    have others := ih (fun other member => plain other (List.mem_cons_of_mem name member)) (base.join (ofText name))
    unfold under at others ⊢
    rw [List.foldl_cons, others, first]
    simp

/-- What a path leads to in a folder is an end of the path. -/
theorem Folder.locate_suffix {f : Folder} {p : Path} {parts : List String} (located : f.locate p = some parts) :
    parts <:+ p.parts := by
  unfold Folder.locate at located
  split at located
  next found below =>
    cases located
    unfold Path.below? at below
    split at below
    · cases below
      exact List.drop_suffix _ _
    · cases below
  · split at located
    · cases located
    · cases located
      exact List.suffix_rfl

/-! Cases of a suite. -/

namespace Suite

variable {f other : Folder} {p : Path} {cases : List Case}

theorem readCases_eq_ok : readCases f p = .ok cases ↔
    ∃ text, f.read p = .ok text ∧ (Folder.linesWithEnds [] text.toList).mapM Case.decode = .ok cases := by
  unfold readCases Folder.readLines
  cases f.read p with
  | error e => simp [bind, Except.bind]
  | ok text => simp [bind, Except.bind, pure, Except.pure]

/-- The cases of a file hold no carriage return. -/
theorem readCases_clear (done : readCases f p = .ok cases) : ∀ c ∈ cases, c.Clear (· ≠ '\r') := by
  obtain ⟨text, read, decoded⟩ := readCases_eq_ok.mp done
  have absent := Folder.read_clear read
  refine Yields.mapM ?_ cases decoded
  intro line member c found
  refine Case.decode_clear ?_ found
  intro d inside same
  rcases Folder.linesWithEnds_within member d inside with none | within
  · cases none
  · exact absent (same ▸ within)

theorem readCases_congr (same : other.file? p = f.file? p) (done : readCases f p = .ok cases) :
    readCases other p = .ok cases := by
  obtain ⟨text, read, decoded⟩ := readCases_eq_ok.mp done
  obtain ⟨exact, found, unified⟩ := Folder.read_eq_ok.mp read
  refine readCases_eq_ok.mpr ⟨text, Folder.read_eq_ok.mpr ⟨exact, ?_, unified⟩, decoded⟩
  rw [same, found]

theorem caseFile_parts (s : Suite) : s.caseFile.parts = s.home.parts ++ ["target", "stats", "cases.txt"] := by
  have folders : ∀ name ∈ ["target", "stats"], Path.ofText name = ⟨false, [name]⟩ := by decide
  have file : ∀ name ∈ ["cases.txt"], Path.ofText name = ⟨false, [name]⟩ := by decide
  unfold caseFile stats
  rw [Path.under_plain folders, Path.under_plain file]
  simp

end Suite
end BytecodeBench
