import BytecodeBench.AnalysisInfo
import BytecodeBench.Proofs.TextCuts

/-! Introductions of analyses. An analysis that takes part in research is read as it introduces itself.
One that withholds its system prints a line less than a reader asks for. -/

namespace BytecodeBench.AnalysisInfo

/-- A text that can stand on a line of its own, with no blanks around it. -/
structure Plain (s : String) : Prop where
  unbroken : ∀ c ∈ s.toList, Text.isLineBoundary c = false
  trimmed : Text.Trimmed s.toList

theorem plain_iff {s : String} : Plain s ↔ s.toList.all (!Text.isLineBoundary ·) = true ∧ Text.Trimmed s.toList := by
  simp only [List.all_eq_true, Bool.not_eq_true']
  exact ⟨fun plain => ⟨plain.unbroken, plain.trimmed⟩, fun both => ⟨both.1, both.2⟩⟩

instance (s : String) : Decidable (Plain s) := decidable_of_iff _ plain_iff.symm

/-- What an analysis can say of itself on lines: plain texts, and tags that can be told apart. -/
structure Introducible (name version group : String) (tags : List String) : Prop where
  named : Plain name
  versioned : Plain version
  grouped : Plain group
  tagged : tags ≠ []
  legible : ∀ tag ∈ tags, Plain tag
  separate : ∀ tag ∈ tags, ',' ∉ tag.toList

variable {name version group platform : String} {tags : List String}

private theorem unbroken_tags (plain : ∀ tag ∈ tags, Plain tag) :
    ∀ c ∈ (Text.join "," tags).toList, Text.isLineBoundary c = false := by
  intro c member
  rw [Text.join, String.toList_intercalate] at member
  rcases Text.mem_intercalate member with separator | ⟨part, inside, found⟩
  · cases List.mem_singleton.mp separator
    decide
  · obtain ⟨tag, listed, rfl⟩ := List.mem_map.mp inside
    exact (plain tag listed).unbroken c found

private theorem lines_print (fit : Introducible name version group tags) (system : Option String)
    (plain : ∀ line ∈ system, Plain line) :
    Text.lines (print name version group tags system) = [name, version, group, Text.join "," tags] ++ system.toList := by
  apply Text.lines_join
  intro line member
  rcases List.mem_append.mp member with always | last
  · simp only [List.mem_cons, List.not_mem_nil, or_false] at always
    rcases always with rfl | rfl | rfl | rfl
    · exact fit.named.unbroken
    · exact fit.versioned.unbroken
    · exact fit.grouped.unbroken
    · exact unbroken_tags fit.legible
  · exact (plain line (Option.mem_toList.mp last)).unbroken

private theorem read_tags (fit : Introducible name version group tags) :
    (Text.split ',' (Text.join "," tags)).map Text.strip = tags := by
  have parts : Text.split ',' (Text.join "," tags) = tags := Text.split_join fit.tagged fit.separate
  have stripped : tags.map Text.strip = tags.map id :=
    List.map_congr_left fun tag listed => Text.strip_trimmed (fit.legible tag listed).trimmed
  rw [parts, stripped, List.map_id]

private theorem parse_print_named (fit : Introducible name version group tags) (plain : Plain platform) :
    parse (print name version group tags (some platform)) =
      .ok ⟨name, version, group, tags, if Text.lower platform = "no" then none else some platform⟩ := by
  have lines := lines_print fit (some platform) fun line named => Option.some.inj named ▸ plain
  simp only [Option.toList_some, List.cons_append, List.nil_append] at lines
  unfold parse
  rw [lines]
  simp only
  rw [read_tags fit, Text.strip_trimmed fit.named.trimmed, Text.strip_trimmed fit.versioned.trimmed,
    Text.strip_trimmed fit.grouped.trimmed, Text.strip_trimmed plain.trimmed]

private theorem parse_print_withheld (fit : Introducible name version group tags) :
    parse (print name version group tags none) = .error (.wrongLineCount 4) := by
  have lines := lines_print fit none (by simp)
  unfold parse
  rw [lines]
  rfl

/-- An introduction is read as it was meant exactly if it names a system, and one that does not look like a
refusal. Without a system it is not read at all. -/
theorem introduction_read_back_iff_system_named (fit : Introducible name version group tags) (plain : Plain platform)
    (science : Bool) :
    let meant : Option String := if science then some platform else none
    (parse (print name version group tags meant) = .ok ⟨name, version, group, tags, meant⟩ ↔
      science = true ∧ Text.lower platform ≠ "no") ∧
    (science = false → parse (print name version group tags meant) = .error (.wrongLineCount 4)) ∧
    (science = true → Text.lower platform = "no" →
      parse (print name version group tags meant) = .ok ⟨name, version, group, tags, none⟩) := by
  have named := parse_print_named fit plain
  have withheld := parse_print_withheld fit
  refine ⟨⟨?_, ?_⟩, ?_, ?_⟩
  · intro read
    cases science with
    | false => cases withheld.symm.trans read
    | true =>
      refine ⟨rfl, fun refusal => ?_⟩
      rw [if_pos refusal] at named
      cases named.symm.trans read
  · rintro ⟨rfl, other⟩
    rw [if_neg other] at named
    exact named
  · intro silent
    subst silent
    exact withheld
  · intro shown refusal
    subst shown
    rw [if_pos refusal] at named
    exact named

theorem sample_read_back_iff_system_named :
    Introducible "sample" "1.0" "no one" ["static", "fast path"] ∧ Plain "Linux" ∧
    parse (print "sample" "1.0" "no one" ["static", "fast path"] (some "Linux")) =
      .ok ⟨"sample", "1.0", "no one", ["static", "fast path"], some "Linux"⟩ ∧
    parse (print "sample" "1.0" "no one" ["static", "fast path"] none) = .error (.wrongLineCount 4) := by
  have fit : Introducible "sample" "1.0" "no one" ["static", "fast path"] :=
    ⟨by decide +kernel, by decide +kernel, by decide +kernel, by decide, by decide +kernel, by decide⟩
  have plain : Plain "Linux" := by decide +kernel
  refine ⟨fit, plain, ?_, ?_⟩
  · exact (introduction_read_back_iff_system_named fit plain true).1.mpr ⟨rfl, by decide +kernel⟩
  · exact (introduction_read_back_iff_system_named fit plain false).2.1 rfl

/-- An analysis that withholds its system is not read, though all it says is plain. -/
theorem withheld_system_not_read :
    Introducible "sample" "1.0" "group" ["static"] ∧
    parse (print "sample" "1.0" "group" ["static"] none) ≠ .ok ⟨"sample", "1.0", "group", ["static"], none⟩ := by
  have fit : Introducible "sample" "1.0" "group" ["static"] :=
    ⟨by decide +kernel, by decide +kernel, by decide +kernel, by decide, by decide +kernel, by decide⟩
  refine ⟨fit, fun read => ?_⟩
  cases (parse_print_withheld fit).symm.trans read

end BytecodeBench.AnalysisInfo
