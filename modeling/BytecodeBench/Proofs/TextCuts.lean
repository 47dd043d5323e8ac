import BytecodeBench.Text.Basic
import BytecodeBench.Text.Blank
import Mathlib.Data.List.TakeWhile

/-! Cutting texts loses nothing: the parts and what they were cut at make up the whole, and a part that
was cut at the first or last place of a character does not hold it. -/

namespace BytecodeBench.Text

variable {c : Char} {cs before after part rest : List Char}

/-- What a test of each character shows holds of all of them. -/
theorem forall_of_all {holds : Char → Prop} [DecidablePred holds] (tested : cs.all (fun c => decide (holds c)) = true) :
    ∀ c ∈ cs, holds c := by
  intro c member
  exact of_decide_eq_true (List.all_eq_true.mp tested c member)

/-! Up to a character. -/

theorem notMem_takeWhile (c : Char) (cs : List Char) : c ∉ cs.takeWhile (· ≠ c) := by
  intro member
  have passes := List.mem_takeWhile_imp member
  simp at passes

theorem takeWhile_append (absent : c ∉ cs) (rest : List Char) : (cs ++ c :: rest).takeWhile (· ≠ c) = cs := by
  have passes : ∀ d ∈ cs, decide (d ≠ c) = true := by
    intro d member
    exact decide_eq_true fun same => absent (same ▸ member)
  rw [List.takeWhile_append_of_pos passes]
  simp

theorem dropWhile_append (absent : c ∉ cs) (rest : List Char) : (cs ++ c :: rest).dropWhile (· ≠ c) = c :: rest := by
  have passes : ∀ d ∈ cs, decide (d ≠ c) = true := by
    intro d member
    exact decide_eq_true fun same => absent (same ▸ member)
  rw [List.dropWhile_append_of_pos passes]
  simp

/-- Where a character is found, the text is what stands before it, the character and the rest. -/
theorem eq_of_dropWhile {d : Char} (dropped : cs.dropWhile (· ≠ c) = d :: rest) :
    cs = cs.takeWhile (· ≠ c) ++ c :: rest := by
  have found : d = c := by
    have fails := List.head?_dropWhile_not (fun d => decide (d ≠ c)) cs
    rw [dropped] at fails
    simpa using fails
  calc cs = cs.takeWhile (· ≠ c) ++ cs.dropWhile (· ≠ c) := List.takeWhile_append_dropWhile.symm
    _ = cs.takeWhile (· ≠ c) ++ c :: rest := by rw [dropped, found]

theorem dropWhile_cases (c : Char) (cs : List Char) :
    cs.dropWhile (· ≠ c) = [] ∨ ∃ rest, cs.dropWhile (· ≠ c) = c :: rest := by
  cases dropped : cs.dropWhile (· ≠ c) with
  | nil => exact Or.inl rfl
  | cons d rest =>
    have again := dropWhile_append (notMem_takeWhile c cs) rest
    rw [← eq_of_dropWhile dropped, dropped] at again
    exact Or.inr ⟨rest, again⟩

theorem newline_notMem_firstLine (cs : List Char) : '\n' ∉ firstLine cs := notMem_takeWhile '\n' cs

theorem firstLine_of_notMem (absent : '\n' ∉ cs) : firstLine cs = cs := by
  refine List.takeWhile_eq_self_iff.mpr ?_
  intro d member
  exact decide_eq_true fun same => absent (same ▸ member)

/-! At a part. -/

theorem dropLead?_eq_some {lead : List Char} : dropLead? lead cs = some rest ↔ cs = lead ++ rest := by
  induction lead generalizing cs with
  | nil => simp [dropLead?]
  | cons l lead ih =>
    cases cs with
    | nil => simp [dropLead?]
    | cons d cs =>
      by_cases same : l = d
      · simp [dropLead?, same, ih]
      · simp [dropLead?, same, Ne.symm same]

private theorem breakOn?_eq (found : breakOn? part cs = some (before, after)) : cs = before ++ part ++ after := by
  induction cs generalizing before with
  | nil =>
    unfold breakOn? at found
    split at found
    next empty =>
      cases found
      rw [List.isEmpty_iff.mp empty]
      rfl
    · cases found
  | cons d cs ih =>
    unfold breakOn? at found
    split at found
    next lead =>
      cases found
      exact dropLead?_eq_some.mp lead
    · obtain ⟨⟨earlier, later⟩, inner, same⟩ := Option.map_eq_some_iff.mp found
      cases same
      rw [ih inner]
      rfl

private theorem breakOn?_first (found : breakOn? [c] cs = some (before, after)) : c ∉ before := by
  induction cs generalizing before with
  | nil => cases found
  | cons d cs ih =>
    unfold breakOn? at found
    split at found
    · cases found
      exact List.not_mem_nil
    next other =>
      obtain ⟨⟨earlier, later⟩, inner, same⟩ := Option.map_eq_some_iff.mp found
      cases same
      rintro (_ | ⟨_, member⟩)
      · simp [dropLead?] at other
      · exact ih inner member

theorem breakOnLast?_eq (found : breakOnLast? part cs = some (before, after)) : cs = before ++ part ++ after := by
  obtain ⟨⟨later, earlier⟩, inner, same⟩ := Option.map_eq_some_iff.mp found
  cases same
  have whole := congrArg List.reverse (breakOn?_eq inner)
  simpa using whole

theorem breakOnLast?_last (found : breakOnLast? [c] cs = some (before, after)) : c ∉ after := by
  obtain ⟨⟨later, earlier⟩, inner, same⟩ := Option.map_eq_some_iff.mp found
  cases same
  intro member
  exact breakOn?_first inner (List.mem_reverse.mp member)

private theorem breakOn?_lead (lead : dropLead? part cs = some after) : breakOn? part cs = some ([], after) := by
  cases cs with
  | nil =>
    obtain ⟨rfl, rfl⟩ := List.append_eq_nil_iff.mp (dropLead?_eq_some.mp lead).symm
    rfl
  | cons d cs =>
    unfold breakOn?
    rw [lead]

/-- A part that ends in a character is found where that character first stands. -/
theorem breakOn?_append (absent : c ∉ before ++ part) :
    breakOn? (part ++ [c]) (before ++ part ++ c :: after) = some (before, after) := by
  induction before with
  | nil => exact breakOn?_lead (dropLead?_eq_some.mpr (by simp))
  | cons d before ih =>
    have elsewhere : dropLead? (part ++ [c]) (d :: (before ++ part ++ c :: after)) = none := by
      rw [Option.eq_none_iff_forall_ne_some]
      intro rest lead
      -- The first `c` would stand behind two texts of different lengths.
      have whole : (d :: before ++ part) ++ c :: after = part ++ c :: rest := by simpa using dropLead?_eq_some.mp lead
      have same := congrArg (List.takeWhile (· ≠ c)) whole
      rw [takeWhile_append absent, takeWhile_append fun member => absent (List.mem_append_right _ member)] at same
      have lengths := congrArg List.length same
      simp only [List.length_append, List.length_cons] at lengths
      omega
    have later := ih fun member => absent (List.mem_cons_of_mem d member)
    rw [List.cons_append, List.cons_append, breakOn?, elsewhere, later]
    rfl

theorem breakOn?_char (absent : c ∉ before) : breakOn? [c] (before ++ c :: after) = some (before, after) := by
  have found : breakOn? ([] ++ [c]) (before ++ [] ++ c :: after) = some (before, after) :=
    breakOn?_append (by rwa [List.append_nil])
  rwa [List.append_nil] at found

/-- A part that begins with a character is found where that character last stands. -/
theorem breakOnLast?_append (absent : c ∉ part ++ after) :
    breakOnLast? (c :: part) (before ++ c :: part ++ after) = some (before, after) := by
  have reversed : c ∉ after.reverse ++ part.reverse := by
    rw [← List.reverse_append, List.mem_reverse]
    exact absent
  have shape : (before ++ c :: part ++ after).reverse = after.reverse ++ part.reverse ++ c :: before.reverse := by simp
  unfold breakOnLast?
  rw [List.reverse_cons, shape, breakOn?_append reversed]
  simp

/-! At line boundaries. -/

private theorem linesFrom_unbroken {line : List Char} (unbroken : ∀ c ∈ cs, isLineBoundary c = false) :
    linesFrom line cs = if line.reverse ++ cs = [] then [] else [line.reverse ++ cs] := by
  fun_induction linesFrom line cs with
  | case1 line empty => simp [List.isEmpty_iff.mp empty]
  | case2 line filled => simp [List.isEmpty_eq_false_iff.mp (Bool.eq_false_iff.mpr filled)]
  | case3 line rest ih => exact absurd (unbroken '\r' List.mem_cons_self) (by decide)
  | case4 line c rest _ boundary ih =>
    rw [unbroken c List.mem_cons_self] at boundary
    cases boundary
  | case5 line c rest _ _ ih =>
    rw [ih fun d member => unbroken d (List.mem_cons_of_mem c member)]
    simp

/-- A text without line boundaries is its only line. -/
theorem lines_of_unbroken {s : String} (filled : s.toList ≠ []) (unbroken : ∀ c ∈ s.toList, isLineBoundary c = false) :
    lines s = [s] := by
  unfold lines
  rw [linesFrom_unbroken unbroken, List.reverse_nil, List.nil_append, if_neg filled]
  simp

private theorem linesFrom_line {line : List Char} (unbroken : ∀ c ∈ cs, isLineBoundary c = false) (rest : List Char) :
    linesFrom line (cs ++ '\n' :: rest) = (line.reverse ++ cs) :: linesFrom [] rest := by
  induction cs generalizing line with
  | nil =>
    rw [List.nil_append, linesFrom, if_pos (by decide), List.append_nil]
    intro _ carriage
    cases carriage
  | cons c cs ih =>
    have inside := unbroken c List.mem_cons_self
    rw [List.cons_append, linesFrom, if_neg (by simp [inside])]
    · rw [ih fun d member => unbroken d (List.mem_cons_of_mem c member)]
      simp
    · intro _ carriage
      rw [carriage] at inside
      cases inside

/-- Lines written out one by one are read back. -/
theorem lines_join {texts : List String} (unbroken : ∀ s ∈ texts, ∀ c ∈ s.toList, isLineBoundary c = false) :
    lines (String.join (texts.map (· ++ "\n"))) = texts := by
  induction texts with
  | nil => rfl
  | cons s texts ih =>
    have later := ih fun t member => unbroken t (List.mem_cons_of_mem s member)
    have shape : (String.join ((s :: texts).map (· ++ "\n"))).toList =
        s.toList ++ '\n' :: (String.join (texts.map (· ++ "\n"))).toList := by simp
    unfold lines at later ⊢
    rw [shape, linesFrom_line (unbroken s List.mem_cons_self), List.map_cons, later]
    simp

/-! At separators. -/

theorem intercalate_cons {α : Type} (separator first : List α) (others : List (List α)) :
    separator.intercalate (first :: others) = first ++ others.flatMap (separator ++ ·) := by
  induction others generalizing first with
  | nil => simp
  | cons second others ih => rw [List.intercalate_cons_cons, ih, List.flatMap_cons, List.append_assoc, List.append_assoc]

theorem mem_intercalate {α : Type} {separator : List α} {parts : List (List α)} {a : α}
    (member : a ∈ separator.intercalate parts) : a ∈ separator ∨ ∃ part ∈ parts, a ∈ part := by
  cases parts with
  | nil => cases member
  | cons first others =>
    rw [intercalate_cons] at member
    rcases List.mem_append.mp member with head | tail
    · exact Or.inr ⟨first, List.mem_cons_self, head⟩
    · obtain ⟨part, inside, found⟩ := List.mem_flatMap.mp tail
      rcases List.mem_append.mp found with between | within
      · exact Or.inl between
      · exact Or.inr ⟨part, List.mem_cons_of_mem first inside, within⟩

theorem intercalate_mem {α : Type} {separator part : List α} {parts : List (List α)} {a : α} (inside : part ∈ parts)
    (member : a ∈ part) : a ∈ separator.intercalate parts := by
  cases parts with
  | nil => cases inside
  | cons first others =>
    rw [intercalate_cons]
    rcases List.mem_cons.mp inside with rfl | later
    · exact List.mem_append_left _ member
    · apply List.mem_append_right
      exact List.mem_flatMap.mpr ⟨part, later, List.mem_append_right _ member⟩

private theorem splitOnChar_eq_splitOn (separator : Char) (cs : List Char) :
    splitOnChar separator cs = cs.splitOn separator := by
  induction cs with
  | nil => rfl
  | cons c cs ih =>
    obtain ⟨part, parts, shape⟩ := List.exists_cons_of_ne_nil (List.splitOn_ne_nil separator cs)
    rw [splitOnChar, ih, List.splitOn_cons_eq_if_modifyHead]
    by_cases same : c = separator
    · simp [same]
    · simp [same, shape]

theorem split_join {separator : Char} {parts : List String} (filled : parts ≠ [])
    (absent : ∀ part ∈ parts, separator ∉ part.toList) :
    split separator (join (String.singleton separator) parts) = parts := by
  have apart : ∀ part ∈ parts.map String.toList, separator ∉ part := by simpa using absent
  unfold split join
  rw [splitOnChar_eq_splitOn, String.toList_intercalate, String.toList_singleton,
    List.splitOn_intercalate separator apart (by simpa using filled)]
  simp

/-! At blanks. -/

structure Trimmed (cs : List Char) : Prop where
  start : ∀ c ∈ cs.head?, isBlank c = false
  finish : ∀ c ∈ cs.getLast?, isBlank c = false

private theorem trimmed_iff : Trimmed cs ↔ (cs.head?.all (!isBlank ·) && cs.getLast?.all (!isBlank ·)) = true := by
  simp only [Bool.and_eq_true, Option.all_eq_true, Bool.not_eq_true']
  exact ⟨fun trimmed => ⟨trimmed.start, trimmed.finish⟩, fun ends => ⟨ends.1, ends.2⟩⟩

instance (cs : List Char) : Decidable (Trimmed cs) := decidable_of_iff _ trimmed_iff.symm

private theorem dropBlanks_append (blank : ∀ c ∈ before, isBlank c = true) (cs : List Char) :
    dropBlanks (before ++ cs) = dropBlanks cs := List.dropWhile_append_of_pos blank

private theorem dropBlanks_of_head (start : ∀ c ∈ cs.head?, isBlank c = false) : dropBlanks cs = cs := by
  cases cs with
  | nil => rfl
  | cons c cs => exact List.dropWhile_cons_of_neg (by simp [start c rfl])

/-- Blanks around a text are taken off, and nothing of the text. -/
theorem stripList_padded (trimmed : Trimmed cs) (leading : ∀ c ∈ before, isBlank c = true)
    (trailing : ∀ c ∈ after, isBlank c = true) : stripList (before ++ cs ++ after) = cs := by
  unfold stripList
  rw [List.append_assoc, dropBlanks_append leading]
  cases cs with
  | nil =>
    have gone : dropBlanks after = [] := List.dropWhile_eq_nil_iff.mpr trailing
    rw [List.nil_append, gone]
    rfl
  | cons c cs =>
    have forwards : dropBlanks (c :: cs ++ after) = c :: cs ++ after := by
      apply dropBlanks_of_head
      exact trimmed.start
    have backwards : dropBlanks (c :: cs).reverse = (c :: cs).reverse := by
      apply dropBlanks_of_head
      rw [List.head?_reverse]
      exact trimmed.finish
    rw [forwards, List.reverse_append, dropBlanks_append (by simpa using trailing), backwards,
      List.reverse_reverse]

theorem strip_trimmed {s : String} (trimmed : Trimmed s.toList) : strip s = s := by
  have padded := stripList_padded trimmed (List.forall_mem_nil _) (List.forall_mem_nil _)
  rw [List.nil_append, List.append_nil] at padded
  rw [strip, padded, String.ofList_toList]

end BytecodeBench.Text
