import BytecodeBench.Proofs.AscendingLists
import BytecodeBench.Proofs.CaseFiles
import BytecodeBench.Proofs.Deskwork
import BytecodeBench.Proofs.LastAnswers
import BytecodeBench.Tools.Guessing
import Mathlib.Data.Finset.Card
import Mathlib.Data.Set.List

/-! Answers from recorded cases. A suite and an analysis read the same lines by different rules: the one
decodes them, the other only looks for the first blank and the last arrow. On lines of a case file with
known results they find the same methods and results. So the analysis is sure of every answer, and right,
and earns a point for each of them. -/

namespace BytecodeBench

namespace Query

theorem name_trimmed (q : Query) : Text.Trimmed q.name.toList := by cases q <;> decide +kernel

theorem name_unbroken (q : Query) : ∀ c ∈ q.name.toList, Text.isLineBoundary c = false := by
  cases q <;> exact Text.forall_of_all (by decide)

/-- Neither the arrow of a case nor the mark of a prediction is found in a name. -/
theorem name_undivided (q : Query) : '-' ∉ q.name.toList ∧ ';' ∉ q.name.toList := by cases q <;> decide

end Query

namespace Folder

theorem length_sortedNames (names : List String) : (sortedNames names).length = names.toFinset.card := by
  have same : (sortedNames names).toFinset = names.toFinset := by
    ext name
    simp only [List.mem_toFinset, mem_sortedNames]
  rw [← same, List.toFinset_card_of_nodup (sortedNames_nodup names)]

end Folder

theorem Suite.caseMethods_of_file? {s : Suite} {text : String} {cases : List Case}
    (kept : s.folder.file? s.caseFile = some text) (fresh : s.cached = none)
    (decoded : (Folder.fileLines text).mapM Case.decode = .ok cases) : s.caseMethods.1 = .ok (Case.results cases) := by
  have read : readCases s.folder s.caseFile = .ok cases := by
    rw [readCases, Folder.readLines_of_file? kept]
    exact decoded
  unfold caseMethods Suite.cases
  rw [fresh]
  dsimp only
  rw [read]
  rfl

namespace Case

variable {c : Case} {cases : List Case} {m : AbsMethodId}

/-- A result is among those of a method if some case has both. -/
theorem mem_results {result : String} :
    result ∈ ((results cases).find? m).getD [] ↔ ∃ c ∈ cases, c.method = m ∧ c.result = result := by
  induction cases using List.reverseRecOn with
  | nil => simp [results, Table.find?]
  | append_singleton cases c ih =>
    have step : results (cases ++ [c]) = (results cases).update c.method [] fun known =>
        if c.result ∈ known then known else known ++ [c.result] := by
      simp [results]
    have members : (∃ d ∈ cases ++ [c], d.method = m ∧ d.result = result) ↔
        (∃ d ∈ cases, d.method = m ∧ d.result = result) ∨ (c.method = m ∧ c.result = result) := by
      simp only [List.mem_append, List.mem_singleton, or_and_right, exists_or, exists_eq_left]
    rw [members, ← ih, step, Table.update, Table.find?_insert]
    by_cases same : m = c.method
    · subst same
      rw [if_pos BEq.rfl, Option.getD_some]
      split
      next known =>
        constructor
        · exact Or.inl
        · rintro (old | ⟨-, rfl⟩)
          · exact old
          · exact known
      next new => simp [eq_comm]
    · rw [if_neg (by simpa using same)]
      simp [Ne.symm same]

theorem exists_results (occurs : ∃ c ∈ cases, c.method = m) : ∃ known, (results cases).find? m = some known := by
  obtain ⟨c, member, same⟩ := occurs
  have listed := mem_results.mpr ⟨c, member, same, rfl⟩
  cases found : (results cases).find? m with
  | none =>
    rw [found] at listed
    cases listed
  | some known => exact ⟨known, rfl⟩

end Case

namespace Tools

open Work

variable {line : String} {c : Case} {q : Query} {method front input result tail : List Char}

/-- Where the result holds no dash, the last arrow is the one before it. -/
theorem recordedResult_parts (shape : line.toList = method ++ ' ' :: front ++ " -> ".toList ++ result ++ tail)
    (unspaced : ' ' ∉ method) (dashless : '-' ∉ result) (trimmed : Text.Trimmed result)
    (blank : ∀ d ∈ tail, Text.isBlank d = true) : recordedResult line = .ok (String.ofList method, String.ofList result) := by
  have absent : '-' ∉ '>' :: ' ' :: result ++ tail := by
    intro member
    simp only [List.cons_append, List.mem_cons, List.mem_append] at member
    rcases member with impossible | impossible | within | behind
    · cases impossible
    · cases impossible
    · exact dashless within
    · exact absurd (blank '-' behind) (by decide +kernel)
  have parts : line.toList = method ++ ' ' :: ((front ++ [' ']) ++ "->".toList ++ (' ' :: result ++ tail)) := by
    simp [shape]
  have last : Text.breakOnLast? "->".toList ((front ++ [' ']) ++ "->".toList ++ (' ' :: result ++ tail)) =
      some (front ++ [' '], ' ' :: result ++ tail) :=
    Text.breakOnLast?_append absent
  have stripped : Text.stripList ([' '] ++ result ++ tail) = result :=
    Text.stripList_padded trimmed (List.forall_mem_singleton.mpr (by decide +kernel)) blank
  unfold recordedResult
  rw [parts, Text.breakOn?_char unspaced]
  dsimp only
  rw [last]
  dsimp only
  rw [← List.singleton_append, stripped]
  rfl

/-- In a line of a file, the method does not run over the line, and nothing follows the result. -/
theorem cut?_ended {cs : List Char} (ended : '\n' ∉ cs.dropLast) (cuts : Case.cut? cs = some (method, input, result)) :
    '\n' ∉ method ∧ ∃ gap tail, cs = method ++ ' ' :: (gap ++ input) ++ " -> ".toList ++ result ++ tail ∧
      ∀ d ∈ tail, Text.isBlank d = true := by
  obtain ⟨gap, tail, rfl, ending⟩ := Case.cut?_eq cuts
  refine ⟨?_, gap, tail, by simp, ?_⟩
  · intro member
    apply ended
    simp [List.dropLast_append_of_ne_nil, member]
  · rcases ending with rfl | ⟨rest, rfl⟩
    · exact List.forall_mem_nil _
    · cases rest with
      | nil => exact List.forall_mem_singleton.mpr (by decide +kernel)
      | cons d rest =>
        refine absurd ?_ ended
        rw [List.dropLast_append_of_ne_nil (List.cons_ne_nil _ _), List.dropLast_cons_cons]
        exact List.mem_append_right _ List.mem_cons_self

/-- On a line of a file, the two readers find the same method and the same result. -/
theorem recordedResult_of_decode (ended : '\n' ∉ line.toList.dropLast) (decoded : Case.decode line = .ok c)
    (known : c.result = q.name) : recordedResult line = .ok (c.method.encode, c.result) := by
  obtain ⟨method, input, result, cuts, readMethod, -, resultText⟩ := Case.decode_eq decoded
  obtain ⟨unspaced, -, -⟩ := Case.cut?_parts cuts
  obtain ⟨unbroken, gap, tail, shape, blank⟩ := cut?_ended ended cuts
  have named : result = q.name.toList := by rw [← known, resultText, String.toList_ofList]
  have written : c.method.encode = String.ofList method := by
    rw [← String.toList_inj, AbsMethodId.decode_encode readMethod, String.toList_ofList, Text.firstLine_of_notMem unbroken]
  rw [written, resultText]
  subst named
  exact recordedResult_parts shape unspaced q.name_undivided.1 q.name_trimmed blank

end Tools

namespace Work

private theorem execute_forM_print {α : Type} (f : α → String) (items : List α) (bench : Workbench) :
    (items.forM fun a => print (f a)).execute bench =
      (.ok (), { bench with out := bench.out ++ String.join ((items.map f).map (· ++ "\n")) }) := by
  simp only [List.forM_eq_forM]
  induction items generalizing bench with
  | nil =>
    simp
    rfl
  | cons a items ih =>
    have first : (print (f a)).execute bench = (.ok (), { bench with out := bench.out ++ f a ++ "\n" }) := rfl
    rw [List.forM_cons, execute_next first, ih]
    simp [String.append_assoc]

end Work

namespace Response

variable {right : String → Bool} {qs : List Query}

def sureLine (right : String → Bool) (name : String) : String := name ++ ";" ++ if right name then "100%" else "0%"

def sure (right : String → Bool) (q : Query) : Prediction Exact := ⟨.infinity !right q.name⟩

private theorem sureLine_eq_join (name : String) :
    sureLine right name = Text.join (String.singleton ';') [name, if right name then "100%" else "0%"] := by
  rw [← String.toList_inj]
  simp [sureLine, Text.join]

private theorem lineOf_sure (q : Query) :
    Line.of (sureLine right q.name) = .answer q (if right q.name then "100%" else "0%") := by
  have absent : ∀ part ∈ [q.name, if right q.name then "100%" else "0%"], ';' ∉ part.toList := by
    intro part member
    simp only [List.mem_cons, List.not_mem_nil, or_false] at member
    rcases member with rfl | rfl
    · exact q.name_undivided.2
    · split <;> decide
  unfold Line.of
  rw [sureLine_eq_join, Text.split_join (List.cons_ne_nil _ _) absent]
  dsimp only
  rw [q.ofName?_name]

private theorem takeLine_sure (predictions : Table Query (Prediction Exact)) (q : Query) :
    takeLine predictions (sureLine right q.name) = .ok (predictions.insert q (sure right q)) := by
  unfold takeLine
  rw [lineOf_sure]
  dsimp only
  rw [Prediction.parse_sure]
  rfl

private theorem takeLines_sure {predictions : Table Query (Prediction Exact)} (distinct : qs.Nodup)
    (new : ∀ q ∈ qs, predictions.find? q = none) :
    ((qs.map Query.name).map (sureLine right)).foldlM takeLine predictions =
      .ok (predictions ++ qs.map fun q => (q, sure right q)) := by
  induction qs generalizing predictions with
  | nil => simp; rfl
  | cons q qs ih =>
    obtain ⟨single, others⟩ := List.nodup_cons.mp distinct
    have own := Table.insert_of_absent (sure right q) (new q List.mem_cons_self)
    have later : ∀ p ∈ qs, Table.find? p (predictions.insert q (sure right q)) = none := by
      intro p member
      have apart : (p == q) = false := by
        apply beq_false_of_ne
        intro same
        exact single (same ▸ member)
      rw [Table.find?_insert, apart]
      exact new p (List.mem_cons_of_mem q member)
    rw [List.map_cons, List.map_cons, List.foldlM_cons, takeLine_sure]
    have rest := ih others later
    rw [own, List.append_assoc] at rest
    rw [own]
    exact rest

theorem parse_sureLines (distinct : qs.Nodup) :
    parse (String.join (((qs.map Query.name).map (sureLine right)).map (· ++ "\n"))) =
      .ok ⟨qs.map fun q => (q, sure right q)⟩ := by
  have unbroken : ∀ line ∈ (qs.map Query.name).map (sureLine right), ∀ c ∈ line.toList, Text.isLineBoundary c = false := by
    intro line member
    obtain ⟨_, named, rfl⟩ := List.mem_map.mp member
    obtain ⟨q, -, rfl⟩ := List.mem_map.mp named
    have percentage : ∀ c ∈ (if right q.name then "100%" else "0%").toList, Text.isLineBoundary c = false := by
      split <;> exact Text.forall_of_all (by decide)
    intro c inside
    rw [sureLine, String.toList_append, String.toList_append] at inside
    rcases List.mem_append.mp inside with front | behind
    · rcases List.mem_append.mp front with named | mark
      · exact q.name_unbroken c named
      · cases List.mem_singleton.mp mark
        decide
    · exact percentage c behind
  unfold parse
  rw [Text.lines_join unbroken, takeLines_sure distinct fun _ _ => rfl]
  rfl

theorem score_sureLines {correct : List String} (agree : ∀ q ∈ qs, right q.name = correct.contains q.name) :
    score ⟨qs.map fun q => (q, sure right q)⟩ correct = .whole qs.length := by
  have points : ∀ a ∈ (qs.map fun q => (q, sure right q)).map fun (q, p) => p.score (correct.contains q.name),
      a = .whole 1 := by
    intro a member
    rw [List.map_map] at member
    obtain ⟨q, asked, rfl⟩ := List.mem_map.mp member
    dsimp only [Function.comp, sure]
    rw [agree q asked]
    exact Prediction.score_sure _
  unfold score
  rw [Amount.sum_points points]
  simp

end Response

namespace Tools

open Work

variable {bench : Workbench} {m : AbsMethodId} {request : String}

private theorem execute_askedMethod (asked : AbsMethodId.decode request = .ok m) (name version : String)
    (tags : List String)
    (platform : String) (rest : List String) :
    (askedMethod name version tags platform (request :: rest)).execute bench = (.ok m, bench) := by
  have other : request ≠ "info" := by
    rintro rfl
    cases asked
  have answered (introduction : String) :
      AnalysisInfo.requestedMethod introduction (request :: rest) = ("", .ok m) := by
    rw [AnalysisInfo.requestedMethod, if_neg other, asked]
  have silent : { bench with out := bench.out ++ "" } = bench := by rw [String.append_empty]
  unfold askedMethod
  dsimp only
  rw [answered]
  exact congrArg (Prod.mk _) silent

private theorem guessFromCases_prints {lines : List String} {records : List (String × String)} (platform : String)
    (rest : List String) (asked : AbsMethodId.decode request = .ok m)
    (read : bench.suite.folder.readLines (.ofText "stats/cases.txt") = .ok lines)
    (recorded : lines.mapM recordedResult = .ok records) :
    (guessFromCases platform (request :: rest)).execute bench = (.ok (), { bench with
      out := bench.out ++ String.join (((Folder.sortedNames (records.map (·.2))).map
        (Response.sureLine fun name => decide ((m.encode, name) ∈ records))).map (· ++ "\n")) }) := by
  have texts : (fun name => name ++ if (m.encode, name) ∈ records then ";100%" else ";0%") =
      Response.sureLine fun name => decide ((m.encode, name) ∈ records) := by
    funext name
    simp only [Response.sureLine, decide_eq_true_eq]
    split <;> simp [String.append_assoc]
  unfold guessFromCases
  rw [execute_next (execute_askedMethod asked _ _ _ _ _), execute_next (execute_suite bench), read,
    execute_next (execute_lift _ _), recorded, execute_next (execute_lift _ _), execute_forM_print, texts]

def record (c : Case) : String × String := (c.method.encode, c.result)

private theorem mem_records {lines : List String} {cases : List Case} (decoded : lines.mapM Case.decode = .ok cases)
    (reread : AbsMethodId.decode m.encode = .ok m) (name : String) :
    (m.encode, name) ∈ cases.map record ↔ name ∈ ((Case.results cases).find? m).getD [] := by
  have rereads : ∀ c ∈ cases, AbsMethodId.decode c.method.encode = .ok c.method := by
    refine Yields.mapM ?_ cases decoded
    intro line _ c done
    obtain ⟨_, _, _, _, readMethod, _, _⟩ := Case.decode_eq done
    exact AbsMethodId.decode_encoded readMethod
  rw [Case.mem_results, List.mem_map]
  constructor
  · rintro ⟨c, member, same⟩
    obtain ⟨method, result⟩ := Prod.mk.inj same
    have again := rereads c member
    rw [method, reread] at again
    exact ⟨c, member, (Except.ok.inj again).symm, result⟩
  · rintro ⟨c, member, rfl, rfl⟩
    exact ⟨c, member, rfl⟩

private theorem exists_queries {cases : List Case} (known : ∀ c ∈ cases, ∃ q : Query, c.result = q.name) :
    ∃ qs : List Query, Folder.sortedNames (cases.map Case.result) = qs.map Query.name := by
  have named : Folder.sortedNames (cases.map Case.result) ∈ Set.range (List.map Query.name) := by
    rw [Set.range_list_map]
    intro name member
    obtain ⟨c, found, rfl⟩ := List.mem_map.mp (Folder.mem_sortedNames.mp member)
    obtain ⟨q, same⟩ := known c found
    exact ⟨q, same.symm⟩
  obtain ⟨qs, same⟩ := named
  exact ⟨qs, same.symm⟩

/-- Who answers from the recorded cases is right about each result in them. -/
theorem recorded_answers_earn_every_point {text : String} {cases : List Case} {suite : Suite} (platform : String)
    (rest : List String) (kept : suite.folder.file? suite.caseFile = some text) (fresh : suite.cached = none)
    (copied : bench.suite.folder.file? (.ofText "stats/cases.txt") = some text)
    (decoded : (Folder.fileLines text).mapM Case.decode = .ok cases) (known : ∀ c ∈ cases, ∃ q : Query, c.result = q.name)
    (asked : AbsMethodId.decode request = .ok m) (occurs : ∃ c ∈ cases, c.method = m) :
    ∃ printed table correct, ∃ response : Response Exact,
      (guessFromCases platform (request :: rest)).execute bench = (.ok (), { bench with out := bench.out ++ printed }) ∧
      Response.parse printed = .ok response ∧
      suite.caseMethods.1 = .ok table ∧ table.find? m = some correct ∧
      response.score correct = .whole (cases.map Case.result).toFinset.card := by
  have recorded : (Folder.fileLines text).mapM recordedResult = .ok (cases.map record) := by
    apply mapM_eq_ok_map decoded
    intro line member c found done
    obtain ⟨q, named⟩ := known c found
    exact recordedResult_of_decode (Folder.linesWithEnds_ended List.not_mem_nil member) done named
  have prints := guessFromCases_prints platform rest asked (Folder.readLines_of_file? copied) recorded
  have names : (cases.map record).map (·.2) = cases.map Case.result := by
    rw [List.map_map]
    rfl
  obtain ⟨qs, listed⟩ := exists_queries known
  have distinct : qs.Nodup := by
    apply List.Nodup.of_map Query.name
    rw [← listed]
    exact Folder.sortedNames_nodup _
  obtain ⟨correct, found⟩ := Case.exists_results occurs
  have agree : ∀ q ∈ qs, decide ((m.encode, q.name) ∈ cases.map record) = correct.contains q.name := by
    intro q _
    have right := mem_records decoded (AbsMethodId.decode_encoded asked) q.name
    rw [found, Option.getD_some] at right
    rw [Bool.eq_iff_iff, decide_eq_true_iff, right, List.contains_iff_mem]
  rw [names, listed] at prints
  refine ⟨_, _, correct, _, prints, Response.parse_sureLines distinct, Suite.caseMethods_of_file? kept fresh decoded, found, ?_⟩
  rw [Response.score_sureLines agree, ← Folder.length_sortedNames, listed, List.length_map]

/-- Cases of two methods that share a result, with padding, other line ends and no end of the last line. -/
def sampleText : String := "a.B.f:(I)I (1) -> ok\na.B.f:(I)I   (0) -> divide by zero\r\na.B.g:()V () -> *\na.B.g:()V () -> ok"

def sampleBench : Workbench := { suite := { folder := {
  root := .ofText "/bench"
  entries := [(["stats", "cases.txt"], .file sampleText), (["target", "stats", "cases.txt"], .file sampleText)] } } }

def sampleCases : List Case :=
  let f : AbsMethodId := ⟨⟨"a.B"⟩, ⟨"f", [.int], some .int⟩⟩
  let g : AbsMethodId := ⟨⟨"a.B"⟩, ⟨"g", [], none⟩⟩
  [⟨f, ⟨[.int 1]⟩, "ok"⟩, ⟨f, ⟨[.int 0]⟩, "divide by zero"⟩, ⟨g, ⟨[]⟩, "*"⟩, ⟨g, ⟨[]⟩, "ok"⟩]

theorem sampleAnswers_earn_every_point :
    (Folder.fileLines sampleText).mapM Case.decode = .ok sampleCases ∧
    ∃ printed table correct, ∃ response : Response Exact,
      (guessFromCases "Linux" ["a.B.f:(I)I"]).execute sampleBench =
        (.ok (), { sampleBench with out := sampleBench.out ++ printed }) ∧
      Response.parse printed = .ok response ∧
      sampleBench.suite.caseMethods.1 = .ok table ∧
      table.find? ⟨⟨"a.B"⟩, ⟨"f", [.int], some .int⟩⟩ = some correct ∧ response.score correct = .whole 3 := by
  have decoded : (Folder.fileLines sampleText).mapM Case.decode = .ok sampleCases := by with_unfolding_all rfl
  have known : ∀ c ∈ sampleCases, ∃ q : Query, c.result = q.name := by
    simp only [sampleCases, List.forall_mem_cons]
    exact ⟨⟨.ok, rfl⟩, ⟨.divideByZero, rfl⟩, ⟨.unresolved, rfl⟩, ⟨.ok, rfl⟩, List.forall_mem_nil _⟩
  have asked : AbsMethodId.decode "a.B.f:(I)I" = .ok ⟨⟨"a.B"⟩, ⟨"f", [.int], some .int⟩⟩ := by with_unfolding_all rfl
  exact ⟨decoded, recorded_answers_earn_every_point "Linux" [] (by decide +kernel) rfl (by decide +kernel) decoded known
    asked ⟨_, List.mem_cons_self, rfl⟩⟩

end Tools

end BytecodeBench
