import BytecodeBench.Proofs.Computations
import BytecodeBench.Proofs.FairWagers
import BytecodeBench.Proofs.Tables
import BytecodeBench.Response
import Mathlib.Data.List.Induction
import Mathlib.Data.List.Perm.Subperm

/-! Reading responses. A response is what the last line on each query says; lines that are not on a query count for
nothing, and only a prediction that cannot be read stops the reading. No query earns more than one point. -/

namespace BytecodeBench

namespace Query

theorem ofName?_name (q : Query) : ofName? q.name = some q := by cases q <;> decide

theorem ofName?_eq_some {name : String} {q : Query} : ofName? name = some q ↔ name = q.name := by
  constructor
  · intro found
    have same := List.find?_some found
    exact (eq_of_beq same).symm
  · rintro rfl
    exact ofName?_name q

theorem name_injective : Function.Injective name := by
  intro p q same
  have known := ofName?_name p
  rw [same, ofName?_name] at known
  exact (Option.some.inj known).symm

/-- There are six queries. -/
theorem length_le_six {qs : List Query} (distinct : qs.Nodup) : qs.length ≤ 6 :=
  (List.subperm_of_subset distinct fun q _ => mem_all q).length_le

end Query

namespace Prediction

variable {N : Type} [Quantity N]

/-- What stands before the first percent sign is a number in writing; without the sign, the whole is. -/
def Readable (s : String) : Prop := (Decimal.readWritten? (String.ofList (s.toList.takeWhile (· ≠ '%')))).isSome = true

private theorem parse_eq (s : String) : ∃ meaning : N → Prediction N,
    parse s = meaning <$> readQuantity (String.ofList (s.toList.takeWhile (· ≠ '%'))) := by
  unfold parse
  dsimp only
  split
  · exact ⟨fun percentage => ofProbability (Quantity.div percentage (Quantity.ofInt 100)), bind_pure_comp _ _⟩
  next unmarked =>
    have whole : s.toList.takeWhile (· ≠ '%') = s.toList := by
      refine List.takeWhile_eq_self_iff.mpr ?_
      intro c member
      exact decide_eq_true fun same => unmarked (same ▸ member)
    rw [whole, String.ofList_toList]
    exact ⟨Prediction.mk, rfl⟩

theorem exists_parse {s : String} : (∃ p : Prediction N, parse s = .ok p) ↔ Readable s := by
  obtain ⟨meaning, same⟩ := parse_eq (N := N) s
  rw [same]
  unfold readQuantity Readable
  cases Decimal.readWritten? (String.ofList (s.toList.takeWhile (· ≠ '%'))) with
  | none => simp
  | some written => simp

theorem parse_fails (s : String) : FailsAs .malformed (parse (N := N) s) := by
  obtain ⟨meaning, same⟩ := parse_eq (N := N) s
  rw [same]
  unfold readQuantity
  split <;> intro e failed <;> cases failed
  rfl

end Prediction

namespace Response

variable {N : Type} [Quantity N] {line field : String} {q : Query} {lines : List String}
  {table after : Table Query (Prediction N)}

/-- The line is a query and a text with a semicolon between them. -/
def Answers (line : String) (q : Query) (field : String) : Prop := Text.split ';' line = [q.name, field]

theorem Answers.unique {other : Query} {text : String} (first : Answers line q field) (second : Answers line other text) :
    q = other ∧ field = text := by
  have same : [q.name, field] = [other.name, text] := first.symm.trans second
  simp only [List.cons.injEq, and_true] at same
  exact ⟨Query.name_injective same.1, same.2⟩

private theorem lineOf_answers : Line.of line = .answer q field ↔ Answers line q field := by
  unfold Line.of Answers
  split
  next name text parts =>
    rw [parts]
    split
    next p found =>
      rw [Query.ofName?_eq_some.mp found]
      simp [Query.name_injective.eq_iff]
    next unknown =>
      simp only [reduceCtorEq, List.cons.injEq, and_true, false_iff, not_and]
      rintro rfl
      rw [Query.ofName?_name] at unknown
      cases unknown
  next other =>
    simp only [reduceCtorEq, false_iff]
    exact other q.name field

/-! One line. -/

theorem takeLine_answers (answers : Answers line q field) :
    takeLine table line = do return table.insert q (← Prediction.parse field) := by
  unfold takeLine
  rw [lineOf_answers.mpr answers]

theorem takeLine_other (other : ∀ q field, ¬ Answers line q field) : takeLine table line = .ok table := by
  unfold takeLine
  split
  next q field answer => exact absurd (lineOf_answers.mp answer) (other q field)
  · rfl

/-- A line is on a query, or it is none of the lines that count. -/
theorem answers_or_other (line : String) : (∃ q field, Answers line q field) ∨ ∀ q field, ¬ Answers line q field := by
  by_cases answers : ∃ q field, Answers line q field
  · exact Or.inl answers
  · exact Or.inr fun q field holds => answers ⟨q, field, holds⟩

/-! All lines. -/

private theorem takeLines_fails_iff : (∃ e, lines.foldlM takeLine table = .error e) ↔
    ∃ line ∈ lines, ∃ q field, Answers line q field ∧ ¬ Prediction.Readable field := by
  induction lines generalizing table with
  | nil => simp [pure, Except.pure]
  | cons line lines ih =>
    rw [List.foldlM_cons, List.exists_mem_cons_iff]
    rcases answers_or_other line with ⟨q, field, answers⟩ | other
    · have own : (∃ p text, Answers line p text ∧ ¬ Prediction.Readable text) ↔ ¬ Prediction.Readable field := by
        constructor
        · rintro ⟨p, text, also, unreadable⟩
          rwa [(answers.unique also).2]
        · exact fun unreadable => ⟨q, field, answers, unreadable⟩
      rw [takeLine_answers answers, own, ← Prediction.exists_parse (N := N)]
      cases Prediction.parse (N := N) field with
      | error e => simp [bind, Except.bind]
      | ok p => simpa [bind, Except.bind, pure, Except.pure] using ih
    · have none : ¬ ∃ q field, Answers line q field ∧ ¬ Prediction.Readable field := by
        rintro ⟨q, field, answers, -⟩
        exact other q field answers
      rw [takeLine_other other]
      simpa [none, bind, Except.bind] using ih

private theorem takeLine_fails (line : String) : FailsAs .malformed (takeLine table line) := by
  rcases answers_or_other line with ⟨q, field, answers⟩ | other
  · rw [takeLine_answers answers]
    exact (Prediction.parse_fails field).bind fun _ _ => .pure _
  · rw [takeLine_other other]
    exact .pure table

private theorem takeLines_fails : FailsAs .malformed (lines.foldlM takeLine table) := by
  induction lines generalizing table with
  | nil => exact .pure table
  | cons line lines ih =>
    rw [List.foldlM_cons]
    exact (takeLine_fails line).bind fun _ _ => ih

private theorem takeLine_nodup (distinct : (table.map Prod.fst).Nodup) (line : String) :
    Yields (fun after : Table Query (Prediction N) => (after.map Prod.fst).Nodup) (takeLine table line) := by
  rcases answers_or_other line with ⟨q, field, answers⟩ | other
  · rw [takeLine_answers answers]
    exact .bind fun _ _ => .pure (Table.nodup_insert distinct)
  · rw [takeLine_other other]
    exact .pure distinct

private theorem takeLines_nodup (distinct : (table.map Prod.fst).Nodup) :
    Yields (fun after : Table Query (Prediction N) => (after.map Prod.fst).Nodup) (lines.foldlM takeLine table) := by
  induction lines generalizing table with
  | nil => exact .pure distinct
  | cons line lines ih =>
    rw [List.foldlM_cons]
    exact .bind fun middle taken => ih (takeLine_nodup distinct line middle taken)

def fieldOn? (q : Query) (line : String) : Option String :=
  match Text.split ';' line with
  | [name, field] => if name = q.name then some field else none
  | _ => none

private theorem fieldOn?_eq_some : fieldOn? q line = some field ↔ Answers line q field := by
  unfold fieldOn? Answers
  split
  next name text parts => simp [parts]
  next other =>
    simp only [reduceCtorEq, false_iff]
    exact other q.name field

private theorem fieldOn?_eq_none (silent : ∀ field, ¬ Answers line q field) : fieldOn? q line = none := by
  rw [Option.eq_none_iff_forall_ne_some]
  intro field found
  exact silent field (fieldOn?_eq_some.mp found)

def lastOn? (q : Query) (lines : List String) : Option String := lines.reverse.findSome? (fieldOn? q)

private theorem takeLine_finds (taken : takeLine table line = .ok after) (q : Query) :
    (after.find? q).map .ok = ((fieldOn? q line).map Prediction.parse).or ((table.find? q).map .ok) := by
  rcases answers_or_other line with ⟨p, field, answers⟩ | other
  · rw [takeLine_answers answers] at taken
    obtain ⟨prediction, read, same⟩ := bind_eq_ok.mp taken
    cases same
    rw [Table.find?_insert]
    by_cases own : q = p
    · subst own
      rw [fieldOn?_eq_some.mpr answers, if_pos BEq.rfl, Option.map_some, Option.map_some, read]
      rfl
    · rw [fieldOn?_eq_none fun text also => own (also.unique answers).1, if_neg (by simpa using own)]
      rfl
  · rw [takeLine_other other] at taken
    cases taken
    rw [fieldOn?_eq_none (other q)]
    rfl

/-- Under each query stands what its last line says. -/
theorem takeLines_finds (done : lines.foldlM takeLine [] = .ok table) (q : Query) :
    (table.find? q).map .ok = (lastOn? q lines).map Prediction.parse := by
  unfold lastOn?
  -- From the last line on: it decides for its own query, and the lines before it for all others.
  induction lines using List.reverseRecOn generalizing table with
  | nil =>
    cases done
    rfl
  | append_singleton lines line ih =>
    rw [List.foldlM_append] at done
    obtain ⟨before, first, last⟩ := bind_eq_ok.mp done
    obtain ⟨final, taken, same⟩ := bind_eq_ok.mp last
    cases same
    rw [takeLine_finds taken, ih first, List.reverse_append, List.reverse_singleton, List.singleton_append,
      List.findSome?_cons]
    cases fieldOn? q line <;> rfl

private theorem takeLines_without (other : ∀ q field, ¬ Answers line q field) (before rest : List String) :
    (before ++ line :: rest).foldlM takeLine table = (before ++ rest).foldlM takeLine table := by
  rw [List.foldlM_append, List.foldlM_append]
  congr 1
  funext middle
  rw [List.foldlM_cons, takeLine_other other]
  rfl

private theorem parse_eq_ok {out : String} {r : Response N} :
    parse out = .ok r ↔ (Text.lines out).foldlM takeLine [] = .ok r.predictions := by
  obtain ⟨predictions⟩ := r
  unfold parse
  cases (Text.lines out).foldlM (takeLine (N := N)) [] with
  | error e => simp
  | ok table => simp

private theorem parse_eq_error {out : String} {e : Fault} :
    parse (N := N) out = .error e ↔ (Text.lines out).foldlM (takeLine (N := N)) [] = .error e := by
  unfold parse
  cases (Text.lines out).foldlM (takeLine (N := N)) [] with
  | error e => simp
  | ok table => simp

private theorem parse_nodup {out : String} {r : Response N} (read : parse out = .ok r) :
    (r.predictions.map Prod.fst).Nodup := by
  have begun : (([] : Table Query (Prediction N)).map Prod.fst).Nodup := List.nodup_nil
  exact takeLines_nodup begun r.predictions (parse_eq_ok.mp read)

end Response

/-! Scores. -/

namespace Exact

/-- Not above a bound: a number up to it, or the infinity below all numbers. -/
def AtMost (bound : ℚ) : Exact → Prop
  | rational q => q ≤ bound
  | infinity negative => negative = true
  | undefined => False

theorem AtMost.add {a b : ℚ} {x y : Exact} (first : x.AtMost a) (second : y.AtMost b) :
    (Quantity.add x y).AtMost (a + b) := by
  cases x with
  | undefined => exact first.elim
  | rational p =>
    cases y with
    | rational q => exact add_le_add first second
    | infinity negative => exact second
    | undefined => exact second.elim
  | infinity negative =>
    cases y with
    | rational q => exact first
    | infinity other =>
      cases first
      cases second
      rfl
    | undefined => exact second.elim

end Exact

namespace Amount

private theorem toQuantity_add (a b : Amount Exact) : (a.add b).toQuantity = Quantity.add a.toQuantity b.toQuantity := by
  cases a <;> cases b <;> simp [add, toQuantity]

theorem sum_atMost {amounts : List (Amount Exact)} (each : ∀ a ∈ amounts, a.toQuantity.AtMost 1) :
    (sum amounts).toQuantity.AtMost amounts.length := by
  have counted (start : Amount Exact) (bound : ℚ) (begun : start.toQuantity.AtMost bound) :
      (amounts.foldl add start).toQuantity.AtMost (bound + amounts.length) := by
    -- The bound grows with the sum: one point for each amount that is added.
    induction amounts generalizing start bound with
    | nil => simpa using begun
    | cons a amounts ih =>
      obtain ⟨own, others⟩ := List.forall_mem_cons.mp each
      have step : (start.add a).toQuantity.AtMost (bound + 1) := by
        rw [toQuantity_add]
        exact begun.add own
      have rest := ih others (start.add a) (bound + 1) step
      rw [List.length_cons, Nat.cast_succ, add_comm (amounts.length : ℚ) 1, ← add_assoc]
      exact rest
  have total := counted (whole 0) 0 le_rfl
  rwa [zero_add] at total

end Amount

theorem Prediction.score_atMost {p : Prediction Exact} (defined : p.wager ≠ .undefined) (happens : Bool) :
    (p.score happens).toQuantity.AtMost 1 := by
  obtain ⟨wager⟩ := p
  cases wager with
  | rational w =>
    rw [score_rational]
    exact (earning_lt_one _).le
  | infinity negative =>
    rcases Bool.eq_or_eq_not negative happens with rfl | rfl
    · rw [score_mistaken]
      rfl
    · rw [score_sure]
      exact Int.cast_one.le
  | undefined => exact absurd rfl defined

namespace Response

theorem score_atMost {r : Response Exact} (defined : ∀ row ∈ r.predictions, row.2.wager ≠ .undefined) (correct : List String) :
    (r.score correct).toQuantity.AtMost r.predictions.length := by
  have each : ∀ a ∈ r.predictions.map fun (q, p) => p.score (correct.contains q.name), a.toQuantity.AtMost 1 := by
    intro a member
    obtain ⟨row, known, rfl⟩ := List.mem_map.mp member
    exact Prediction.score_atMost (defined row known) _
  have total := Amount.sum_atMost each
  rwa [List.length_map] at total

/-- A response is what the last line on each query says, and earns at most a point for each query. -/
theorem last_lines_count {N : Type} [Quantity N] (out : String) :
    ((∃ e, parse (N := N) out = .error e) ↔
      ∃ line ∈ Text.lines out, ∃ q field, Answers line q field ∧ ¬ Prediction.Readable field) ∧
    (∀ e, parse (N := N) out = .error e → e.kind = .malformed) ∧
    (∀ r : Response N, parse out = .ok r → (r.predictions.map Prod.fst).Nodup ∧
      ∀ q, (r.predictions.find? q).map .ok = (lastOn? q (Text.lines out)).map Prediction.parse) ∧
    (∀ other before line after, Text.lines out = before ++ line :: after → Text.lines other = before ++ after →
      (∀ q field, ¬ Answers line q field) → parse (N := N) out = parse other) ∧
    ∀ r : Response Exact, parse out = .ok r → (∀ row ∈ r.predictions, row.2.wager ≠ .undefined) → ∀ correct,
      (r.score correct).toQuantity.AtMost r.predictions.length ∧ r.predictions.length ≤ 6 := by
  refine ⟨?_, ?_, ?_, ?_, ?_⟩
  · simp only [parse_eq_error]
    exact takeLines_fails_iff
  · intro e failed
    exact takeLines_fails e (parse_eq_error.mp failed)
  · intro r read
    exact ⟨parse_nodup read, takeLines_finds (parse_eq_ok.mp read)⟩
  · intro other before line after whole without silent
    unfold parse
    rw [whole, without, takeLines_without silent]
  · intro r read defined correct
    have few := Query.length_le_six (parse_nodup read)
    rw [List.length_map] at few
    exact ⟨score_atMost defined correct, few⟩

/-- A response that comes back to a query, with a line of another form and a query that is not known. -/
def sampleOut : String := "ok;75%\nstarting up\r\nok; 2\nweather;1\n*;inf"

def sampleResponse : Response Exact := ⟨[(.ok, ⟨.rational 2⟩), (.unresolved, ⟨.infinity false⟩)]⟩

theorem sampleLines_count :
    parse sampleOut = .ok sampleResponse ∧ parse "ok;75%\nok; 2\nweather;1\n*;inf" = .ok sampleResponse ∧
      (sampleResponse.score ["ok"]).toQuantity.AtMost 2 := by
  have read : parse sampleOut = .ok sampleResponse := by with_unfolding_all rfl
  have defined : ∀ row ∈ sampleResponse.predictions, row.2.wager ≠ .undefined := by decide
  have silent : ∀ q field, ¬ Answers "starting up" q field := by
    intro q field answers
    have single : Text.split ';' "starting up" = ["starting up"] := by decide
    rw [Answers, single] at answers
    simp at answers
  obtain ⟨-, -, -, without, bounded⟩ := last_lines_count (N := Exact) sampleOut
  have shorter := without "ok;75%\nok; 2\nweather;1\n*;inf" ["ok;75%"] "starting up" ["ok; 2", "weather;1", "*;inf"]
    (by decide) (by decide) silent
  exact ⟨read, shorter ▸ read, (bounded sampleResponse read defined ["ok"]).1⟩

end Response
end BytecodeBench
