import BytecodeBench.Proofs.CaseCodec
import BytecodeBench.Proofs.Integers

/-! Cases and their texts. A case that was read from a line is made of the characters of that line: its
text holds no others but those of the format, and the case is read back from it. Of such cases only
equal ones count as the same. -/

namespace BytecodeBench

namespace Datum

theorem sameItems_map {α : Type} {f : α → Datum} (each : ∀ a b, (f a).same (f b) = true ↔ a = b) (as bs : List α) :
    sameItems (as.map f) (bs.map f) = true ↔ as = bs := by
  induction as generalizing bs with
  | nil => cases bs <;> simp [sameItems]
  | cons a as ih =>
    cases bs with
    | nil => simp [sameItems]
    | cons b bs => simp [sameItems, each, ih]

theorem same_flag (a b : Bool) : (flag a).same (flag b) = true ↔ a = b := by
  have counted (b : Bool) : (flag b).integer? = some (if b then 1 else 0) := rfl
  rw [same_integer (counted a) (counted b)]
  cases a <;> cases b <;> decide

end Datum

namespace Value

variable {allowed : Char → Prop} {v w : Value}

/-- Values of one type are the same if their contents are. -/
theorem same_iff_content (types : v.type = w.type) : v.same w = v.content.same w.content := by
  simp [same, types]

/-- Values that can be written count as the same only if they are equal. -/
theorem Codable.same_iff (left : v.Codable allowed) (right : w.Codable allowed) : v.same w = true ↔ v = w := by
  have texts (c d : Char) : (Datum.text c.toString).same (.text d.toString) = true ↔ c = d := by simp [Datum.same]
  have numbers (m n : Int) : (Datum.int m).same (.int n) = true ↔ m = n := by simp [Datum.same_int]
  by_cases types : v.type = w.type
  · rw [same_iff_content types]
    -- Only values of one form have one type.
    cases left with
    | int m =>
      cases right with
      | int n => simp [Value.int, Datum.same_int]
      | _ => cases types
    | boolean a =>
      cases right with
      | boolean b => simp [Value.boolean, Datum.same_flag]
      | _ => cases types
    | char =>
      cases right with
      | char => simp [Value.char, Datum.same]
      | _ => cases types
    | string =>
      cases right with
      | string => simp [Value.string, Datum.same]
      | _ => cases types
    | ints ms =>
      cases right with
      | ints ns =>
        have items := Datum.sameItems_map numbers ms ns
        have injective : Function.Injective Datum.int := fun _ _ same => Datum.int.inj same
        simp [Value.array, Datum.same, items, injective.list_map.eq_iff]
      | _ => cases types
    | @chars cs =>
      cases right with
      | @chars ds =>
        have items := Datum.sameItems_map texts cs ds
        have injective : Function.Injective fun c : Char => Datum.text c.toString := fun _ _ same => by simpa using same
        simp only [Value.array, Datum.same, items, Value.mk.injEq, Datum.tuple.injEq, injective.list_map.eq_iff,
          true_and]
      | _ => cases types
  · have apart : v ≠ w := fun same => types (congrArg Value.type same)
    simp [same, types, apart]

end Value

namespace Input

theorem sameValues_iff {allowed : Char → Prop} {vs ws : List Value} (left : ∀ v ∈ vs, v.Codable allowed)
    (right : ∀ w ∈ ws, w.Codable allowed) : sameValues vs ws = true ↔ vs = ws := by
  induction vs generalizing ws with
  | nil => cases ws <;> simp [sameValues]
  | cons v vs ih =>
    cases ws with
    | nil => simp [sameValues]
    | cons w ws =>
      have first := (left v List.mem_cons_self).same_iff (right w List.mem_cons_self)
      have others := @ih ws (fun x member => left x (List.mem_cons_of_mem v member))
        fun x member => right x (List.mem_cons_of_mem w member)
      simp [sameValues, first, others]

end Input

namespace Case

variable {allowed : Char → Prop} {c d : Case} {line : String}

private theorem cut?_within {cs method input result : List Char} (found : cut? cs = some (method, input, result)) :
    method ⊆ cs ∧ input ⊆ cs ∧ result ⊆ cs := by
  obtain ⟨gap, tail, rfl, -⟩ := cut?_eq found
  refine ⟨?_, ?_, ?_⟩ <;> intro c member <;> simp [member]

/-- Cases that can be written and read back in lines of certain characters: what divides the parts of
a line does not stand within them. -/
structure Clear (allowed : Char → Prop) (c : Case) : Prop where
  unspaced : ∀ d ∈ c.method.encode.toList, d ≠ ' ' ∧ allowed d
  reread : AbsMethodId.decode c.method.encode = .ok c.method
  codable : ∀ v ∈ c.input.values, v.Codable fun d => d ≠ ')' ∧ allowed d
  legible : ∀ v ∈ c.input.values, v.content.legible = true
  unbroken : ∀ d ∈ c.result.toList, d ≠ '\n' ∧ allowed d

theorem decode_clear (own : ∀ d ∈ line.toList, allowed d) (done : decode line = .ok c) : c.Clear allowed := by
  obtain ⟨method, input, result, cuts, readMethod, readInput, resultText⟩ := decode_eq done
  obtain ⟨unspaced, ⟨inner, unclosed, rfl⟩, unbroken⟩ := cut?_parts cuts
  obtain ⟨methodWithin, inputWithin, resultWithin⟩ := cut?_within cuts
  constructor
  · intro d member
    rw [AbsMethodId.decode_encode readMethod, String.toList_ofList] at member
    have inside := List.takeWhile_subset _ member
    exact ⟨fun blank => unspaced (blank ▸ inside), own d (methodWithin inside)⟩
  · exact AbsMethodId.decode_encoded readMethod
  · apply Input.decode_codable_within ?_ (fun d member => own d (inputWithin (List.mem_append_left _ member))) readInput
    rintro (_ | ⟨_, member⟩)
    exact unclosed member
  · exact ValueList.decode_legible (Input.decode_eq_ok.mp readInput).2
  · intro d member
    rw [resultText, String.toList_ofList] at member
    exact ⟨fun newline => unbroken (newline ▸ member), own d (resultWithin member)⟩

def divisions : List Char := " () ->".toList

/-- The text of a clear case is made of its characters, and the case is read back from it. -/
theorem Clear.encode (clear : c.Clear allowed) (format : ∀ d ∈ formatChars ++ divisions, allowed d) :
    ∃ input text, c.input.encode = .ok input ∧ c.encode = .ok text ∧ (∀ d ∈ text.toList, allowed d) ∧
      decode text = .ok c := by
  have unclosed : ∀ d ∈ formatChars, d ≠ ')' := Text.forall_of_all (by decide)
  obtain ⟨values, encoded, within, rereadInput⟩ := Input.encode_codable
    (fun d member => ⟨unclosed d member, format d (List.mem_append_left _ member)⟩) clear.codable clear.legible
  have line : (c.method.encode ++ " " ++ String.ofList ('(' :: values ++ [')']) ++ " -> " ++ c.result).toList =
      c.method.encode.toList ++ ' ' :: '(' :: values ++ ") -> ".toList ++ c.result.toList := by
    simp
  refine ⟨_, c.method.encode ++ " " ++ String.ofList ('(' :: values ++ [')']) ++ " -> " ++ c.result, encoded,
    ?_, ?_, ?_⟩
  · unfold Case.encode
    rw [show c.input.encode = _ from encoded]
    rfl
  · intro d member
    rw [line] at member
    have between : ∀ d ∈ ") -> ".toList, d ∈ divisions := Text.forall_of_all (by decide)
    have dividing (d : Char) (division : d ∈ divisions) : allowed d := format d (List.mem_append_right _ division)
    simp only [List.mem_append, List.mem_cons] at member
    rcases member with ((inMethod | rfl | rfl | inValues) | arrow) | inResult
    · exact (clear.unspaced d inMethod).2
    · exact dividing ' ' (by decide)
    · exact dividing '(' (by decide)
    · exact (within d inValues).2
    · exact dividing d (between d arrow)
    · exact (clear.unbroken d inResult).2
  · unfold decode
    rw [line, cut?_written (fun blank => (clear.unspaced _ blank).1 rfl) (fun close => (within _ close).1 rfl)
      fun newline => (clear.unbroken _ newline).1 rfl]
    dsimp only
    rw [String.ofList_toList, clear.reread, rereadInput, String.ofList_toList]
    rfl

theorem Clear.same_iff (left : c.Clear allowed) (right : d.Clear allowed) : c.same d = true ↔ c = d := by
  obtain ⟨method, ⟨values⟩, result⟩ := c
  obtain ⟨_, ⟨others⟩, _⟩ := d
  have inputs := Input.sameValues_iff left.codable right.codable
  simp [same, Input.same, inputs, and_assoc]

end Case
end BytecodeBench
