import BytecodeBench.Proofs.Identifiers
import BytecodeBench.Proofs.InputCodec

/-! Cases survive writing and reading. A line is read generously: blanks pad it, only the first line of
its method and of its result counts, and anything may stand between the tokens of its values. What is
read has a plain text, in which the same places divide it. -/

namespace BytecodeBench.Case

variable {method inner result : List Char}

/-- What the parts of a line cannot hold. -/
theorem cut?_parts {cs input : List Char} (found : cut? cs = some (method, input, result)) :
    ' ' ∉ method ∧ (∃ inner, ')' ∉ inner ∧ input = '(' :: inner ++ [')']) ∧ '\n' ∉ result := by
  unfold cut? at found
  split at found
  · cases found
  · split at found
    next inner _ =>
      split at found
      · cases found
        exact ⟨Text.notMem_takeWhile ' ' cs, ⟨_, Text.notMem_takeWhile ')' inner, rfl⟩, Text.newline_notMem_firstLine _⟩
      · cases found
    · cases found

/-- The parts of a line and what divides them make up the line, up to its end. -/
theorem cut?_eq {cs input : List Char} (found : cut? cs = some (method, input, result)) :
    ∃ gap tail, cs = method ++ ' ' :: gap ++ input ++ " -> ".toList ++ result ++ tail ∧
      (tail = [] ∨ ∃ rest, tail = '\n' :: rest) := by
  unfold cut? at found
  split at found
  · cases found
  next opened =>
    split at found
    next inner spaced =>
      split at found
      next last arrow =>
        cases found
        obtain ⟨gap, shape⟩ := (Text.dropWhile_cases ' ' cs).resolve_left opened
        have divided : gap = gap.takeWhile (· = ' ') ++ '(' :: inner := by
          rw [shape, List.dropWhile_cons_of_pos (by decide)] at spaced
          rw [← spaced, List.takeWhile_append_dropWhile]
        have closed : inner = inner.takeWhile (· ≠ ')') ++ ")".toList ++ " -> ".toList ++ last := by
          have behind := Text.dropLead?_eq_some.mp arrow
          have parts := @List.takeWhile_append_dropWhile _ (· ≠ ')') inner
          rw [behind] at parts
          simpa using parts.symm
        have ended : last = Text.firstLine last ++ last.dropWhile (· ≠ '\n') :=
          List.takeWhile_append_dropWhile.symm
        refine ⟨gap.takeWhile (· = ' '), last.dropWhile (· ≠ '\n'), ?_, Text.dropWhile_cases '\n' last⟩
        calc cs = cs.takeWhile (· ≠ ' ') ++ ' ' :: gap := Text.eq_of_dropWhile shape
          _ = cs.takeWhile (· ≠ ' ') ++ ' ' :: (gap.takeWhile (· = ' ') ++ '(' :: (inner.takeWhile (· ≠ ')') ++
              ")".toList ++ " -> ".toList ++ (Text.firstLine last ++ last.dropWhile (· ≠ '\n')))) := by
            rw [← ended, ← closed, ← divided]
          _ = _ := by simp
      · cases found
    · cases found

/-- Parts that hold none of what divides them are found again. -/
theorem cut?_written (unspaced : ' ' ∉ method) (unclosed : ')' ∉ inner) (unbroken : '\n' ∉ result) :
    cut? (method ++ ' ' :: '(' :: inner ++ ") -> ".toList ++ result) = some (method, '(' :: inner ++ [')'], result) := by
  have shape : method ++ ' ' :: '(' :: inner ++ ") -> ".toList ++ result =
      method ++ ' ' :: ('(' :: (inner ++ ')' :: (" -> ".toList ++ result))) := by simp
  have arrow : Text.dropLead? ") -> ".toList (')' :: (" -> ".toList ++ result)) = some result :=
    Text.dropLead?_eq_some.mpr rfl
  have opened (rest : List Char) : (' ' :: '(' :: rest).dropWhile (· = ' ') = '(' :: rest := rfl
  unfold cut?
  rw [shape, Text.dropWhile_append unspaced, Text.takeWhile_append unspaced]
  dsimp only
  rw [opened]
  split
  next same =>
    cases same
    rw [Text.dropWhile_append unclosed, Text.takeWhile_append unclosed, arrow]
    dsimp only
    rw [Text.firstLine_of_notMem unbroken]
  next other => exact absurd rfl (other _)

theorem decode_eq {line : String} {c : Case} (done : decode line = .ok c) :
    ∃ method input result, cut? line.toList = some (method, input, result) ∧
      AbsMethodId.decode (String.ofList method) = .ok c.method ∧ Input.decode (String.ofList input) = .ok c.input ∧
      c.result = String.ofList result := by
  unfold decode at done
  split at done
  · cases done
  next method input result cuts =>
    obtain ⟨id, readMethod, remaining⟩ := bind_eq_ok.mp done
    obtain ⟨values, readInput, last⟩ := bind_eq_ok.mp remaining
    cases last
    exact ⟨method, input, result, cuts, readMethod, readInput, rfl⟩

/-- Whatever line is read as a case, the case has a text, and reading that gives the case again. -/
theorem decode_then_encode_stable (line : String) (c : Case) (done : decode line = .ok c) :
    ∃ text, c.encode = .ok text ∧ decode text = .ok c := by
  obtain ⟨method, input, result, cuts, readMethod, readInput, resultText⟩ := decode_eq done
  obtain ⟨unspaced, ⟨inner, unclosed, rfl⟩, unbroken⟩ := cut?_parts cuts
  -- The method is written as the first line of what was read.
  have written := AbsMethodId.decode_encode readMethod
  rw [String.toList_ofList] at written
  have methodUnspaced : ' ' ∉ c.method.encode.toList := by
    rw [written]
    exact fun member => unspaced (List.takeWhile_subset _ member)
  have rereadMethod := AbsMethodId.decode_encoded readMethod
  -- The values hold no parenthesis, so theirs is the first one of the line.
  have frontUnclosed : ')' ∉ '(' :: inner := by
    rintro (_ | ⟨_, member⟩)
    exact unclosed member
  have codable := Input.decode_codable frontUnclosed readInput
  have legible := ValueList.decode_legible (Input.decode_eq_ok.mp readInput).2
  obtain ⟨values, encoded, allowed, rereadInput⟩ := Input.encode_codable (Text.forall_of_all (by decide)) codable legible
  have valuesUnclosed : ')' ∉ values := fun member => allowed _ member rfl
  refine ⟨c.method.encode ++ " " ++ String.ofList ('(' :: values ++ [')']) ++ " -> " ++ c.result, ?_, ?_⟩
  · unfold encode
    rw [show c.input.encode = _ from encoded]
    rfl
  · have line : (c.method.encode ++ " " ++ String.ofList ('(' :: values ++ [')']) ++ " -> " ++ c.result).toList =
        c.method.encode.toList ++ ' ' :: '(' :: values ++ ") -> ".toList ++ result := by
      simp [resultText]
    unfold decode
    rw [line, cut?_written methodUnspaced valuesUnclosed unbroken]
    dsimp only
    rw [String.ofList_toList, rereadMethod, rereadInput, ← resultText]
    rfl

/-- A line with padding, a digit of another script, text between its values and text behind its result. -/
def generousLine : String := "a.B.run:(IC)V   (٣, and 'x') -> ok\nthe end"

theorem generousLine_stable :
    ∃ c, decode generousLine = .ok c ∧ c.input.values = [.int 3, .char 'x'] ∧
      ∃ text, c.encode = .ok text ∧ decode text = .ok c := by
  have done : decode generousLine =
      .ok ⟨⟨⟨"a.B"⟩, ⟨"run", [.int, .char], none⟩⟩, ⟨[.int 3, .char 'x']⟩, "ok"⟩ := by
    with_unfolding_all rfl
  exact ⟨_, done, rfl, decode_then_encode_stable _ _ done⟩

end BytecodeBench.Case
