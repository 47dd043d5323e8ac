import BytecodeBench.Decimal.Reading
import BytecodeBench.Proofs.TextCuts
import Mathlib.Data.List.Induction
import Mathlib.Tactic.IntervalCases

/-! Integers are read from runs of digits, of whatever script, behind an optional minus sign, unless these are
too many. An integer that can be written is read back from its decimal digits, and whatever integer is read can be
written. -/

namespace BytecodeBench.Decimal

open Text

variable {c : Char} {cs digits : List Char}

def digitChars : List Char := ['0', '1', '2', '3', '4', '5', '6', '7', '8', '9']

private theorem mem_digitChars (digit : c.isDigit = true) : c ∈ digitChars := by
  simp only [Char.isDigit, Bool.and_eq_true, decide_eq_true_eq] at digit
  obtain ⟨least, most⟩ := digit
  have low : 48 ≤ c.toNat := least
  have high : c.toNat ≤ 57 := most
  have same : Char.ofNat c.toNat = c := Char.ofNat_toNat c
  rw [← same]
  interval_cases c.toNat <;> decide

theorem toDigits_subset (n : Nat) : ∀ c ∈ Nat.toDigits 10 n, c ∈ digitChars :=
  fun _ member => mem_digitChars (Nat.isDigit_of_mem_toDigits (by decide) (by decide) member)

private theorem digit_value : ∀ c ∈ digitChars, digitValue? c = some (c.toNat - '0'.toNat) :=
  forall_of_all (by decide)

/-! Digits and what may stand around them. -/

private theorem zeros_apart_from_blanks :
    ∀ first ∈ digitZeros.toList, ∀ range ∈ blankRanges.toList, first + 9 < range.1 ∨ range.2 < first := by
  decide +kernel

/-- A digit stands less than ten places behind the zero of its script. -/
theorem exists_digitZero (digit : isDecimalDigit c = true) :
    ∃ first ∈ digitZeros.toList, first ≤ c.toNat ∧ c.toNat < first + 10 := by
  unfold isDecimalDigit digitValue? at digit
  split at digit
  · split at digit
    next ascii =>
      simp only [Char.isDigit, Bool.and_eq_true, decide_eq_true_eq] at ascii
      have low : 0x30 ≤ c.toNat := ascii.1
      have high : c.toNat ≤ 0x39 := ascii.2
      exact ⟨0x30, by decide, low, by omega⟩
    · cases digit
  · rw [Option.isSome_map] at digit
    obtain ⟨first, found⟩ := Option.isSome_iff_exists.mp digit
    have near := Array.find?_some found
    simp only [Bool.and_eq_true, decide_eq_true_eq] at near
    exact ⟨first, Array.mem_toList_iff.mpr (Array.mem_of_find?_eq_some found), near⟩

private theorem digit_not_padding (digit : isDecimalDigit c = true) : isPadding c = false := by
  obtain ⟨first, listed, low, high⟩ := exists_digitZero digit
  have solid : isBlank c = false := by
    rw [Bool.eq_false_iff]
    intro blank
    unfold isBlank Ranges.covers at blank
    obtain ⟨range, among, covers⟩ := Array.any_eq_true'.mp blank
    simp only [Bool.and_eq_true, decide_eq_true_eq] at covers
    have apart := zeros_apart_from_blanks first listed range (Array.mem_toList_iff.mpr among)
    omega
  unfold isPadding
  rw [solid, Bool.false_and]

/-- Text without padding characters stands as it is. -/
theorem unpadded_ofList (plain : ∀ c ∈ cs, isPadding c = false) : unpadded (String.ofList cs) = cs := by
  have kept {ds : List Char} (plain : ∀ c ∈ ds, isPadding c = false) : ds.dropWhile isPadding = ds := by
    cases ds with
    | nil => rfl
    | cons d ds => rw [List.dropWhile_cons_of_neg (by simp [plain d List.mem_cons_self])]
  have reversed : ∀ c ∈ cs.reverse, isPadding c = false := fun c member => plain c (List.mem_reverse.mp member)
  unfold unpadded
  rw [String.toList_ofList, kept plain, kept reversed, List.reverse_reverse]

/-- A digit is no sign. -/
theorem takeSign_digits (digital : ∀ c ∈ digits, isDecimalDigit c = true) : takeSign digits = (false, digits) := by
  cases digits with
  | nil => rfl
  | cons c cs =>
    have digit := digital c List.mem_cons_self
    unfold takeSign
    split
    next minus => cases minus; exact absurd digit (by decide)
    next plus => cases plus; exact absurd digit (by decide)
    · rfl

/-! Runs of digits. -/

def runValue (digits : List Char) : Nat := ofDigits 10 (digits.map fun c => (digitValue? c).getD 0)

private theorem digitRun?_digits (digital : ∀ c ∈ cs, isDecimalDigit c = true) (filled : cs ≠ []) :
    digitRun? digitValue? cs = some (cs.map fun c => (digitValue? c).getD 0) := by
  induction cs with
  | nil => exact (filled rfl).elim
  | cons c cs ih =>
    obtain ⟨n, value⟩ := Option.isSome_iff_exists.mp (digital c List.mem_cons_self)
    cases cs with
    | nil => simp [digitRun?, value]
    | cons d rest =>
      have joined : d ≠ '_' := by
        rintro rfl
        exact absurd (digital '_' (by simp)) (by decide)
      have tail := ih (fun e member => digital e (List.mem_cons_of_mem c member)) (List.cons_ne_nil d rest)
      rw [digitRun?, value, tail]
      · simp [value]
      · rintro ⟨⟩
      · rintro _ ⟨⟩
        exact joined rfl

/-- A run of digits behind an optional minus sign. -/
theorem readInt?_run (negative : Bool) (digital : ∀ c ∈ digits, isDecimalDigit c = true) (filled : digits ≠ []) :
    readInt? (String.ofList ((if negative then ['-'] else []) ++ digits)) =
      if digits.length ≤ digitLimit then some (if negative then -(runValue digits : Int) else runValue digits) else none := by
  have plain : ∀ c ∈ (if negative then ['-'] else []) ++ digits, isPadding c = false := by
    intro c member
    rcases List.mem_append.mp member with sign | digit
    · cases negative with
      | false => cases sign
      | true => rw [List.mem_singleton.mp sign]; decide +kernel
    · exact digit_not_padding (digital c digit)
  have signed : takeSign ((if negative then ['-'] else []) ++ digits) = (negative, digits) := by
    cases negative with
    | true => rfl
    | false => exact takeSign_digits digital
  unfold readInt?
  rw [unpadded_ofList plain, signed]
  dsimp only
  rw [digitRun?_digits digital filled, Option.bind_eq_bind, Option.bind_some, limited?, List.length_map]
  split <;> rfl

private theorem runValue_toDigits (n : Nat) : runValue (Nat.toDigits 10 n) = n := by
  have values : (Nat.toDigits 10 n).map (fun c => (digitValue? c).getD 0) =
      (Nat.toDigits 10 n).map fun c => c.toNat - '0'.toNat := by
    apply List.map_congr_left
    intro c member
    rw [digit_value c (toDigits_subset n c member)]
    rfl
  have read : Nat.ofDigitChars 10 (Nat.toDigits 10 n) 0 = n := Nat.ofDigitChars_toDigits (by decide) (by decide)
  unfold runValue ofDigits
  rw [values, List.foldl_map]
  conv_rhs => rw [← read]
  simp only [Nat.ofDigitChars, Nat.mul_comm]

theorem toList_toString (n : Int) :
    (toString n).toList = (if n < 0 then ['-'] else []) ++ Nat.toDigits 10 n.natAbs := by
  cases n with
  | ofNat n =>
    have unsigned : ¬ Int.ofNat n < 0 := by simp
    rw [if_neg unsigned]
    exact Nat.toList_repr
  | negSucc n =>
    have signed : Int.negSucc n < 0 := Int.negSucc_lt_zero n
    have text : toString (Int.negSucc n) = "-" ++ (n + 1).repr := rfl
    rw [if_pos signed, text, String.toList_append, Nat.toList_repr]
    rfl

theorem toDigits_digital (n : Nat) : ∀ c ∈ Nat.toDigits 10 n, isDecimalDigit c = true := by
  intro c member
  rw [isDecimalDigit, digit_value c (toDigits_subset n c member)]
  rfl

theorem readInt?_toString (n : Int) : readInt? (toString n) = if legible n then some n else none := by
  have read := readInt?_run (decide (n < 0)) (toDigits_digital n.natAbs) Nat.toDigits_ne_nil
  have value : (if n < 0 then -(n.natAbs : Int) else n.natAbs) = n := by split <;> omega
  simp only [decide_eq_true_eq, runValue_toDigits, value] at read
  rw [← toList_toString, String.ofList_toList] at read
  rw [read]
  simp only [legible, decide_eq_true_eq]

/-! Integers that are read. -/

private theorem legible_iff (n : Int) : legible n = true ↔ n.natAbs < 10 ^ digitLimit := by
  rw [legible, decide_eq_true_eq]
  exact Nat.length_toDigits_le_iff (by decide) (by decide)

@[irreducible]
def leastIllegible : Int := 10 ^ digitLimit

theorem leastIllegible_illegible : legible leastIllegible = false := by
  have ten : (10 : Int).natAbs = 10 := rfl
  rw [Bool.eq_false_iff, Ne, legible_iff, leastIllegible, Int.natAbs_pow, ten]
  exact Nat.lt_irrefl _

private theorem digitValue?_lt {d : Nat} (value : digitValue? c = some d) : d < 10 := by
  unfold digitValue? at value
  split at value
  · split at value
    next ascii =>
      simp only [Char.isDigit, Bool.and_eq_true, decide_eq_true_eq] at ascii
      have high : c.toNat ≤ 57 := ascii.2
      have zero : '0'.toNat = 48 := rfl
      cases value
      omega
    · cases value
  · obtain ⟨first, found, rfl⟩ := Option.map_eq_some_iff.mp value
    have near := Array.find?_some found
    simp only [Bool.and_eq_true, decide_eq_true_eq] at near
    omega

private theorem digitRun?_lt {ds : List Nat} (run : digitRun? digitValue? cs = some ds) : ∀ d ∈ ds, d < 10 := by
  fun_induction digitRun? digitValue? cs generalizing ds with
  | case1 => cases run
  | case2 c =>
    obtain ⟨d, value, rfl⟩ := Option.map_eq_some_iff.mp run
    exact List.forall_mem_singleton.mpr (digitValue?_lt value)
  | case3 c rest ih | case4 c rest _ _ ih =>
    obtain ⟨d, value, further⟩ := Option.bind_eq_some_iff.mp run
    obtain ⟨others, tail, same⟩ := Option.bind_eq_some_iff.mp further
    cases same
    exact List.forall_mem_cons.mpr ⟨digitValue?_lt value, ih tail⟩

private theorem ofDigits_lt {base : Nat} {ds : List Nat} (small : ∀ d ∈ ds, d < base) :
    ofDigits base ds < base ^ ds.length := by
  induction ds using List.reverseRecOn with
  | nil => exact Nat.one_pos
  | append_singleton ds d ih =>
    obtain ⟨others, own⟩ := List.forall_mem_append.mp small
    have last : d < base := own d List.mem_cons_self
    have value : ofDigits base (ds ++ [d]) = ofDigits base ds * base + d := List.foldl_append
    calc
      ofDigits base (ds ++ [d]) < (ofDigits base ds + 1) * base := by rw [value, Nat.add_mul]; omega
      _ ≤ base ^ ds.length * base := Nat.mul_le_mul_right base (ih others)
      _ = base ^ (ds ++ [d]).length := by rw [List.length_append, List.length_singleton, Nat.pow_succ]

/-- Leading zeros count as digits, so what is read never has more digits than it was read from. -/
theorem legible_of_readInt? {s : String} {n : Int} (read : readInt? s = some n) : legible n = true := by
  obtain ⟨ds, run, further⟩ := Option.bind_eq_some_iff.mp read
  obtain ⟨m, few, same⟩ := Option.bind_eq_some_iff.mp further
  unfold limited? at few
  split at few
  next bound =>
    cases few
    have size : ofDigits 10 ds < 10 ^ digitLimit :=
      (ofDigits_lt (digitRun?_lt run)).trans_le (Nat.pow_le_pow_right (by decide) bound)
    have magnitude : n.natAbs = ofDigits 10 ds := by
      cases same
      split <;> omega
    rwa [legible_iff, magnitude]
  · cases few

end BytecodeBench.Decimal
