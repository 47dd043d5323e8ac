import BytecodeBench.Proofs.TypedTestCases
import BytecodeBench.Proofs.WordArithmetic

/-! The ways in which a mutation changes an integer, apart from the draws that choose between them. Some source
chooses each of them, and a word stays a word under all but a few. -/

namespace BytecodeBench

theorem LiteralTable.ints_of_intsOrFault {table : LiteralTable} {ints : List Int} (found : table.intsOrFault = .ok ints) :
    table.ints.getD [] = ints := by
  unfold LiteralTable.intsOrFault at found
  split at found
  next known =>
    cases found
    rw [known]
    rfl
  next missing =>
    rw [missing]
    split at found <;> cases found
    rfl

namespace Fuzz

inductive IntChange
  | take (target : Int)
  | approach (target divisor : Int)
  | shift (amount : Int)
  | setByte (place : Nat) (byte : Int)
  | negate
  deriving DecidableEq

namespace IntChange

def apply (n : Int) : IntChange → Int
  | take target => target
  | approach target divisor =>
    let step := max 1 ((target - n).natAbs / divisor)
    if target - n > 0 then n + step else n - step
  | shift amount => n + amount
  | setByte place byte => replaceByte n place byte
  | negate => -n

/-- The changes that can be drawn where some literals guide the draws. -/
def Open (ints : List Int) : IntChange → Prop
  | take target => target ∈ ints
  | approach target divisor => target ∈ ints ∧ 2 ≤ divisor ∧ divisor ≤ 6
  | shift amount => amount ∈ [-10, -1, 1, 10, 42, -42]
  | setByte place byte => place ∈ [0, 8, 16, 24] ∧ 0 ≤ byte ∧ byte ≤ 255
  | negate => True

def Overshoots (n : Int) : IntChange → Prop
  | take _ => False
  | approach target _ => n = target ∧ n = -2 ^ 31
  | shift amount => n + amount < -2 ^ 31 ∨ 2 ^ 31 ≤ n + amount
  | setByte place byte => place = 24 ∧ (0 ≤ n ↔ 128 ≤ byte)
  | negate => n = -2 ^ 31

variable {n : Int} {ints : List Int}

private theorem approach_between {target divisor : Int} (apart : n ≠ target) :
    (n ≤ (approach target divisor).apply n ∧ (approach target divisor).apply n ≤ target) ∨
      (target ≤ (approach target divisor).apply n ∧ (approach target divisor).apply n ≤ n) := by
  have short : ((target - n).natAbs : Int) / divisor ≤ (target - n).natAbs :=
    Int.ediv_le_self _ (Int.natCast_nonneg _)
  unfold apply
  dsimp only
  split
  · left
    omega
  · right
    omega

private theorem approach_self (divisor : Int) : (approach n divisor).apply n = n - 1 := by
  simp [apply]

private theorem fitsWord_replaceByte {place : Nat} {byte : Int} (word : FitsWord n) (known : place ∈ [0, 8, 16, 24])
    (least : 0 ≤ byte) (most : byte ≤ 255) :
    FitsWord (replaceByte n place byte) ↔ ¬(place = 24 ∧ (0 ≤ n ↔ 128 ≤ byte)) := by
  obtain ⟨low, high⟩ := word
  simp only [List.mem_cons, List.not_mem_nil, or_false] at known
  rcases known with rfl | rfl | rfl | rfl
  · have value : replaceByte n 0 byte = n / 256 * 256 + byte * 1 + n % 1 := rfl
    rw [FitsWord, value]
    omega
  · have value : replaceByte n 8 byte = n / 65536 * 65536 + byte * 256 + n % 256 := rfl
    rw [FitsWord, value]
    omega
  · have value : replaceByte n 16 byte = n / 16777216 * 16777216 + byte * 65536 + n % 65536 := rfl
    rw [FitsWord, value]
    omega
  · have value : replaceByte n 24 byte = n / 4294967296 * 4294967296 + byte * 16777216 + n % 16777216 := rfl
    rw [FitsWord, value]
    omega

theorem fitsWord_apply_iff {c : IntChange} (drawn : c.Open ints) (literals : ∀ k ∈ ints, FitsWord k) (word : FitsWord n) :
    FitsWord (c.apply n) ↔ ¬c.Overshoots n := by
  cases c with
  | take target => exact ⟨fun _ => not_false, fun _ => literals target drawn⟩
  | approach target divisor =>
    have reached := literals target drawn.1
    unfold FitsWord at *
    by_cases same : n = target
    -- the step is never less than one, so that the literal itself is left, downwards
    · subst same
      rw [approach_self]
      change _ ↔ ¬(n = n ∧ n = -2 ^ 31)
      omega
    · have between := @approach_between n target divisor same
      change _ ↔ ¬(n = target ∧ n = -2 ^ 31)
      omega
  | shift amount =>
    change (-2 ^ 31 ≤ n + amount ∧ n + amount < 2 ^ 31) ↔ ¬(n + amount < -2 ^ 31 ∨ 2 ^ 31 ≤ n + amount)
    omega
  | setByte place byte => exact fitsWord_replaceByte word drawn.1 drawn.2.1 drawn.2.2
  | negate =>
    unfold FitsWord at *
    change (-2 ^ 31 ≤ -n ∧ -n < 2 ^ 31) ↔ ¬n = -2 ^ 31
    omega

/-- The top byte takes the sign of a word to the wrong side. -/
theorem exists_overshoots (ints : List Int) (n : Int) : ∃ c : IntChange, c.Open ints ∧ c.Overshoots n := by
  by_cases negative : n < 0
  · exact ⟨.setByte 24 0, ⟨by decide, by decide, by decide⟩, rfl, by omega⟩
  · exact ⟨.setByte 24 128, ⟨by decide, by decide, by decide⟩, rfl, by omega⟩

end IntChange

/-! Drawing changes. -/

section Drawing

variable {σ : Type} (r : Randomness σ)

def drawAim (first : Int) (rest : List Int) : Drawing σ IntChange := do
  let target ← r.choose first rest
  if ← r.yes 0.5 then return .take target
  return .approach target (← r.between 2 6)

def drawPerturbation : Drawing σ IntChange := do
  if ← r.yes 0.2 then return .shift (← r.choose (-10) [-1, 1, 10, 42, -42])
  if ← r.yes 0.8 then
    let byte ← r.between 0 255
    return .setByte (← r.choose 0 [8, 16, 24]) byte
  return .negate

def drawChange (table : LiteralTable) : Drawing σ IntChange := do
  match ← ExceptT.mk (pure table.intsOrFault) with
  | [] => drawPerturbation r
  | first :: rest => if ← r.yes 0.35 then drawAim r first rest else drawPerturbation r

variable {r}

private theorem aimInt_eq (n first : Int) (rest : List Int) :
    aimInt r (.int n) first rest = (·.apply n) <$> drawAim r first rest := by
  unfold aimInt drawAim
  rw [map_bind]
  refine bind_congr fun target => ?_
  rw [map_bind]
  refine bind_congr fun exactly => ?_
  split
  · simp [IntChange.apply]
  · simp [IntChange.apply, integer, Datum.integer?]

private theorem perturbInt_eq (n : Int) : perturbInt r (.int n) = (·.apply n) <$> drawPerturbation r := by
  unfold perturbInt drawPerturbation
  rw [map_bind]
  refine bind_congr fun little => ?_
  split
  · simp [IntChange.apply, integer, Datum.integer?]
  · rw [map_bind]
    refine bind_congr fun byte => ?_
    split
    · simp [IntChange.apply, integer, Datum.integer?]
    · simp [IntChange.apply, integer, Datum.integer?]

private theorem mutateInt_eq (table : LiteralTable) (n : Int) :
    mutateInt r table (.int n) = (·.apply n) <$> drawChange r table := by
  unfold mutateInt drawChange
  rw [map_bind]
  refine bind_congr fun ints => ?_
  split
  · exact perturbInt_eq n
  · rw [map_bind]
    refine bind_congr fun aims => ?_
    split
    · exact aimInt_eq n _ _
    · exact perturbInt_eq n

private theorem drawAim_open (first : Int) (rest : List Int) :
    Draws (IntChange.Open (first :: rest)) (drawAim r first rest) := by
  refine (choose_member first rest).bind fun target member => .after fun exactly => ?_
  split
  · exact .pure member
  · exact (between_succeeds (by decide)).draws.bind fun divisor bounds => .pure ⟨member, bounds⟩

private theorem drawPerturbation_open (ints : List Int) : Draws (IntChange.Open ints) (drawPerturbation r) := by
  refine .after fun little => ?_
  split
  · exact (choose_member _ _).bind fun amount member => .pure member
  · refine .after fun byte => ?_
    split
    · refine (between_succeeds (by decide)).draws.bind fun byte bounds => ?_
      exact (choose_member _ _).bind fun place member => .pure ⟨member, bounds⟩
    · exact .pure trivial

private theorem drawChange_open (table : LiteralTable) :
    Draws (IntChange.Open (table.ints.getD [])) (drawChange r table) := by
  refine (Draws.given _).bind fun ints found => ?_
  rw [LiteralTable.ints_of_intsOrFault found]
  split
  · exact drawPerturbation_open []
  · refine .after fun aims => ?_
    split
    · exact drawAim_open _ _
    · exact drawPerturbation_open _

end Drawing

/-! Every change is drawn by some source. -/

/-- A source that gives answers put in line for it; a chance is taken unless its answer is zero. -/
def scripted : Randomness (List Nat) where
  chance _ script := (script.headD 0 != 0, script.tail)
  below bound script := (script.headD 0 % bound, script.tail)
  below_lt _ _ positive := Nat.mod_lt _ positive

/-- With the right answers put in line, a drawing comes to a result and uses them up. -/
def Scripts {α : Type} (drawing : Drawing (List Nat) α) (a : α) : Prop :=
  ∃ script, ∀ rest, drawing.run.run (script ++ rest) = (.ok a, rest)

namespace Scripts

variable {α β : Type}

theorem pure (a : α) : Scripts (Pure.pure a) a := ⟨[], fun _ => rfl⟩

theorem bind {drawing : Drawing (List Nat) α} {next : α → Drawing (List Nat) β} {a : α} {b : β}
    (first : Scripts drawing a) (rest : Scripts (next a) b) : Scripts (drawing >>= next) b := by
  obtain ⟨script, gives⟩ := first
  obtain ⟨others, ends⟩ := rest
  refine ⟨script ++ others, fun last => ?_⟩
  rw [Drawing.run_bind, List.append_assoc, gives]
  exact ends last

theorem yes (probability : Float) : Scripts (scripted.yes probability) true := ⟨[1], fun _ => rfl⟩

theorem no (probability : Float) : Scripts (scripted.yes probability) false := ⟨[0], fun _ => rfl⟩

theorem number {n bound : Nat} (inside : n < bound) : Scripts (scripted.number bound) n := by
  refine ⟨[n], fun rest => ?_⟩
  change (Except.ok (n % bound), rest) = _
  rw [Nat.mod_eq_of_lt inside]

theorem between {n first last : Int} (least : first ≤ n) (most : n ≤ last) : Scripts (scripted.between first last) n := by
  have drawn : Scripts (scripted.number (last - first + 1).toNat) (n - first).toNat := number (by omega)
  have sum : first + ((n - first).toNat : Int) = n := by omega
  refine drawn.bind ?_
  rw [sum]
  exact pure n

theorem choose {a first : α} {rest : List α} (member : a ∈ first :: rest) : Scripts (scripted.choose first rest) a := by
  obtain ⟨i, inside, found⟩ := List.getElem_of_mem member
  have drawn : Scripts (scripted.number (rest.length + 1)) i := number inside
  refine drawn.bind ?_
  rw [List.getElem?_eq_getElem inside, found]
  exact pure a

theorem map {drawing : Drawing (List Nat) α} {a : α} (change : α → β) (scripts : Scripts drawing a) :
    Scripts (change <$> drawing) (change a) := by
  rw [← bind_pure_comp]
  exact scripts.bind (pure _)

theorem given {x : Except Fault α} {a : α} (known : x = .ok a) :
    Scripts (ExceptT.mk (Pure.pure x)) a := by
  subst known
  exact pure a

theorem change {table : LiteralTable} {ints : List Int} (found : table.intsOrFault = .ok ints) {c : IntChange}
    (drawn : c.Open ints) : Scripts (drawChange scripted table) c := by
  have perturbs (perturbation : Scripts (drawPerturbation scripted) c) : Scripts (drawChange scripted table) c := by
    refine (given found).bind ?_
    cases ints with
    | nil => exact perturbation
    | cons first rest => exact (no _).bind perturbation
  have aims (first : Int) (rest : List Int) (same : ints = first :: rest)
      (aim : Scripts (drawAim scripted first rest) c) : Scripts (drawChange scripted table) c := by
    subst same
    exact (given found).bind ((yes _).bind aim)
  cases c with
  | take target =>
    obtain ⟨first, rest, same⟩ := List.exists_cons_of_ne_nil (List.ne_nil_of_mem drawn)
    subst same
    exact aims first rest rfl ((choose drawn).bind ((yes _).bind (pure _)))
  | approach target divisor =>
    obtain ⟨member, least, most⟩ := drawn
    obtain ⟨first, rest, same⟩ := List.exists_cons_of_ne_nil (List.ne_nil_of_mem member)
    subst same
    exact aims first rest rfl ((choose member).bind ((no _).bind ((between least most).bind (pure _))))
  | shift amount => exact perturbs ((yes _).bind ((choose drawn).bind (pure _)))
  | setByte place byte =>
    obtain ⟨member, least, most⟩ := drawn
    exact perturbs ((no _).bind ((yes _).bind ((between least most).bind ((choose member).bind (pure _)))))
  | negate => exact perturbs ((no _).bind ((no _).bind (pure _)))

end Scripts

theorem mutateInt_changes {σ : Type} {r : Randomness σ} {table : LiteralTable} (n : Int) :
    Draws (fun m => ∃ c : IntChange, c.Open (table.ints.getD []) ∧ c.apply n = m) (mutateInt r table (.int n)) := by
  rw [mutateInt_eq, ← bind_pure_comp]
  exact (drawChange_open table).bind fun c drawn => .pure ⟨c, drawn, rfl⟩

theorem mutateInt_obtains_iff {table : LiteralTable} {ints : List Int} (known : table.intsOrFault = .ok ints)
    (n m : Int) :
    (∃ (τ : Type) (q : Randomness τ) (source after : τ), (mutateInt q table (.int n)).run.run source = (.ok m, after)) ↔
      ∃ c : IntChange, c.Open ints ∧ c.apply n = m := by
  constructor
  · rintro ⟨τ, q, source, after, drawn⟩
    have changed := mutateInt_changes n source m after drawn
    rwa [LiteralTable.ints_of_intsOrFault known] at changed
  · rintro ⟨c, drawn, rfl⟩
    obtain ⟨script, gives⟩ := (Scripts.change known drawn).map (·.apply n)
    rw [← mutateInt_eq] at gives
    exact ⟨_, scripted, _, _, gives []⟩

end Fuzz
end BytecodeBench
