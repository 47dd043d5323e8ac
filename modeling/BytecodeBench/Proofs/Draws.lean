import BytecodeBench.Fuzz.TestCase
import BytecodeBench.Proofs.Handles

/-! What can be drawn, whatever the source of randomness. Test cases that are generated or mutated mention no
arrays but those that were there before. -/

namespace BytecodeBench

theorem Drawing.run_bind {σ α β : Type} (drawing : Drawing σ α) (next : α → Drawing σ β) (source : σ) :
    (drawing >>= next).run.run source = match drawing.run.run source with
      | (.ok a, reached) => (next a).run.run reached
      | (.error e, reached) => (.error e, reached) := by
  rw [ExceptT.run_bind, StateT.run_bind]
  rcases drawing.run.run source with ⟨_ | a, reached⟩ <;> rfl

/-- Every result of a drawing is as described; it may also fail. -/
def Draws {σ α : Type} (post : α → Prop) (drawing : Drawing σ α) : Prop :=
  ∀ source result after, drawing.run.run source = (.ok result, after) → post result

namespace Draws

variable {σ α β : Type} {post : β → Prop}

theorem pure {b : β} (holds : post b) : Draws post (Pure.pure b : Drawing σ β) := by
  intro source result after drawn
  cases drawn
  exact holds

theorem throw {e : Fault} : Draws post (throw e : Drawing σ β) := by
  intro source result after drawn
  cases drawn

theorem any (drawing : Drawing σ β) : Draws (fun _ => True) drawing := fun _ _ _ _ => trivial

theorem bind {middle : α → Prop} {drawing : Drawing σ α} {next : α → Drawing σ β} (first : Draws middle drawing)
    (rest : ∀ a, middle a → Draws post (next a)) : Draws post (drawing >>= next) := by
  intro source result after drawn
  rw [Drawing.run_bind] at drawn
  rcases ran : drawing.run.run source with ⟨_ | a, reached⟩
  · rw [ran] at drawn
    cases drawn
  · rw [ran] at drawn
    exact rest a (first source a reached ran) reached result after drawn

theorem weaken {stronger : β → Prop} {drawing : Drawing σ β} (draws : Draws stronger drawing)
    (implies : ∀ b, stronger b → post b) : Draws post drawing :=
  fun source result after drawn => implies result (draws source result after drawn)

theorem given (x : Except Fault β) : Draws (fun b => x = .ok b) (ExceptT.mk (Pure.pure x) : Drawing σ β) := by
  intro source result after drawn
  exact congrArg Prod.fst drawn

/-- What comes after a draw that may give anything. -/
theorem after {drawing : Drawing σ α} {next : α → Drawing σ β} (rest : ∀ a, Draws post (next a)) :
    Draws post (drawing >>= next) :=
  (any drawing).bind fun a _ => rest a

theorem map {change : α → β} {drawing : Drawing σ α} (holds : ∀ a, post (change a)) : Draws post (change <$> drawing) := by
  rw [← bind_pure_comp]
  exact after fun a => pure (holds a)

theorem guard {condition : Prop} [Decidable condition] {stop : Drawing σ Unit} {next : Unit → Drawing σ β}
    (rest : Draws post (next ())) : Draws post (if condition then stop >>= next else next ()) := by
  split
  · exact after fun _ => rest
  · exact rest

end Draws

/-- A drawing never fails, and every result of it is as described. -/
def Succeeds {σ α : Type} (post : α → Prop) (drawing : Drawing σ α) : Prop :=
  ∀ source, ∃ result after, drawing.run.run source = (.ok result, after) ∧ post result

namespace Succeeds

variable {σ α β : Type} {post : β → Prop}

theorem pure {b : β} (holds : post b) : Succeeds post (Pure.pure b : Drawing σ β) := by
  intro source
  exact ⟨b, source, rfl, holds⟩

theorem bind {middle : α → Prop} {drawing : Drawing σ α} {next : α → Drawing σ β} (first : Succeeds middle drawing)
    (rest : ∀ a, middle a → Succeeds post (next a)) : Succeeds post (drawing >>= next) := by
  intro source
  obtain ⟨a, reached, ran, holds⟩ := first source
  obtain ⟨b, after, drawn, last⟩ := rest a holds reached
  refine ⟨b, after, ?_, last⟩
  rw [Drawing.run_bind, ran]
  exact drawn

theorem weaken {stronger : β → Prop} {drawing : Drawing σ β} (succeeds : Succeeds stronger drawing)
    (implies : ∀ b, stronger b → post b) : Succeeds post drawing := by
  intro source
  obtain ⟨b, after, drawn, holds⟩ := succeeds source
  exact ⟨b, after, drawn, implies b holds⟩

theorem draws {drawing : Drawing σ β} (succeeds : Succeeds post drawing) : Draws post drawing := by
  intro source result after drawn
  obtain ⟨b, last, ran, holds⟩ := succeeds source
  rw [ran] at drawn
  cases drawn
  exact holds

theorem of_draws {drawing : Drawing σ β} (draws : Draws post drawing) (succeeds : Succeeds (fun _ => True) drawing) :
    Succeeds post drawing := by
  intro source
  obtain ⟨b, after, drawn, -⟩ := succeeds source
  exact ⟨b, after, drawn, draws source b after drawn⟩

/-- What comes after a draw that may give anything. -/
theorem after {drawing : Drawing σ α} {next : α → Drawing σ β} (first : Succeeds (fun _ => True) drawing)
    (rest : ∀ a, Succeeds post (next a)) : Succeeds post (drawing >>= next) :=
  first.bind fun a _ => rest a

theorem map {middle : α → Prop} {change : α → β} {drawing : Drawing σ α} (first : Succeeds middle drawing)
    (holds : ∀ a, middle a → post (change a)) : Succeeds post (change <$> drawing) := by
  rw [← bind_pure_comp]
  exact first.bind fun a known => pure (holds a known)

theorem given {x : Except Fault β} {b : β} (known : x = .ok b) (holds : post b) :
    Succeeds post (ExceptT.mk (Pure.pure x) : Drawing σ β) := by
  subst known
  exact pure holds

end Succeeds

namespace Fuzz

variable {σ : Type} {r : Randomness σ} (bound : Nat)

theorem choose_member {α : Type} (first : α) (rest : List α) : Draws (· ∈ first :: rest) (r.choose first rest) := by
  refine .after fun i => .pure ?_
  cases found : (first :: rest)[i]? with
  | none => exact List.mem_cons_self
  | some a => exact List.mem_of_getElem? found

/-! Generation. -/

private theorem generateItem_below (refuse : String → Fault) (type : JvmType) :
    Draws (Datum.Below bound) (generateItem r refuse type) := by
  unfold generateItem
  split
  · exact .after fun _ => .pure trivial
  · exact .after fun _ => .pure trivial
  · exact .throw

private theorem generateItems_below (type : JvmType) (count : Nat) :
    Draws (fun items => ∀ d ∈ items, d.Below bound) (generateItems r type count) := by
  induction count with
  | zero => exact .pure (List.forall_mem_nil _)
  | succ count ih =>
    refine (generateItem_below bound _ type).bind fun item below => ih.bind fun items all => .pure ?_
    exact List.forall_mem_cons.mpr ⟨below, all⟩

private theorem generateValue_below (type : JvmType) : Draws (fun v => v.content.Below bound) (generateValue r type) := by
  unfold generateValue
  split
  · exact .after fun _ => .pure trivial
  · exact .after fun _ => .pure trivial
  next contains =>
    refine .after fun length => (generateItems_below bound contains length.toNat).bind fun items all => .pure ?_
    exact Datum.below_list.mpr all
  · split
    · exact .after fun _ => .after fun _ => .pure trivial
    · exact .throw

end Fuzz

def TestCase.Below (bound : Nat) (t : TestCase) : Prop := ∀ v ∈ t.values, v.content.Below bound

theorem TestCase.Below.mono {bound larger : Nat} {t : TestCase} (below : t.Below bound) (le : bound ≤ larger) :
    t.Below larger :=
  fun v member => (below v member).mono le

namespace Fuzz

variable {σ : Type} {r : Randomness σ} (bound : Nat)

theorem generate_below (params : Parameters) : Draws (TestCase.Below bound) (generate r params) := by
  have values (types : List JvmType) :
      Draws (fun values => ∀ v ∈ values, v.content.Below bound) (generateValues r types) := by
    induction types with
    | nil => exact .pure (List.forall_mem_nil _)
    | cons type rest ih =>
      refine (generateValue_below bound type).bind fun v below => ih.bind fun values all => .pure ?_
      exact List.forall_mem_cons.mpr ⟨below, all⟩
  exact (values params).bind fun _ all => .pure all

/-! Mutation. -/

private theorem perturbChar_below (d : Datum) : Draws (Datum.Below bound) (perturbChar r d) :=
  .after fun _ => .after fun _ => .pure trivial

variable {bound}

private theorem mutateChar_below (table : LiteralTable) {d : Datum} (below : d.Below bound) :
    Draws (Datum.Below bound) (mutateChar r table d) := by
  unfold mutateChar
  split
  · exact perturbChar_below _ d
  · refine .after fun literally => ?_
    split
    · refine .after fun literal => ?_
      split
      · exact .pure trivial
      · exact .pure below
    · exact perturbChar_below _ d

private theorem mutateArray_below (table : LiteralTable) (type : JvmType) {d : Datum} (below : d.Below bound) :
    Draws (fun items => ∀ item ∈ items, item.Below bound) (mutateArray r table type d) := by
  unfold mutateArray
  extract_lets writable rest
  have goesOn (items : List Datum) (held : ∀ item ∈ items, item.Below bound) :
      Draws (fun items => ∀ item ∈ items, item.Below bound) (rest items) := by
    dsimp -zeta only [rest]
    extract_lets chosen
    have either (inserts : Bool) : Draws (fun items => ∀ item ∈ items, item.Below bound) (chosen inserts) := by
      dsimp -zeta only [chosen]
      split
      · refine .after fun position => (generateItem_below bound _ type).bind fun item fresh => .after fun _ => .pure ?_
        refine List.forall_mem_append.mpr ⟨fun d member => held d (List.mem_of_mem_take member), ?_⟩
        exact List.forall_mem_cons.mpr ⟨fresh, fun d member => held d (List.mem_of_mem_drop member)⟩
      · refine .after fun position => ?_
        extract_lets old placed
        have kept (item : Datum) (fresh : item.Below bound) :
            Draws (fun items => ∀ item ∈ items, item.Below bound) (placed item) := by
          refine .after fun _ => .pure ?_
          intro d member
          rcases List.mem_or_eq_of_mem_set member with before | rfl
          · exact held d before
          · exact fresh
        have before : old.Below bound := by
          dsimp only [old]
          cases found : items[position.toNat]? with
          | none => trivial
          | some item => exact held item (List.mem_of_getElem? found)
        split
        · exact (Draws.map fun _ => trivial).bind kept
        · exact (mutateChar_below table before).bind kept
        · exact Draws.throw.bind kept
    split
    · exact .after either
    · exact .after either
  split
  next items found => exact (Draws.pure (below.items? found)).bind goesOn
  · exact Draws.throw.bind goesOn

private theorem mutateValue_below (table : LiteralTable) {v : Value} (below : v.content.Below bound) :
    Draws (fun mutant => mutant.content.Below bound) (mutateValue r table v) := by
  unfold mutateValue
  split
  · exact .after fun _ => .pure trivial
  · exact (mutateChar_below table below).bind fun _ kept => .pure kept
  next contains _ =>
    refine (mutateArray_below table contains below).bind fun items all => .pure ?_
    exact Datum.below_list.mpr all
  · split
    · exact .after fun _ => .pure trivial
    · exact .throw

section Parents

variable {store : ArrayStore} (sealed : store.Sealed)
include sealed

private theorem readArray_below {v : Value} (below : v.content.Below store.cells.size) :
    (readArray store v).content.Below store.cells.size := by
  unfold readArray
  split
  next handle _ =>
    apply Datum.below_list.mpr
    cases found : store.items? handle with
    | none => exact List.forall_mem_nil _
    | some items => exact sealed handle items found
  · exact below

private theorem mutateValues_below (table : LiteralTable) (count : Nat) (values : List Value)
    (below : ∀ v ∈ values, v.content.Below store.cells.size) :
    Draws (fun mutants => ∀ v ∈ mutants, v.content.Below store.cells.size) (mutateValues r table store count values) := by
  induction count generalizing values with
  | zero => exact .pure below
  | succ count ih =>
    unfold mutateValues
    refine .guard (.after fun i => ?_)
    split
    · exact ih values below
    next v found =>
      have kept := readArray_below sealed (below v (List.mem_of_getElem? found))
      refine (mutateValue_below table kept).bind fun mutant fresh => ih _ ?_
      intro w member
      rcases List.mem_or_eq_of_mem_set member with before | rfl
      · exact below w before
      · exact fresh

theorem mutate_below (table : LiteralTable) {parent : TestCase} (below : parent.Below store.cells.size) :
    Draws (TestCase.Below store.cells.size) (mutate r table store parent) :=
  .after fun count => (mutateValues_below sealed table count.toNat parent.values below).bind fun _ all => .pure all

end Parents

/-! Parents. -/

private theorem pick_member (tests : List TestCase) (otherwise : TestCase) :
    Draws (fun t => t ∈ tests ∨ t = otherwise) (pick r tests otherwise) := by
  cases tests with
  | nil => exact .pure (Or.inr rfl)
  | cons first rest => exact (choose_member first rest).weaken fun _ member => Or.inl member

/-- A parent is a member of the corpus, or generated if there is none. -/
theorem schedule_member {post : TestCase → Prop} (params : Parameters) {corpus : List TestCase} (stagnant : Int)
    (members : ∀ t ∈ corpus, post t) (generated : Draws post (generate r params)) :
    Draws post (schedule r params corpus stagnant) := by
  unfold schedule
  split
  · unfold pickExploit
    split
    · exact generated
    next first rest =>
      refine (pick_member _ first).bind fun best chosen => ?_
      have fine : post best := by
        rcases chosen with member | rfl
        · exact members best (List.mem_of_mem_filter member)
        · exact members best List.mem_cons_self
      split
      · exact .pure fine
      · refine .after fun exploits => ?_
        split
        · exact .pure fine
        · refine (pick_member _ best).weaken ?_
          rintro t (member | rfl)
          · exact members t (List.mem_of_mem_filter member)
          · exact fine
  · unfold pickUniform
    split
    · exact generated
    next first rest =>
      split
      · exact (choose_member first rest).weaken members
      next firstWeak others found =>
        refine (choose_member firstWeak others).weaken fun t member => members t ?_
        rw [← found] at member
        exact List.mem_of_mem_filter member

end Fuzz
end BytecodeBench
