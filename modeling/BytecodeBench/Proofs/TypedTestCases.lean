import BytecodeBench.Fuzz.Session
import BytecodeBench.Proofs.Draws
import Mathlib.Data.List.Forall2

/-! Types of test cases. A test case is generated with one value of the right type for each parameter, and its mutants
are alike, whatever is drawn and whatever literals guide the draws. Mutation fails only where there is no value to
mutate. -/

namespace BytecodeBench

/-- A table with literals of any type has integers. -/
def LiteralTable.Complete (table : LiteralTable) : Prop := table.isEmpty = true ∨ table.ints.isSome = true

theorem LiteralTable.Complete.intsOrFault {table : LiteralTable} (complete : table.Complete) :
    ∃ ints, table.intsOrFault = .ok ints := by
  unfold LiteralTable.intsOrFault
  rcases complete with empty | present
  · rw [if_pos empty]
    split <;> exact ⟨_, rfl⟩
  · obtain ⟨ints, found⟩ := Option.isSome_iff_exists.mp present
    rw [found]
    exact ⟨ints, rfl⟩

theorem LiteralTable.complete_ofSource (file : SourceFile) (method : AbsMethodId) : (ofSource file method).Complete :=
  Or.inr rfl

namespace Fuzz

variable {σ : Type} {r : Randomness σ} {type : JvmType} {d : Datum}

/-! Draws. -/

theorem yes_succeeds (probability : Float) : Succeeds (fun _ => True) (r.yes probability) := by
  intro source
  exact ⟨_, _, rfl, trivial⟩

theorem number_succeeds {bound : Nat} (positive : 0 < bound) : Succeeds (· < bound) (r.number bound) := by
  intro source
  exact ⟨_, _, rfl, r.below_lt bound source positive⟩

theorem between_succeeds {first last : Int} (le : first ≤ last) :
    Succeeds (fun n => first ≤ n ∧ n ≤ last) (r.between first last) := by
  refine (number_succeeds (by omega)).bind ?_
  intro n inside
  apply Succeeds.pure
  omega

theorem choose_succeeds {α : Type} (first : α) (rest : List α) : Succeeds (· ∈ first :: rest) (r.choose first rest) := by
  apply Succeeds.of_draws (choose_member first rest)
  exact (number_succeeds (Nat.succ_pos _)).bind fun _ _ => .pure trivial

/-! Types. -/

def fuzzable : List JvmType := [.int, .char, .stringObject, .array .int, .array .char]

inductive IsItem : JvmType → Datum → Prop
  | int (n : Int) : IsItem .int (.int n)
  | char {s : String} (single : s.length = 1) : IsItem .char (.text s)

inductive Fits : JvmType → Datum → Prop
  | item {type : JvmType} {d : Datum} (item : IsItem type d) : Fits type d
  | string (s : String) : Fits .stringObject (.text s)
  | array {type : JvmType} {items : List Datum} (flat : type = .int ∨ type = .char) (each : ∀ d ∈ items, IsItem type d) :
    Fits (.array type) (.list items)

/-! Generation. -/

private theorem generateInt_succeeds : Succeeds (fun _ => True) (generateInt r) :=
  (between_succeeds (by decide)).weaken fun _ _ => trivial

theorem generateChar_succeeds : Succeeds (fun _ => True) (generateChar r) :=
  (between_succeeds (by decide)).bind fun _ _ => .pure trivial

theorem IsItem.ofChar (c : Char) : IsItem .char (.text c.toString) := .char (by simp)

private theorem generateItem_succeeds (refuse : String → Fault) (flat : type = .int ∨ type = .char) :
    Succeeds (IsItem type) (generateItem r refuse type) := by
  rcases flat with rfl | rfl
  · exact generateInt_succeeds.after fun n => .pure (.int n)
  · exact generateChar_succeeds.after fun c => .pure (.ofChar c)

private theorem generateItems_succeeds (flat : type = .int ∨ type = .char) (count : Nat) :
    Succeeds (fun items => ∀ d ∈ items, IsItem type d) (generateItems r type count) := by
  induction count with
  | zero => exact .pure (List.forall_mem_nil _)
  | succ count ih =>
    refine (generateItem_succeeds _ flat).bind fun item own => ih.bind fun items others => .pure ?_
    exact List.forall_mem_cons.mpr ⟨own, others⟩

private theorem generateString_succeeds (length : Nat) :
    Succeeds (fun v => v.type = .stringObject ∧ Fits .stringObject v.content) (generateString r length) := by
  have chars (times : List Unit) : Succeeds (fun _ => True) (times.mapM fun _ => generateChar r) := by
    induction times with
    | nil => exact .pure trivial
    | cons time times ih =>
      rw [List.mapM_cons]
      exact generateChar_succeeds.after fun _ => ih.after fun _ => .pure trivial
  exact (chars _).after fun _ => .pure ⟨rfl, .string _⟩

private theorem generateValue_succeeds (known : type ∈ fuzzable) :
    Succeeds (fun v => v.type = type ∧ Fits type v.content) (generateValue r type) := by
  have array {contains : JvmType} (flat : contains = .int ∨ contains = .char) :
      Succeeds (fun v => v.type = .array contains ∧ Fits (.array contains) v.content)
        (generateValue r (.array contains)) := by
    refine (between_succeeds (by decide)).bind fun length _ => ?_
    exact (generateItems_succeeds flat length.toNat).bind fun items each => .pure ⟨rfl, .array flat each⟩
  simp only [fuzzable, List.mem_cons, List.not_mem_nil, or_false] at known
  rcases known with rfl | rfl | rfl | rfl | rfl
  · exact generateInt_succeeds.after fun n => .pure ⟨rfl, .item (.int n)⟩
  · exact generateChar_succeeds.after fun c => .pure ⟨rfl, .item (.ofChar c)⟩
  · exact (between_succeeds (by decide)).bind fun length _ => generateString_succeeds length.toNat
  · exact array (Or.inl rfl)
  · exact array (Or.inr rfl)

/-! Mutation. -/

theorem integer_succeeds (n : Int) : Succeeds (fun _ => True) (integer (σ := σ) (.int n)) := .pure trivial

private theorem aimInt_succeeds (n first : Int) (rest : List Int) :
    Succeeds (fun _ => True) (aimInt r (.int n) first rest) := by
  refine (choose_succeeds first rest).bind fun target _ => (yes_succeeds _).after fun exactly => ?_
  split
  · exact .pure trivial
  · exact (integer_succeeds n).after fun _ => (between_succeeds (by decide)).bind fun _ _ => .pure trivial

private theorem perturbInt_succeeds (n : Int) : Succeeds (fun _ => True) (perturbInt r (.int n)) := by
  refine (yes_succeeds _).after fun little => ?_
  split
  · exact (choose_succeeds _ _).bind fun _ _ => (integer_succeeds n).after fun _ => .pure trivial
  · refine (yes_succeeds _).after fun byte => ?_
    split
    · refine (between_succeeds (by decide)).bind fun _ _ => (choose_succeeds _ _).bind fun _ _ => ?_
      exact (integer_succeeds n).after fun _ => .pure trivial
    · exact (integer_succeeds n).after fun _ => .pure trivial

private theorem mutateInt_succeeds {table : LiteralTable} (complete : table.Complete) (item : IsItem .int d) :
    Succeeds (fun _ => True) (mutateInt r table d) := by
  cases item with
  | int n =>
    obtain ⟨ints, present⟩ := complete.intsOrFault
    refine (Succeeds.given present trivial).after fun literals => ?_
    split
    · exact perturbInt_succeeds n
    · refine (yes_succeeds _).after fun aims => ?_
      split
      · exact aimInt_succeeds n _ _
      · exact perturbInt_succeeds n

private theorem perturbChar_succeeds (item : IsItem .char d) : Succeeds (IsItem .char) (perturbChar r d) := by
  cases item with
  | @char s single =>
    obtain ⟨c, only⟩ := List.length_eq_one_iff.mp single
    have code : (Datum.text s).charCode = .ok (c.toNat : Int) := by rw [Datum.charCode, only]
    exact (choose_succeeds _ _).bind fun _ _ => (Succeeds.given code trivial).after fun _ => .pure (.ofChar _)

private theorem mutateChar_succeeds (table : LiteralTable) (item : IsItem .char d) :
    Succeeds (IsItem .char) (mutateChar r table d) := by
  unfold mutateChar
  split
  · exact perturbChar_succeeds item
  · refine (yes_succeeds _).after fun literally => ?_
    split
    · refine (choose_succeeds _ _).bind fun literal _ => ?_
      split
      · exact .pure (.ofChar _)
      · exact .pure item
    · exact perturbChar_succeeds item

/-- Where one thing can always be done and another only under a condition, the condition is asked for first. -/
theorem unless_succeeds {β : Type} {post : β → Prop} {condition : Prop} [Decidable condition] {chosen : Bool → Drawing σ β}
    (probability : Float) (always : Succeeds post (chosen true)) (otherwise : ¬ condition → Succeeds post (chosen false)) :
    Succeeds post (if condition then pure true >>= chosen else r.yes probability >>= chosen) := by
  split
  · exact always
  next possible =>
    refine (yes_succeeds probability).after fun answer => ?_
    cases answer with
    | true => exact always
    | false => exact otherwise possible

private theorem size?_text (s : String) : (Datum.text s).size? = some s.length := by
  simp [Datum.size?, Datum.items?, String.length_toList]

theorem text_succeeds (s : String) : Succeeds (fun _ => True) (text (σ := σ) (.text s)) := .pure trivial

private theorem perturbString_succeeds (s : String) : Succeeds (fun _ => True) (perturbString r (.text s)) := by
  unfold perturbString
  rw [size?_text]
  extract_lets rest
  have goesOn : Succeeds (fun _ => True) (rest s.length) := by
    apply unless_succeeds
    · refine (between_succeeds (by omega)).bind fun _ _ => generateChar_succeeds.after fun _ => ?_
      exact (text_succeeds s).after fun _ => .pure trivial
    · intro filled
      have place : (0 : Int) ≤ s.length - 1 := by omega
      refine (yes_succeeds _).after fun replaces => ?_
      split
      · refine (between_succeeds place).bind fun _ _ => generateChar_succeeds.after fun _ => ?_
        exact (text_succeeds s).after fun _ => .pure trivial
      · exact (between_succeeds place).bind fun _ _ => (text_succeeds s).after fun _ => .pure trivial
  exact goesOn

private theorem mutateString_succeeds (table : LiteralTable) (s : String) :
    Succeeds (fun _ => True) (mutateString r table (.text s)) := by
  unfold mutateString
  split
  · exact perturbString_succeeds s
  · refine (yes_succeeds _).after fun literally => ?_
    split
    · refine (choose_succeeds _ _).bind fun literal _ => (yes_succeeds _).after fun whole => ?_
      split
      · exact .pure trivial
      · rw [size?_text]
        refine Succeeds.after (.pure trivial) fun size => ?_
        exact (between_succeeds (by omega)).bind fun _ _ => (text_succeeds s).after fun _ => .pure trivial
    · exact perturbString_succeeds s

private theorem mutateArray_succeeds {table : LiteralTable} (complete : table.Complete) {items : List Datum}
    (flat : type = .int ∨ type = .char) (each : ∀ d ∈ items, IsItem type d) :
    Succeeds (fun items => ∀ d ∈ items, IsItem type d) (mutateArray r table type (.list items)) := by
  unfold mutateArray
  extract_lets writable rest
  have permitted : Succeeds (fun _ => True) writable := .pure trivial
  have goesOn : Succeeds (fun items => ∀ d ∈ items, IsItem type d) (rest items) := by
    -- An item can always be put in; only an array with items has a place to change.
    apply unless_succeeds
    · refine (between_succeeds (by omega)).bind fun position _ => (generateItem_succeeds _ flat).bind fun item fresh => ?_
      refine permitted.after fun _ => .pure ?_
      refine List.forall_mem_append.mpr ⟨fun d member => each d (List.mem_of_mem_take member), ?_⟩
      exact List.forall_mem_cons.mpr ⟨fresh, fun d member => each d (List.mem_of_mem_drop member)⟩
    · intro filled
      have some : items ≠ [] := fun empty => filled (List.isEmpty_iff.mpr empty)
      have place : (0 : Int) ≤ items.length - 1 := by
        have := List.length_pos_iff.mpr some
        omega
      refine (between_succeeds place).bind fun position inside => ?_
      extract_lets old placed
      have before : IsItem type old := by
        have found := List.getElem?_eq_getElem (l := items) (i := position.toNat) (by omega)
        dsimp only [old]
        rw [found]
        exact each _ (List.getElem_mem _)
      have kept (item : Datum) (fresh : IsItem type item) :
          Succeeds (fun items => ∀ d ∈ items, IsItem type d) (placed item) := by
        refine permitted.after fun _ => .pure ?_
        intro d member
        rcases List.mem_or_eq_of_mem_set member with earlier | rfl
        · exact each d earlier
        · exact fresh
      rcases flat with rfl | rfl
      · exact ((mutateInt_succeeds complete before).map fun n _ => .int n).bind kept
      · exact (mutateChar_succeeds table before).bind kept
  exact goesOn

private theorem mutateValue_succeeds {table : LiteralTable} (complete : table.Complete) {v : Value} (same : v.type = type)
    (fits : Fits type v.content) : Succeeds (fun w => w.type = type ∧ Fits type w.content) (mutateValue r table v) := by
  obtain ⟨own, content⟩ := v
  cases same
  cases fits with
  | item item =>
    cases item with
    | int n => exact (mutateInt_succeeds complete (.int n)).after fun m => .pure ⟨rfl, .item (.int m)⟩
    | char single =>
      exact (mutateChar_succeeds table (.char single)).bind fun d mutant => .pure ⟨rfl, .item mutant⟩
  | string s => exact (mutateString_succeeds table s).after fun t => .pure ⟨rfl, .string t⟩
  | array flat each =>
    exact (mutateArray_succeeds complete flat each).bind fun items mutants => .pure ⟨rfl, .array flat mutants⟩

/-! Values in a store. -/

/-- A content that fits a type, or the handle of an array with such items. -/
inductive Held (store : ArrayStore) (type : JvmType) : Datum → Prop
  | plain {d : Datum} (fits : Fits type d) : Held store type d
  | stored {handle : Nat} {items : List Datum} (found : store.items? handle = some items)
      (fits : Fits type (.list items)) : Held store type (.array handle)

/-- A value of a type, with its array in a store or still by itself. -/
structure HasType (store : ArrayStore) (type : JvmType) (v : Value) : Prop where
  same : v.type = type
  held : Held store type v.content

variable {store after : ArrayStore} {v : Value}

theorem IsItem.atom (item : IsItem type d) : d.IsAtom := by cases item <;> trivial

/-- A content without arrays in it, except that it may be one. -/
inductive Flat : Datum → Prop
  | atom {d : Datum} (atom : d.IsAtom) : Flat d
  | list {items : List Datum} (atoms : ∀ d ∈ items, d.IsAtom) : Flat (.list items)

theorem Fits.flat (fits : Fits type d) : Flat d := by
  cases fits with
  | item item => exact .atom item.atom
  | string s => exact .atom trivial
  | array flat each => exact .list fun d member => (each d member).atom

theorem Flat.atoms {items : List Datum} (flat : Flat (.list items)) : ∀ d ∈ items, d.IsAtom := by
  cases flat with
  | atom atom => exact atom.elim
  | list atoms => exact atoms

private theorem map_atoms {items : List Datum} (atoms : ∀ d ∈ items, d.IsAtom) {change : Datum → Datum}
    (keeps : ∀ d : Datum, d.IsAtom → change d = d) : items.map change = items := by
  calc items.map change = items.map id := List.map_congr_left fun d member => keeps d (atoms d member)
    _ = items := List.map_id items

private theorem atom_resolveTo (store : ArrayStore) (depth : Nat) (enclosing : List Nat) (d : Datum) (atom : d.IsAtom) :
    store.resolveTo depth enclosing d = d := by
  cases depth <;> exact atom.mapArrays _

theorem Flat.resolve (flat : Flat d) (store : ArrayStore) : store.resolve d = d := by
  rw [ArrayStore.resolve_eq]
  cases flat with
  | atom atom => exact atom_resolveTo store _ _ d atom
  | list atoms =>
    unfold ArrayStore.resolveTo
    rw [Datum.mapArrays_list, map_atoms atoms fun d atom => atom.mapArrays _]

theorem Flat.resolve_stored {handle : Nat} {items : List Datum} (flat : Flat (.list items))
    (found : store.items? handle = some items) : store.resolve (.array handle) = .list items := by
  rw [ArrayStore.resolve_eq, ArrayStore.resolveTo, Datum.mapArrays, if_neg List.not_mem_nil, found]
  exact congrArg Datum.list (map_atoms flat.atoms (atom_resolveTo store _ _))

theorem Flat.readArray (flat : Flat d) (type : JvmType) : Fuzz.readArray store ⟨type, d⟩ = ⟨type, d⟩ := by
  cases flat with
  | list atoms => rfl
  | atom atom =>
    unfold Fuzz.readArray
    split
    next same =>
      cases same
      exact atom.elim
    · rfl

theorem readArray_stored {handle : Nat} {items : List Datum} (found : store.items? handle = some items) (type : JvmType) :
    Fuzz.readArray store ⟨type, .array handle⟩ = ⟨type, .list items⟩ := by
  unfold Fuzz.readArray
  dsimp only
  rw [found]
  rfl

/-- Loading leaves a content as it is, or puts its list into the store. -/
theorem Flat.load (flat : Flat d) (store : ArrayStore) :
    store.load d = (d, store) ∨
      ∃ items, d = .list items ∧ store.load d = (.array store.cells.size, (store.alloc items).2) ∧
        (store.alloc items).2.items? store.cells.size = some items := by
  cases flat with
  | atom atom => exact .inl (ArrayStore.load_atom atom store)
  | @list items atoms =>
    refine .inr ⟨items, rfl, ?_, ?_⟩
    · rw [ArrayStore.load, ArrayStore.loadItems_atoms atoms]
      rfl
    · rw [ArrayStore.items?_alloc, if_pos rfl]

/-- More arrays in the store change nothing about the values that are there. -/
theorem Held.extended (held : Held store type d) (grown : store.Extends after) :
    Held after type d ∧ after.resolve d = store.resolve d := by
  cases held with
  | plain fits => exact ⟨.plain fits, by rw [fits.flat.resolve, fits.flat.resolve]⟩
  | stored found fits =>
    have kept : after.items? _ = some _ := (grown.items _ (ArrayStore.items?_bound found)).trans found
    exact ⟨.stored kept fits, by rw [fits.flat.resolve_stored kept, fits.flat.resolve_stored found]⟩

theorem HasType.readArray (typed : HasType store type v) :
    (readArray store v).type = type ∧ Fits type (readArray store v).content := by
  obtain ⟨own, content⟩ := v
  obtain ⟨rfl, held⟩ := typed
  cases held with
  | plain fits =>
    rw [fits.flat.readArray]
    exact ⟨rfl, fits⟩
  | stored found fits =>
    rw [readArray_stored found]
    exact ⟨rfl, fits⟩

theorem Held.load (held : Held store type d) :
    store.Extends (store.load d).2 ∧ Held (store.load d).2 type (store.load d).1 := by
  cases held with
  | plain fits =>
    rcases fits.flat.load store with same | ⟨items, rfl, loaded, found⟩
    · rw [same]
      exact ⟨.refl store, .plain fits⟩
    · rw [loaded]
      exact ⟨ArrayStore.extends_alloc store items, .stored found fits⟩
  | stored found fits => exact ⟨.refl store, .stored found fits⟩

end Fuzz

def TestCase.Typed (params : Parameters) (store : ArrayStore) (t : TestCase) : Prop :=
  List.Forall₂ (Fuzz.HasType store) params t.values

namespace Fuzz

variable {σ : Type} {r : Randomness σ} {params : Parameters} {store after : ArrayStore} {values : List Value}

theorem HasType.extended {type : JvmType} {v : Value} (typed : HasType store type v) (grown : store.Extends after) :
    HasType after type v := ⟨typed.same, (typed.held.extended grown).1⟩

/-- Any place of related lists can be changed to something that is related again. -/
theorem forall₂_set {α β : Type} {related : α → β → Prop} {as : List α} {bs : List β} (all : List.Forall₂ related as bs)
    {i : Nat} {b : β} (found : bs[i]? = some b) :
    ∃ a, related a b ∧ ∀ c, related a c → List.Forall₂ related as (bs.set i c) := by
  induction all generalizing i with
  | nil => cases found
  | @cons a first as bs own others ih =>
    cases i with
    | zero =>
      cases found
      exact ⟨a, own, fun c new => .cons new others⟩
    | succ i =>
      obtain ⟨other, held, changed⟩ := ih found
      exact ⟨other, held, fun c new => .cons own (changed c new)⟩

private theorem generate_typed (known : ∀ type ∈ params, type ∈ fuzzable) (store : ArrayStore) :
    Succeeds (fun t => t.Typed params store ∧ t.score = 0 ∧ t.depth = 0) (generate r params) := by
  have values : Succeeds (List.Forall₂ (HasType store) params) (generateValues r params) := by
    induction params with
    | nil => exact .pure .nil
    | cons type params ih =>
      obtain ⟨own, others⟩ := List.forall_mem_cons.mp known
      refine (generateValue_succeeds own).bind fun v fits => (ih others).bind fun values rest => .pure ?_
      exact .cons ⟨fits.1, .plain fits.2⟩ rest
  exact values.bind fun _ typed => .pure ⟨typed, rfl, rfl⟩

private theorem mutateValues_typed {table : LiteralTable} (complete : table.Complete) (filled : params ≠ []) (count : Nat)
    (typed : List.Forall₂ (HasType store) params values) :
    Succeeds (List.Forall₂ (HasType store) params) (mutateValues r table store count values) := by
  -- Values that were mutated stay by themselves, so later mutations start from any values of the types.
  induction count generalizing values with
  | zero => exact .pure typed
  | succ count ih =>
    have length := typed.length_eq
    have some := List.length_pos_iff.mpr filled
    unfold mutateValues
    rw [if_neg (by rw [List.isEmpty_iff_length_eq_zero]; omega)]
    refine (number_succeeds (by omega)).bind fun i inside => ?_
    split
    · exact ih typed
    next v found =>
      obtain ⟨type, own, changed⟩ := forall₂_set typed found
      obtain ⟨same, fits⟩ := own.readArray
      exact (mutateValue_succeeds complete same fits).bind fun w mutant => ih (changed w ⟨mutant.1, .plain mutant.2⟩)

theorem mutate_typed {table : LiteralTable} (complete : table.Complete) (filled : params ≠ []) {parent : TestCase}
    (typed : parent.Typed params store) :
    Succeeds (fun t => t.Typed params store ∧ t.score = 0 ∧ t.depth = parent.depth + 1) (mutate r table store parent) := by
  refine (between_succeeds (by decide)).bind fun count _ => ?_
  exact (mutateValues_typed complete filled count.toNat typed).bind fun _ mutants => .pure ⟨mutants, rfl, rfl⟩

/-- Where there is no value to mutate, the first choice of one fails. -/
theorem mutate_nothing (table : LiteralTable) {parent : TestCase} (empty : parent.values = []) (source : σ) :
    ((mutate r table store parent).run.run source).1 = .error .emptyRange := by
  have counted : Succeeds (fun count : Int => 1 ≤ count ∧ count ≤ 8) (r.between 1 8) := between_succeeds (by decide)
  obtain ⟨count, reached, ran, least, -⟩ := counted source
  obtain ⟨fewer, more⟩ : ∃ fewer, count.toNat = fewer + 1 := ⟨count.toNat - 1, by omega⟩
  unfold mutate
  rw [Drawing.run_bind, ran]
  dsimp only
  rw [more, empty]
  rfl

namespace Session

variable {s : Session σ} {table : LiteralTable} {t parent : TestCase}

private theorem loadValues_typed (typed : List.Forall₂ (HasType store) params values) :
    store.Extends (loadValues store values).2 ∧
      List.Forall₂ (HasType (loadValues store values).2) params (loadValues store values).1 := by
  induction values generalizing params store with
  | nil =>
    cases typed
    exact ⟨.refl store, .nil⟩
  | cons v values ih =>
    cases typed with
    | cons own others =>
      obtain ⟨grown, held⟩ := own.held.load
      obtain ⟨further, loaded⟩ := ih (others.imp fun _ _ typed => typed.extended grown)
      exact ⟨grown.trans further, .cons (HasType.extended ⟨own.same, held⟩ further) loaded⟩

/-- A test case keeps its values when the store gets more arrays. -/
theorem valuesOf_extended {next : Session σ} (typed : t.Typed params s.arrays) (grown : s.arrays.Extends next.arrays) :
    next.valuesOf t = s.valuesOf t := by
  obtain ⟨values, score, depth⟩ := t
  unfold Session.valuesOf
  change List.Forall₂ _ params values at typed
  induction typed with
  | nil => rfl
  | cons own others ih => rw [List.map_cons, List.map_cons, ih, (own.held.extended grown).2]

/-- A line of descent: each mutant is kept and is the parent of the next one. -/
def descend (r : Randomness σ) (table : LiteralTable) : Nat → Session σ → TestCase → Except Fault TestCase × Session σ
  | 0, s, parent => (.ok parent, s)
  | generations + 1, s, parent =>
    match s.draw (mutate r table s.arrays parent) with
    | (.error e, s) => (.error e, s)
    | (.ok mutant, s) =>
      let (mutant, s) := s.keep mutant
      descend r table generations s mutant

theorem draw_succeeds {α : Type} {post : α → Prop} {drawing : Drawing σ α} (succeeds : Succeeds post drawing)
    (s : Session σ) : ∃ a source, s.draw drawing = (.ok a, { s with source }) ∧ post a := by
  obtain ⟨a, source, drawn, holds⟩ := succeeds s.source
  refine ⟨a, source, ?_, holds⟩
  unfold Session.draw
  rw [drawn]

private theorem descend_typed (complete : table.Complete) (filled : params ≠ []) (generations : Nat)
    (typed : parent.Typed params s.arrays) :
    ∃ t next, s.descend r table generations parent = (.ok t, next) ∧ t.Typed params next.arrays ∧
      t.depth = parent.depth + generations ∧ s.arrays.Extends next.arrays := by
  induction generations generalizing s parent with
  | zero => exact ⟨parent, s, rfl, typed, by simp, .refl _⟩
  | succ generations ih =>
    obtain ⟨mutant, source, drawn, mutated, -, older⟩ := draw_succeeds (mutate_typed (r := r) complete filled typed) s
    obtain ⟨grown, kept⟩ := loadValues_typed mutated
    have again : (Session.keep { s with source } mutant).1.Typed params (Session.keep { s with source } mutant).2.arrays := kept
    obtain ⟨t, next, descended, final, depth, further⟩ := ih again
    refine ⟨t, next, ?_, final, ?_, grown.trans further⟩
    · rw [descend, drawn]
      exact descended
    · rw [depth]
      change mutant.depth + generations = parent.depth + (generations + 1 : Nat)
      omega

theorem mutants_stay_typed (r : Randomness σ) (complete : table.Complete) (known : ∀ type ∈ params, type ∈ fuzzable)
    (s : Session σ) :
    (∃ t next, s.draw (generate r params) = (.ok t, next) ∧ t.Typed params next.arrays ∧ t.score = 0 ∧ t.depth = 0) ∧
    ∀ parent : TestCase, parent.Typed params s.arrays →
      ((∃ e, e.kind = .malformed ∧ (s.draw (mutate r table s.arrays parent)).1 = .error e) ↔ params = []) ∧
      (params ≠ [] → ∃ t next, s.draw (mutate r table s.arrays parent) = (.ok t, next) ∧ t.Typed params next.arrays ∧
        t.score = 0 ∧ t.depth = parent.depth + 1 ∧ next.valuesOf parent = s.valuesOf parent) ∧
      (params ≠ [] → ∀ generations, ∃ t next, s.descend r table generations parent = (.ok t, next) ∧
        t.Typed params next.arrays ∧ t.depth = parent.depth + generations ∧
        next.valuesOf parent = s.valuesOf parent) := by
  refine ⟨?_, ?_⟩
  · obtain ⟨t, source, drawn, typed⟩ := draw_succeeds (generate_typed (r := r) known s.arrays) s
    exact ⟨t, _, drawn, typed⟩
  · intro parent typed
    refine ⟨⟨?_, ?_⟩, ?_, ?_⟩
    · rintro ⟨e, -, failed⟩
      by_contra filled
      obtain ⟨t, source, drawn, -⟩ := draw_succeeds (mutate_typed (r := r) complete filled typed) s
      rw [drawn] at failed
      cases failed
    · rintro rfl
      exact ⟨.emptyRange, rfl, mutate_nothing table (List.forall₂_nil_left_iff.mp typed) s.source⟩
    · intro filled
      obtain ⟨t, source, drawn, mutated, fresh, older⟩ := draw_succeeds (mutate_typed (r := r) complete filled typed) s
      exact ⟨t, _, drawn, mutated, fresh, older, rfl⟩
    · intro filled generations
      obtain ⟨t, next, descended, final, depth, grown⟩ := descend_typed (r := r) complete filled generations typed
      exact ⟨t, next, descended, final, depth, valuesOf_extended typed grown⟩

def sampleLiterals : LiteralTable := { ints := some [7, -40000], chars := some ["", "xy"], strings := some ["", "key"] }

def sampleSession : Session Congruential := { source := .ofSeed 4, arrays := ⟨#[[.int 1, .int (-2)]]⟩ }

/-- A value of each type, with one array in the store and one that is empty and still by itself. -/
def sampleCase : TestCase where
  values := [.int 3, .char 'a', .string "", ⟨.array .int, .array 0⟩, ⟨.array .char, .list []⟩]
  score := 5
  depth := 2

theorem sampleMutants_stay_typed :
    sampleLiterals.Complete ∧ sampleCase.Typed fuzzable sampleSession.arrays ∧
      ∃ t next, sampleSession.descend Congruential.randomness sampleLiterals 12 sampleCase = (.ok t, next) ∧
        t.Typed fuzzable next.arrays ∧ t.depth = 14 ∧ next.valuesOf sampleCase = sampleSession.valuesOf sampleCase := by
  have complete : sampleLiterals.Complete := Or.inr rfl
  have stored : Fits (.array .int) (.list [.int 1, .int (-2)]) := by
    exact .array (Or.inl rfl) (List.forall_mem_cons.mpr ⟨.int 1, List.forall_mem_singleton.mpr (.int (-2))⟩)
  have typed : sampleCase.Typed fuzzable sampleSession.arrays :=
    .cons ⟨rfl, .plain (.item (.int 3))⟩ <| .cons ⟨rfl, .plain (.item (.ofChar 'a'))⟩ <|
      .cons ⟨rfl, .plain (.string "")⟩ <| .cons ⟨rfl, .stored rfl stored⟩ <|
      .cons ⟨rfl, .plain (.array (Or.inr rfl) (List.forall_mem_nil _))⟩ .nil
  obtain ⟨-, mutants⟩ := mutants_stay_typed Congruential.randomness complete (fun _ known => known) sampleSession
  obtain ⟨-, -, descended⟩ := mutants sampleCase typed
  exact ⟨complete, typed, descended (List.cons_ne_nil _ _) 12⟩

end Session
end Fuzz
end BytecodeBench
