import BytecodeBench.Proofs.IntegerChanges

/-! The integers of test cases, from the generated one through all of its descendants. They are words as long as no
mutation takes one of them beyond all words. -/

namespace BytecodeBench.Fuzz

/-! Histories of integers. -/

def numbers : Datum → List Int
  | .int n => [n]
  | .list items => items.filterMap fun
    | .int n => some n
    | _ => none
  | _ => []

/-- One mutation, as it shows in the integers of a test case: it leaves them alone, puts a small one among them, or
changes one of them. -/
inductive Alters (ints : List Int) : List Int → Option (Int × IntChange) → List Int → Prop
  | idle (ns : List Int) : Alters ints ns none ns
  | insert (front back : List Int) {n : Int} (small : -100 ≤ n ∧ n ≤ 100) :
    Alters ints (front ++ back) none (front ++ n :: back)
  | change (front back : List Int) (n : Int) {c : IntChange} (drawn : c.Open ints) :
    Alters ints (front ++ n :: back) (some (n, c)) (front ++ c.apply n :: back)

/-- A history: mutations, each with the integers that it leaves. -/
abbrev History := List (Option (Int × IntChange) × List Int)

def Follows (ints : List Int) : List Int → History → Prop
  | _, [] => True
  | ns, (label, next) :: rest => Alters ints ns label next ∧ Follows ints next rest

def ending (ns : List Int) : History → List Int
  | [] => ns
  | (_, next) :: rest => ending next rest

def Oversteps : Option (Int × IntChange) → Prop
  | some (n, c) => c.Overshoots n
  | none => False

def AllFit (ns : List Int) : Prop := ∀ n ∈ ns, FitsWord n

variable {ints ns ms : List Int} {label : Option (Int × IntChange)} {history : History}

theorem Alters.within (altered : Alters ints ns label ms) (front back : List Int) :
    Alters ints (front ++ ns ++ back) label (front ++ ms ++ back) := by
  cases altered with
  | idle => exact .idle _
  | insert left right small => simpa using Alters.insert (front ++ left) (right ++ back) small
  | change left right n drawn => simpa using Alters.change (front ++ left) (right ++ back) n drawn

theorem allFit_insert {front back : List Int} {n : Int} :
    AllFit (front ++ n :: back) ↔ AllFit (front ++ back) ∧ FitsWord n := by
  unfold AllFit
  simp only [List.forall_mem_append, List.forall_mem_cons]
  exact and_left_comm.trans and_comm

theorem fitsWord_small {n : Int} (small : -100 ≤ n ∧ n ≤ 100) : FitsWord n := by
  unfold FitsWord
  omega

/-- One mutation leaves words alone unless it takes one of them too far. -/
theorem Alters.allFit_iff (altered : Alters ints ns label ms) (literals : AllFit ints) (fit : AllFit ns) :
    AllFit ms ↔ ¬Oversteps label := by
  cases altered with
  | idle => exact ⟨fun _ => not_false, fun _ => fit⟩
  | insert front back small =>
    exact ⟨fun _ => not_false, fun _ => allFit_insert.mpr ⟨fit, fitsWord_small small⟩⟩
  | change front back n drawn =>
    obtain ⟨others, word⟩ := allFit_insert.mp fit
    rw [allFit_insert, and_iff_right others]
    exact IntChange.fitsWord_apply_iff drawn literals word

theorem Follows.allFit_iff (follows : Follows ints ns history) (literals : AllFit ints) (fit : AllFit ns) :
    (∀ entry ∈ history, AllFit entry.2) ↔ ∀ entry ∈ history, ¬Oversteps entry.1 := by
  induction history generalizing ns with
  | nil => exact ⟨fun _ => List.forall_mem_nil _, fun _ => List.forall_mem_nil _⟩
  | cons entry history ih =>
    have step := follows.1.allFit_iff literals fit
    rw [List.forall_mem_cons, List.forall_mem_cons]
    constructor
    · rintro ⟨own, others⟩
      exact ⟨step.mp own, (ih follows.2 own).mp others⟩
    · rintro ⟨own, others⟩
      have next := step.mpr own
      exact ⟨next, (ih follows.2 next).mpr others⟩

private theorem ending_allFit (fit : AllFit ns) (all : ∀ entry ∈ history, AllFit entry.2) :
    AllFit (ending ns history) := by
  induction history generalizing ns with
  | nil => exact fit
  | cons entry history ih =>
    obtain ⟨own, others⟩ := List.forall_mem_cons.mp all
    exact ih own others

theorem Follows.trans {later : History} (first : Follows ints ns history)
    (second : Follows ints (ending ns history) later) :
    Follows ints ns (history ++ later) ∧ ending ns (history ++ later) = ending (ending ns history) later := by
  induction history generalizing ns with
  | nil => exact ⟨second, rfl⟩
  | cons entry history ih =>
    obtain ⟨whole, last⟩ := ih first.2 second
    exact ⟨⟨first.1, whole⟩, last⟩

/-! Contents and their integers. -/

/-- A content with its integers, which are where the type has them. -/
inductive Holds : JvmType → Datum → List Int → Prop
  | int (n : Int) : Holds .int (.int n) [n]
  | ints (ns : List Int) : Holds (.array .int) (.list (ns.map .int)) ns
  | text {type : JvmType} (s : String) (other : type ≠ .int) (single : ∀ contains, type ≠ .array contains) :
    Holds type (.text s) []
  | texts {type : JvmType} (ss : List String) (other : type ≠ .int) : Holds (.array type) (.list (ss.map .text)) []

theorem Holds.char (s : String) : Holds .char (.text s) [] := .text s nofun nofun

theorem Holds.string (s : String) : Holds .stringObject (.text s) [] := .text s nofun nofun

variable {σ : Type} {r : Randomness σ} {type : JvmType} {d : Datum} {table : LiteralTable}

theorem Holds.numbers_eq (holds : Holds type d ns) : numbers d = ns := by
  cases holds with
  | int n => rfl
  | ints ns =>
    dsimp only [numbers]
    rw [List.filterMap_map]
    exact List.filterMap_some
  | text => rfl
  | texts ss =>
    dsimp only [numbers]
    rw [List.filterMap_map]
    exact List.filterMap_eq_nil_iff.mpr fun _ _ => rfl

theorem Holds.flat (holds : Holds type d ns) : Flat d := by
  cases holds with
  | int n => exact .atom trivial
  | ints ns =>
    apply Flat.list
    intro d member
    obtain ⟨n, -, rfl⟩ := List.mem_map.mp member
    trivial
  | text s => exact .atom trivial
  | texts ss =>
    apply Flat.list
    intro d member
    obtain ⟨s, -, rfl⟩ := List.mem_map.mp member
    trivial

/-! Generation. -/

/-- An item for an array: a small integer where integers are due, else a text. -/
inductive IsFresh : JvmType → Datum → Prop
  | int {n : Int} (small : -100 ≤ n ∧ n ≤ 100) : IsFresh .int (.int n)
  | text {type : JvmType} (s : String) (other : type ≠ .int) : IsFresh type (.text s)

private theorem generateItem_fresh (refuse : String → Fault) (type : JvmType) :
    Draws (IsFresh type) (generateItem r refuse type) := by
  unfold generateItem
  split
  · exact (between_succeeds (by decide)).draws.bind fun n small => .pure (.int small)
  · exact .after fun c => .pure (.text _ (by decide))
  · exact .throw

private theorem generateItems_holds (type : JvmType) (count : Nat) :
    Draws (fun items => ∃ ns, Holds (.array type) (.list items) ns ∧ AllFit ns) (generateItems r type count) := by
  induction count with
  | zero =>
    apply Draws.pure
    by_cases due : type = .int
    · subst due
      exact ⟨[], .ints [], List.forall_mem_nil _⟩
    · exact ⟨[], .texts [] due, List.forall_mem_nil _⟩
  | succ count ih =>
    refine (generateItem_fresh _ type).bind fun item fresh => ih.bind fun items ⟨ns, holds, fit⟩ => .pure ?_
    cases fresh with
    | @int n small =>
      cases holds with
      | ints => exact ⟨n :: ns, .ints (n :: ns), List.forall_mem_cons.mpr ⟨fitsWord_small small, fit⟩⟩
      | texts ss other => exact absurd rfl other
    | text s other =>
      cases holds with
      | ints => exact absurd rfl other
      | texts ss => exact ⟨[], .texts (s :: ss) other, fit⟩

private theorem generateValue_holds (type : JvmType) :
    Draws (fun v => ∃ ns, Holds v.type v.content ns ∧ AllFit ns) (generateValue r type) := by
  unfold generateValue
  split
  · refine (between_succeeds (by decide)).draws.bind fun n small => .pure ?_
    exact ⟨[n], .int n, List.forall_mem_singleton.mpr (fitsWord_small small)⟩
  · exact .after fun c => .pure ⟨[], .char _, List.forall_mem_nil _⟩
  next contains =>
    refine .after fun length => (generateItems_holds contains length.toNat).bind fun items holds => .pure ?_
    exact holds
  · split
    · exact .after fun length => .after fun chars => .pure ⟨[], .string _, List.forall_mem_nil _⟩
    · exact .throw

/-! Mutation. -/

private theorem perturbChar_text (d : Datum) : Draws (fun mutant => ∃ s, mutant = .text s) (perturbChar r d) :=
  .after fun _ => .after fun _ => .pure ⟨_, rfl⟩

private theorem mutateChar_text (s : String) :
    Draws (fun mutant => ∃ s, mutant = .text s) (mutateChar r table (.text s)) := by
  unfold mutateChar
  split
  · exact perturbChar_text _
  · refine .after fun literally => ?_
    split
    · refine .after fun literal => ?_
      split
      · exact .pure ⟨_, rfl⟩
      · exact .pure ⟨s, rfl⟩
    · exact perturbChar_text _

/-- What can become of the items of an array: a new one is among them, or one of them is another. -/
inductive Remade (type : JvmType) (becomes : Datum → Datum → Prop) (items : List Datum) : List Datum → Prop
  | insert (k : Nat) {item : Datum} (fresh : IsFresh type item) :
    Remade type becomes items (items.take k ++ item :: items.drop k)
  | change (k : Nat) {item : Datum} (mutated : becomes (items[k]?.getD .null) item) :
    Remade type becomes items (items.set k item)

private theorem mutateArray_remade {items : List Datum} {becomes : Datum → Datum → Prop}
    (ints : type = .int → ∀ old, Draws (becomes old) (Datum.int <$> mutateInt r table old))
    (chars : type = .char → ∀ old, Draws (becomes old) (mutateChar r table old)) :
    Draws (Remade type becomes items) (mutateArray r table type (.list items)) := by
  unfold mutateArray
  -- both branches end with the same draws, so these are treated once for either way to get there
  extract_lets writable rest
  change Draws _ (rest items)
  dsimp -zeta only [rest]
  extract_lets chosen
  have either (inserts : Bool) : Draws (Remade type becomes items) (chosen inserts) := by
    dsimp -zeta only [chosen]
    split
    · refine .after fun position => (generateItem_fresh _ type).bind fun item fresh => .after fun _ => .pure ?_
      exact .insert _ fresh
    · refine .after fun position => ?_
      extract_lets old placed
      have kept (item : Datum) (mutated : becomes old item) : Draws (Remade type becomes items) (placed item) :=
        .after fun _ => .pure (.change _ mutated)
      split
      · exact (ints rfl old).bind kept
      · exact (chars rfl old).bind kept
      · exact Draws.throw.bind kept
  split
  · exact .after either
  · exact .after either

private theorem split_set {α : Type} {items : List α} {k : Nat} {old : α} (found : items[k]? = some old) (item : α) :
    items = items.take k ++ old :: items.drop (k + 1) ∧ items.set k item = items.take k ++ item :: items.drop (k + 1) := by
  obtain ⟨inside, rfl⟩ := List.getElem?_eq_some_iff.mp found
  constructor
  · simp
  · rw [List.set_eq_take_append_cons_drop, if_pos inside]

private theorem mutateInts_alter (ns : List Int) :
    Draws (fun items => ∃ label ms, Alters (table.ints.getD []) ns label ms ∧ items = ms.map Datum.int)
      (mutateArray r table .int (.list (ns.map .int))) := by
  have mutates (old : Datum) : Draws (fun item => ∃ m, item = .int m ∧
      ∀ n, old = .int n → ∃ c : IntChange, c.Open (table.ints.getD []) ∧ c.apply n = m)
      (Datum.int <$> mutateInt r table old) := by
    rw [← bind_pure_comp]
    by_cases number : ∃ n, old = .int n
    · obtain ⟨n, rfl⟩ := number
      refine (mutateInt_changes n).bind fun m changed => .pure ⟨m, rfl, ?_⟩
      intro other same
      cases same
      exact changed
    · exact .after fun m => .pure ⟨m, rfl, fun n same => absurd ⟨n, same⟩ number⟩
  refine (@mutateArray_remade σ r .int table (ns.map .int) _ (fun _ => mutates) nofun).weaken ?_
  rintro items (⟨k, fresh⟩ | ⟨k, m, rfl, changed⟩)
  · cases fresh with
    | @int n small =>
      have inserted := @Alters.insert (table.ints.getD []) (ns.take k) (ns.drop k) n small
      rw [List.take_append_drop] at inserted
      exact ⟨none, _, inserted, by simp⟩
    | text s other => exact absurd rfl other
  · rw [List.getElem?_map] at changed
    cases found : ns[k]? with
    | none =>
      refine ⟨none, ns, .idle ns, ?_⟩
      rw [← List.map_set, List.set_eq_of_length_le (List.getElem?_eq_none_iff.mp found)]
    | some n =>
      obtain ⟨c, drawn, rfl⟩ := changed n (by rw [found]; rfl)
      obtain ⟨whole, set⟩ := split_set found (c.apply n)
      have altered := Alters.change (ns.take k) (ns.drop (k + 1)) n drawn
      rw [← whole, ← set] at altered
      exact ⟨_, _, altered, List.map_set.symm⟩

private theorem mutateTexts_texts (ss : List String) (other : type ≠ .int) :
    Draws (fun items => ∃ ts : List String, items = ts.map Datum.text)
      (mutateArray r table type (.list (ss.map .text))) := by
  have mutates (old : Datum) :
      Draws (fun item => ∀ s, old = .text s → ∃ t, item = .text t) (mutateChar r table old) := by
    by_cases text : ∃ s, old = .text s
    · obtain ⟨s, rfl⟩ := text
      exact (mutateChar_text s).weaken fun item changed _ _ => changed
    · exact (Draws.any _).weaken fun item _ s same => absurd ⟨s, same⟩ text
  refine (mutateArray_remade (fun due => absurd due other) fun _ => mutates).weaken ?_
  rintro items (⟨k, fresh⟩ | ⟨k, changed⟩)
  · cases fresh with
    | int small => exact absurd rfl other
    | text s => exact ⟨ss.take k ++ s :: ss.drop k, by simp⟩
  · rw [List.getElem?_map] at changed
    cases found : ss[k]? with
    | none =>
      refine ⟨ss, ?_⟩
      rw [List.set_eq_of_length_le]
      simpa using List.getElem?_eq_none_iff.mp found
    | some s =>
      obtain ⟨t, rfl⟩ := changed s (by rw [found]; rfl)
      exact ⟨ss.set k t, List.map_set.symm⟩

/-- Mutating a value is one mutation of its integers. -/
theorem mutateValue_alters {v : Value} (holds : Holds v.type v.content ns) :
    Draws (fun w => w.type = v.type ∧
      ∃ label ms, Alters (table.ints.getD []) ns label ms ∧ Holds w.type w.content ms) (mutateValue r table v) := by
  obtain ⟨type, content⟩ := v
  cases holds with
  | int n =>
    refine (mutateInt_changes n).bind fun m changed => .pure ?_
    obtain ⟨c, drawn, rfl⟩ := changed
    exact ⟨rfl, _, _, .change [] [] n drawn, .int _⟩
  | ints ns =>
    refine (mutateInts_alter ns).bind fun items altered => .pure ?_
    obtain ⟨label, ms, altered, rfl⟩ := altered
    exact ⟨rfl, label, ms, altered, .ints ms⟩
  | texts ss other =>
    refine (mutateTexts_texts ss other).bind fun items texts => .pure ?_
    obtain ⟨ts, rfl⟩ := texts
    exact ⟨rfl, none, [], .idle [], .texts ts other⟩
  | text s other single =>
    unfold mutateValue
    dsimp only
    split
    · exact absurd rfl other
    · refine (mutateChar_text s).bind fun d text => .pure ?_
      obtain ⟨t, rfl⟩ := text
      exact ⟨rfl, none, [], .idle [], .char t⟩
    next contains => exact absurd rfl (single contains)
    · split
      next same =>
        subst same
        exact .after fun t => .pure ⟨rfl, none, [], .idle [], .string t⟩
      · exact .throw

/-! Values in a store. -/

inductive Kept (store : ArrayStore) (v : Value) (ns : List Int) : Prop
  | plain (holds : Holds v.type v.content ns)
  | stored {handle : Nat} {items : List Datum} (same : v.content = .array handle)
      (found : store.items? handle = some items) (holds : Holds v.type (.list items) ns)

namespace Kept

variable {store after : ArrayStore} {v : Value}

theorem numbers_eq (kept : Kept store v ns) : numbers (store.resolve v.content) = ns := by
  cases kept with
  | plain holds => rw [holds.flat.resolve, holds.numbers_eq]
  | stored same found holds => rw [same, holds.flat.resolve_stored found, holds.numbers_eq]

theorem readArray (kept : Kept store v ns) :
    (readArray store v).type = v.type ∧ Holds v.type (readArray store v).content ns := by
  obtain ⟨type, content⟩ := v
  cases kept with
  | plain holds =>
    rw [holds.flat.readArray]
    exact ⟨rfl, holds⟩
  | stored same found holds =>
    cases same
    rw [readArray_stored found]
    exact ⟨rfl, holds⟩

theorem extended (kept : Kept store v ns) (grown : store.Extends after) : Kept after v ns := by
  cases kept with
  | plain holds => exact .plain holds
  | stored same found holds =>
    exact .stored same ((grown.items _ (ArrayStore.items?_bound found)).trans found) holds

theorem load (kept : Kept store v ns) :
    store.Extends (store.load v.content).2 ∧ Kept (store.load v.content).2 ⟨v.type, (store.load v.content).1⟩ ns := by
  obtain ⟨type, content⟩ := v
  cases kept with
  | plain holds =>
    rcases holds.flat.load store with same | ⟨items, rfl, loaded, found⟩
    · rw [same]
      exact ⟨.refl store, .plain holds⟩
    · rw [loaded]
      exact ⟨ArrayStore.extends_alloc store items, .stored rfl found holds⟩
  | stored same found holds =>
    cases same
    exact ⟨.refl store, .stored rfl found holds⟩

end Kept

variable {store : ArrayStore} {values : List Value} {nss : List (List Int)}

/-- Any place of related lists can be changed on both sides. -/
theorem forall₂_split {α β : Type} {related : α → β → Prop} {as : List α} {bs : List β} (all : List.Forall₂ related as bs)
    {i : Nat} {a : α} (found : as[i]? = some a) :
    ∃ front b back, bs = front ++ b :: back ∧ related a b ∧
      ∀ c d, related c d → List.Forall₂ related (as.set i c) (front ++ d :: back) := by
  induction all generalizing i with
  | nil => cases found
  | @cons first b as bs own others ih =>
    cases i with
    | zero =>
      cases found
      exact ⟨[], b, bs, rfl, own, fun c d new => .cons new others⟩
    | succ i =>
      obtain ⟨front, d, back, rfl, held, changed⟩ := ih found
      exact ⟨b :: front, d, back, rfl, held, fun c d new => .cons own (changed c d new)⟩

/-- Mutating values so many times is a history of their integers. -/
theorem mutateValues_history (count : Nat) (kept : List.Forall₂ (Kept store) values nss) :
    Draws (fun mutants => ∃ history mss, Follows (table.ints.getD []) nss.flatten history ∧ history.length = count ∧
      ending nss.flatten history = mss.flatten ∧ List.Forall₂ (Kept store) mutants mss)
      (mutateValues r table store count values) := by
  induction count generalizing values nss with
  | zero => exact .pure ⟨[], nss, trivial, rfl, rfl, kept⟩
  | succ count ih =>
    unfold mutateValues
    refine .guard (.after fun i => ?_)
    split
    -- a place beyond the values is never drawn, but a history has room for it
    · refine (ih kept).weaken ?_
      rintro mutants ⟨history, mss, follows, length, ends, mutated⟩
      refine ⟨(none, nss.flatten) :: history, mss, ⟨.idle _, follows⟩, ?_, ends, mutated⟩
      rw [List.length_cons, length]
    next v found =>
      obtain ⟨front, ns, back, rfl, own, changed⟩ := forall₂_split kept found
      obtain ⟨same, holds⟩ := own.readArray
      rw [← same] at holds
      refine (mutateValue_alters holds).bind fun w mutated => ?_
      obtain ⟨-, label, ms, altered, anew⟩ := mutated
      refine (ih (changed w ms (.plain anew))).weaken ?_
      rintro mutants ⟨history, mss, follows, length, ends, rest⟩
      have whole := altered.within front.flatten back.flatten
      refine ⟨(label, (front ++ ms :: back).flatten) :: history, mss, ⟨?_, follows⟩, ?_, ends, rest⟩
      · simpa using whole
      · rw [List.length_cons, length]

private theorem mutate_history {parent : TestCase} (kept : List.Forall₂ (Kept store) parent.values nss) :
    Draws (fun t => ∃ history mss, Follows (table.ints.getD []) nss.flatten history ∧
      (1 ≤ history.length ∧ history.length ≤ 8) ∧ ending nss.flatten history = mss.flatten ∧
      List.Forall₂ (Kept store) t.values mss) (mutate r table store parent) := by
  refine (between_succeeds (by decide)).draws.bind fun count bounds => ?_
  refine (mutateValues_history count.toNat kept).bind fun mutants mutated => .pure ?_
  obtain ⟨history, mss, follows, length, ends, rest⟩ := mutated
  exact ⟨history, mss, follows, by omega, ends, rest⟩

private theorem generate_kept (store : ArrayStore) (params : Parameters) :
    Draws (fun t => ∃ nss, List.Forall₂ (Kept store) t.values nss ∧ AllFit nss.flatten) (generate r params) := by
  have values (types : List JvmType) :
      Draws (fun values => ∃ nss, List.Forall₂ (Kept store) values nss ∧ AllFit nss.flatten) (generateValues r types) := by
    induction types with
    | nil => exact .pure ⟨[], .nil, List.forall_mem_nil _⟩
    | cons type types ih =>
      refine (generateValue_holds type).bind fun v ⟨ns, holds, fit⟩ => ?_
      refine ih.bind fun values ⟨nss, kept, others⟩ => .pure ?_
      refine ⟨ns :: nss, .cons (.plain holds) kept, ?_⟩
      rw [List.flatten_cons]
      exact List.forall_mem_append.mpr ⟨fit, others⟩
  exact (values params).bind fun _ kept => .pure kept

namespace Session

variable {s next : Session σ} {t : TestCase}

def integersOf (s : Session σ) (t : TestCase) : List Int := (s.valuesOf t).flatMap fun v => numbers v.content

theorem integersOf_eq (kept : List.Forall₂ (Kept s.arrays) t.values nss) : s.integersOf t = nss.flatten := by
  obtain ⟨values, score, depth⟩ := t
  unfold integersOf valuesOf
  dsimp only at kept ⊢
  induction kept with
  | nil => rfl
  | cons own others ih =>
    rw [List.map_cons, List.flatMap_cons, List.flatten_cons, ih, own.numbers_eq]

theorem loadValues_kept (kept : List.Forall₂ (Kept store) values nss) :
    store.Extends (loadValues store values).2 ∧
      List.Forall₂ (Kept (loadValues store values).2) (loadValues store values).1 nss := by
  induction values generalizing nss store with
  | nil =>
    cases kept
    exact ⟨.refl store, .nil⟩
  | cons v values ih =>
    cases kept with
    | cons own others =>
      obtain ⟨grown, held⟩ := own.load
      obtain ⟨further, loaded⟩ := ih (others.imp fun _ _ kept => kept.extended grown)
      exact ⟨grown.trans further, .cons (held.extended further) loaded⟩

theorem draw_gives {α : Type} {post : α → Prop} {drawing : Drawing σ α} {a : α} (draws : Draws post drawing)
    (drawn : s.draw drawing = (.ok a, next)) : post a ∧ next.arrays = s.arrays := by
  rcases ran : drawing.run.run s.source with ⟨result, source⟩
  unfold draw at drawn
  rw [ran] at drawn
  cases drawn
  exact ⟨draws s.source a source ran, rfl⟩

/-- A line of descent is a history of integers, with up to eight mutations for a generation. -/
theorem descend_history {parent : TestCase} (generations : Nat) (kept : List.Forall₂ (Kept s.arrays) parent.values nss)
    (descended : s.descend r table generations parent = (.ok t, next)) :
    ∃ history mss, Follows (table.ints.getD []) nss.flatten history ∧
      (generations ≤ history.length ∧ history.length ≤ 8 * generations) ∧
      ending nss.flatten history = mss.flatten ∧ List.Forall₂ (Kept next.arrays) t.values mss := by
  induction generations generalizing s parent nss with
  | zero =>
    cases descended
    exact ⟨[], nss, trivial, by simp, rfl, kept⟩
  | succ generations ih =>
    rcases drawn : s.draw (mutate r table s.arrays parent) with ⟨_ | mutant, middle⟩
    · rw [descend, drawn] at descended
      cases descended
    · rw [descend, drawn] at descended
      obtain ⟨⟨history, mss, follows, few, ends, mutated⟩, same⟩ := draw_gives (mutate_history kept) drawn
      rw [← same] at mutated
      -- keeping the mutant moves its arrays to the store and leaves its integers as they are
      obtain ⟨-, loaded⟩ := loadValues_kept mutated
      obtain ⟨later, final, goesOn, fewer, lasts, rest⟩ := ih loaded descended
      rw [← ends] at goesOn lasts
      obtain ⟨whole, last⟩ := follows.trans goesOn
      refine ⟨history ++ later, final, whole, ?_, last.trans lasts, rest⟩
      rw [List.length_append]
      omega

end Session

theorem words_stay_words_unless_overstepped {ints : List Int} (known : table.intsOrFault = .ok ints)
    (literals : AllFit ints) :
    (∀ n m : Int, (∃ (τ : Type) (q : Randomness τ) (source after : τ),
        (mutateInt q table (.int n)).run.run source = (.ok m, after)) ↔ ∃ c : IntChange, c.Open ints ∧ c.apply n = m) ∧
    (∀ n : Int, FitsWord n →
      (∀ c : IntChange, c.Open ints → (FitsWord (c.apply n) ↔ ¬c.Overshoots n)) ∧
      ∃ c : IntChange, c.Open ints ∧ c.Overshoots n) ∧
    ∀ (σ : Type) (r : Randomness σ) (params : Parameters) (s first last : Session σ) (t u : TestCase) (generations : Nat),
      s.draw (generate r params) = (.ok t, first) →
      (first.keep t).2.descend r table generations (first.keep t).1 = (.ok u, last) →
      AllFit (first.integersOf t) ∧
      (∃ history, Follows ints (first.integersOf t) history ∧ ending (first.integersOf t) history = last.integersOf u ∧
        (generations ≤ history.length ∧ history.length ≤ 8 * generations)) ∧
      ∀ history, Follows ints (first.integersOf t) history →
        ((∀ entry ∈ history, AllFit entry.2) ↔ ∀ entry ∈ history, ¬Oversteps entry.1) ∧
        (ending (first.integersOf t) history = last.integersOf u → (∀ entry ∈ history, ¬Oversteps entry.1) →
          AllFit (last.integersOf u)) := by
  refine ⟨mutateInt_obtains_iff known, fun n word => ⟨?_, IntChange.exists_overshoots ints n⟩, ?_⟩
  · exact fun c drawn => IntChange.fitsWord_apply_iff drawn literals word
  · intro σ r params s first last t u generations drawn descended
    obtain ⟨⟨nss, kept, fit⟩, -⟩ := Session.draw_gives (generate_kept first.arrays params) drawn
    obtain ⟨-, loaded⟩ := Session.loadValues_kept kept
    obtain ⟨history, mss, follows, few, ends, final⟩ := Session.descend_history generations loaded descended
    rw [LiteralTable.ints_of_intsOrFault known] at follows
    rw [Session.integersOf_eq kept, Session.integersOf_eq final]
    refine ⟨fit, ⟨history, follows, ends, few⟩, ?_⟩
    intro other goes
    have iff := goes.allFit_iff literals fit
    refine ⟨iff, fun same steady => ?_⟩
    rw [← same]
    exact ending_allFit fit (iff.mpr steady)

def extremes : LiteralTable := { ints := some [-2147483648, 2147483647] }

/-- Answers for an integer and an array of one; the integer becomes the greatest word and then changes its sign, and an
item of the array gets another byte in between. -/
def steadySession : Session (List Nat) where
  source := [107, 1, 150, 1, 0, 1, 1, 1, 1, 0, 0, 0, 0, 1, 255, 2, 0, 0, 0, 0, 0]

def steadyCase : TestCase := { values := [.int 7, ⟨.array .int, .list [.int 50]⟩] }

def steadyStart : Session (List Nat) := { source := steadySession.source.drop 3 }

def steadyEnd : Session (List Nat) := { source := [], arrays := ⟨#[[.int 50], [.int 16711730]]⟩ }

def steadyDescendant : TestCase := { values := [.int (-2147483647), ⟨.array .int, .array 1⟩], depth := 2 }

theorem steadySession_stays_in_range :
    steadySession.draw (generate scripted [.int, .array .int]) = (.ok steadyCase, steadyStart) ∧
    (steadyStart.keep steadyCase).2.descend scripted extremes 2 (steadyStart.keep steadyCase).1 =
      (.ok steadyDescendant, steadyEnd) ∧
    ∃ history, Follows [-2147483648, 2147483647] [7, 50] history ∧
      ending [7, 50] history = [-2147483647, 16711730] ∧ (2 ≤ history.length ∧ history.length ≤ 16) ∧
      ((∀ entry ∈ history, AllFit entry.2) ↔ ∀ entry ∈ history, ¬Oversteps entry.1) := by
  have literals : AllFit [-2147483648, 2147483647] :=
    List.forall_mem_cons.mpr ⟨by decide, List.forall_mem_singleton.mpr (by decide)⟩
  have drawn : steadySession.draw (generate scripted [.int, .array .int]) = (.ok steadyCase, steadyStart) := rfl
  have descended : (steadyStart.keep steadyCase).2.descend scripted extremes 2 (steadyStart.keep steadyCase).1 =
      (.ok steadyDescendant, steadyEnd) := rfl
  obtain ⟨-, -, descends⟩ := @words_stay_words_unless_overstepped extremes _ rfl literals
  obtain ⟨-, ⟨history, follows, ends, few⟩, every⟩ := descends _ _ _ _ _ _ _ _ _ drawn descended
  exact ⟨drawn, descended, history, follows, ends, few, (every history follows).1⟩

/-- Seven is generated, and the top byte of it is replaced. -/
def topByteSession : Session (List Nat) := { source := [107, 0, 0, 0, 0, 1, 128, 3] }

theorem topByte_leaves_range :
    ∃ first last t u, topByteSession.draw (generate scripted [.int]) = (.ok t, first) ∧ t.values = [.int 7] ∧
      (first.keep t).2.descend scripted extremes 1 (first.keep t).1 = (.ok u, last) ∧
      last.integersOf u = [2147483655] ∧ ¬AllFit (last.integersOf u) := by
  refine ⟨_, _, _, _, rfl, rfl, rfl, rfl, fun fit => ?_⟩
  have word : FitsWord 2147483655 := fit 2147483655 (List.mem_singleton_self _)
  unfold FitsWord at word
  omega

end BytecodeBench.Fuzz
