import BytecodeBench.Proofs.Lockstep
import BytecodeBench.Proofs.SignOrder

/-! The machine on signs simulates the machine on texts, as long as strings come from literals and
concatenation and are only asked for their lengths. The machines number their references differently,
since literals of one sign share a reference, and lengths lie on one stack without their type. So slots
correspond by what they stand for: a reference stands for a text on one heap and for its sign on the
other. -/

namespace BytecodeBench

/-! The sign of texts in a row is made of their signs. -/

theorem SmallSet.collected_append {κ : Type} [DecidableEq κ] [Listed κ] (f : Char → κ) (text more : List Char) :
    (text ++ more).foldl (fun set c => set.insert (f c)) empty =
      (more.foldl (fun set c => set.insert (f c)) empty).union (text.foldl (fun set c => set.insert (f c)) empty) := by
  apply ext_contains
  intro k
  rw [Bool.eq_iff_iff, contains_union, Bool.or_eq_true, contains_collected, contains_collected, contains_collected]
  simp only [contains_empty, Bool.false_eq_true, or_false, List.mem_append, or_and_right, exists_or]
  exact or_comm

theorem StringSign.abstract_append (text more : String) :
    abstract (text ++ more) = (abstract more).concat (abstract text) := by
  unfold abstract abstractBy concat
  rw [String.toList_append, SmallSet.collected_append, SmallSet.collected_append, List.length_append, Int.natCast_add,
    Int.add_comm]

/-! String calls on references. -/

section Calls

theorem State.entry_eq {L : Type} {s : State L} {ref : Operand} {d : Datum} (held : s.heap.find? ref = some d) :
    s.entry ref = .ok d := by
  unfold entry
  rw [held]

namespace Concrete

variable {s : State String} {r q : Int} {text more : String}

theorem textOf_reference (held : s.heap.find? (.number r) = some (.text text)) (expected : Expectation) :
    textOf s expected (.reference (.int r)) = .ok text := by
  have looked : stringOf s (.reference (.int r)) = liftM (s.entry (.number r)) := rfl
  unfold textOf
  rw [looked, State.entry_eq held]
  rfl

theorem call_length (held : s.heap.find? (.number r) = some (.text text)) :
    call s .length [.reference (.int r)] = .ok (.int text.length, s) := by
  unfold call
  dsimp only
  rw [textOf_reference held]
  rfl

theorem call_concat (held : s.heap.find? (.number r) = some (.text text))
    (other : s.heap.find? (.number q) = some (.text more)) :
    call s .concat [.reference (.int q), .reference (.int r)] = .ok (s.alloc (.text (text ++ more))) := by
  unfold call
  dsimp only
  rw [textOf_reference held, textOf_reference other]
  rfl

end Concrete

namespace Abstract

variable {t : State StringSign} {r q : Int} {sign other : StringSign}

theorem signOf_reference (held : t.heap.find? (.number r) = some (.sign sign)) :
    signOf t (.reference (.int r)) = .ok (.sign sign) := by
  have looked : signOf t (.reference (.int r)) = liftM (t.entry (.number r)) := rfl
  rw [looked, State.entry_eq held]
  rfl

theorem call_length (held : t.heap.find? (.number r) = some (.sign sign)) :
    call t .length [.reference (.int r)] = .ok (.bare (.int sign.length), t) := by
  unfold call
  dsimp only
  rw [signOf_reference held]
  rfl

theorem call_concat (held : t.heap.find? (.number r) = some (.sign sign))
    (argument : t.heap.find? (.number q) = some (.sign other)) :
    call t .concat [.reference (.int q), .reference (.int r)] = .ok (t.alloc (.sign (other.concat sign))) := by
  unfold call
  dsimp only
  rw [signOf_reference held, signOf_reference argument]
  rfl

end Abstract

end Calls

/-! What corresponds on the two machines. -/

/-- What two slots stand for is the same, up to the sign of a text. -/
inductive Represents (s : State String) (t : State StringSign) : Slot → Slot → Prop
  | plain {v : Value} : v.IsPlain → Represents s t (.value v) (.value v)
  /-- A length has its type on one machine only. -/
  | count (n : Int) : Represents s t (.int n) (.bare (.int n))
  | string {r q : Int} {text : String} : s.heap.find? (.number r) = some (.text text) →
    t.heap.find? (.number q) = some (.sign (.abstract text)) →
    Represents s t (.reference (.int r)) (.reference (.int q))

structure Simulates (s : State String) (t : State StringSign) : Prop where
  twins : ∃ f g, Twins (Represents s t) s t f g
  texts : s.HeapValid .text
  signs : t.HeapValid .sign

section Relation

variable {s after : State String} {t other : State StringSign} {f g : Frame} {x y : Slot}

theorem Represents.grow (represents : Represents s t x y) (left : s.HeapGrows after) (right : t.HeapGrows other) :
    Represents after other x y := by
  cases represents with
  | plain plain => exact .plain plain
  | count n => exact .count n
  | string held signed => exact .string (left.heap _ _ held) (right.heap _ _ signed)

/-- A slot of reference type stands for a string. -/
theorem Represents.reference (represents : Represents s t x y) (typed : x.type = .ok .reference) :
    ∃ r q text, x = .reference (.int r) ∧ y = .reference (.int q) ∧ s.heap.find? (.number r) = some (.text text) ∧
      t.heap.find? (.number q) = some (.sign (.abstract text)) := by
  cases represents with
  | plain plain =>
    exact (plain.1 (Except.ok.inj typed)).elim
  | count n => cases typed
  | string held signed => exact ⟨_, _, _, rfl, rfl, held, signed⟩

theorem Represents.present (represents : Represents s t x y) : ∃ v : Value, x = .value v ∧ v.content ≠ .null := by
  cases represents with
  | plain plain => exact ⟨_, rfl, plain.2⟩
  | count n => exact ⟨_, rfl, by simp [Value.int]⟩
  | string held signed => exact ⟨_, rfl, by simp⟩

/-- Slots keep their meaning when heaps grow. -/
theorem Twins.grow (twins : Twins (Represents s t) after other f g) (left : s.HeapGrows after)
    (right : t.HeapGrows other) : Twins (Represents after other) after other f g :=
  twins.imp fun _ _ represents => represents.grow left right

theorem Simulates.moved (texts : s.HeapValid .text) (signs : t.HeapValid .sign)
    (moved : Moved (Represents s t) s t after other) : Simulates after other := by
  obtain ⟨f, g, twins⟩ := moved.twins
  have left : s.HeapGrows after := (State.HeapGrows.refl s).of_memory moved.left
  have right : t.HeapGrows other := (State.HeapGrows.refl t).of_memory moved.right
  exact ⟨⟨f, g, twins.grow left right⟩, texts.of_memory moved.left, signs.of_memory moved.right⟩

/-- Pushing slots that correspond after both heaps have grown. -/
theorem Simulates.push (twins : Twins (Represents s t) s t f g) (left : s.HeapGrows after) (right : t.HeapGrows other)
    (frames : after.frames = s.frames ∧ after.arrays = s.arrays) (frames' : other.frames = t.frames ∧ other.arrays = t.arrays)
    (texts : after.HeapValid .text) (signs : other.HeapValid .sign) {stack stack' : List Slot}
    (related : List.Forall₂ (Represents s t) stack stack') (holds : Represents after other x y) :
    Simulates (after.proceedWith f (x :: stack)) (other.proceedWith g (y :: stack')) := by
  have grown := (twins.sameFrames frames frames').grow left right
  have grownStack := related.imp fun _ _ represents => represents.grow left right
  exact .moved texts signs (grown.proceedWith (.cons holds grownStack))

end Relation

/-- Instructions that signs follow exactly: strings come from literals and concatenation, and nothing
but their length is asked for. -/
def Operation.SignExact : Operation → Prop
  | .push v => v.IsPlain ∨ ∃ text, v = ⟨.reference, .text text⟩
  | .invokeVirtual m => ∀ c, StringCall.of? m = some c → c = .length ∨ c = .concat
  | .compareJump condition _ => condition ≠ "is"
  | .zeroJump .. | .throw => True
  | .return type => type = none ∨ type = some .int
  | other => other.MovesSlots

/-- Strings are not compared with zero, and string methods are applied to nothing else. -/
def Operation.Fits : Operation → List Slot → Prop
  | .zeroJump .., stack => ∀ x ∈ stack.head?, x.type ≠ .ok .reference
  | .invokeVirtual m, stack => ∀ c, StringCall.of? m = some c → ∀ x ∈ stack.take c.arity, x.type = .ok .reference
  | _, _ => True

section Steps

variable {s : State String} {t : State StringSign} {f g : Frame} {i : Instruction}

private theorem literal_simulates (twins : Twins (Represents s t) s t f g) (texts : s.HeapValid .text)
    (signs : t.HeapValid .sign)
    (text : String) :
    Simulates (s.pushConstant id .text f ⟨.reference, .text text⟩)
      (t.pushConstant .abstract .sign g ⟨.reference, .text text⟩) := by
  obtain ⟨valid, grows, r, interned⟩ := texts.intern text
  obtain ⟨valid', grows', q, interned'⟩ := signs.intern (StringSign.abstract text)
  rw [State.pushConstant_literal, State.pushConstant_literal]
  refine .push twins grows grows' (s.intern_frames _ _) (t.intern_frames _ _) valid valid' twins.stack ?_
  rw [id, interned.slot, interned'.slot]
  exact .string interned.heap interned'.heap

private theorem length_simulates (twins : Twins (Represents s t) s t f g) (texts : s.HeapValid .text)
    (signs : t.HeapValid .sign)
    {m : MethodRef} (op : i.operation = .invokeVirtual m) (called : StringCall.of? m = some .length)
    (fits : i.operation.Fits f.stack) : Refines Simulates (Concrete.effect s f i) (Abstract.effect t g i) := by
  have arity : Concrete.arity i.operation = 1 := by simp [op, Concrete.arity, called, StringCall.arity]
  refine twins.takesOne arity ?_
  intro x y rest tail left right holds related
  rw [op, left] at fits
  have typed : x.type = .ok .reference := fits .length called x List.mem_cons_self
  obtain ⟨r, q, text, rfl, rfl, held, signed⟩ := holds.reference typed
  rw [Concrete.effect_stringCall op called (by simp [left, StringCall.arity]),
    Abstract.effect_stringCall op called (by simp [right, StringCall.arity]), left, right]
  have result : (StringSign.abstract text).length = text.length := rfl
  have calls := Concrete.call_length held
  have calls' := Abstract.call_length signed
  rw [result] at calls'
  simp only [StringCall.arity, List.take_succ_cons, List.take_zero, List.drop_succ_cons, List.drop_zero, calls, calls']
  exact .ok (.moved texts signs (twins.proceedWith (.cons (.count _) related)))

private theorem concat_simulates (twins : Twins (Represents s t) s t f g) (texts : s.HeapValid .text)
    (signs : t.HeapValid .sign)
    {m : MethodRef} (op : i.operation = .invokeVirtual m) (called : StringCall.of? m = some .concat)
    (fits : i.operation.Fits f.stack) : Refines Simulates (Concrete.effect s f i) (Abstract.effect t g i) := by
  have arity : Concrete.arity i.operation = 2 := by simp [op, Concrete.arity, called, StringCall.arity]
  refine twins.takesTwo arity ?_
  intro b b' a a' rest tail left right upper lower related
  rw [op, left] at fits
  have typed := fits .concat called
  obtain ⟨q, q', more, rfl, rfl, moreHeld, moreSigned⟩ := upper.reference (typed b (by simp [StringCall.arity]))
  obtain ⟨r, r', text, rfl, rfl, held, signed⟩ := lower.reference (typed a (by simp [StringCall.arity]))
  rw [Concrete.effect_stringCall op called (by simp [left, StringCall.arity]),
    Abstract.effect_stringCall op called (by simp [right, StringCall.arity]), left, right]
  have calls := Concrete.call_concat held moreHeld
  have calls' := Abstract.call_concat signed moreSigned
  rw [← StringSign.abstract_append] at calls'
  simp only [StringCall.arity, List.take_succ_cons, List.take_zero, List.drop_succ_cons, List.drop_zero, calls, calls']
  refine .ok (.push twins (texts.alloc_grows _) (signs.alloc_grows _) ⟨rfl, rfl⟩ ⟨rfl, rfl⟩ (texts.alloc _) (signs.alloc _)
    related ?_)
  exact .string (State.alloc_entry _ _) (State.alloc_entry _ _)

private theorem compareJump_simulates (twins : Twins (Represents s t) s t f g) {condition : String} {target : Operand}
    (op : i.operation = .compareJump condition target) (numeric : condition ≠ "is") :
    Refines (Moved (Represents s t) s t) (Concrete.effect s f i) (Abstract.effect t g i) := by
  have integers {x y : Slot} (holds : Represents s t x y) :
      Refines Eq (Concrete.toInteger s x) (Abstract.toInteger t y) := by
    cases holds with
    | plain => exact toInteger_refines twins.arrays _
    | count n => exact ⟨_, rfl, rfl⟩
    -- A reference is no number, so the machine on texts meets a fault.
    | string => trivial
  exact twins.compareJump op fun _ _ _ _ lower upper => pairJump_refines numeric (integers lower) (integers upper)

private theorem zeroJump_simulates (twins : Twins (Represents s t) s t f g) {condition : String} {target : Operand}
    (op : i.operation = .zeroJump condition target) (fits : i.operation.Fits f.stack) :
    Refines (Moved (Represents s t) s t) (Concrete.effect s f i) (Abstract.effect t g i) := by
  rw [op] at fits
  refine twins.zeroJump op fun x y top holds => ?_
  cases holds with
  | plain => exact zeroJump_refines _
  | count n => exact .refl _
  | string => exact (fits _ top rfl).elim

private theorem effect_simulates (twins : Twins (Represents s t) s t f g) (texts : s.HeapValid .text)
    (signs : t.HeapValid .sign)
    (allowed : i.operation.SignExact) (fits : i.operation.Fits f.stack) (other : ∀ type, i.operation ≠ .return type) :
    Refines Simulates (Concrete.effect s f i) (Abstract.effect t g i) := by
  have moved (refines : Refines (Moved (Represents s t) s t) (Concrete.effect s f i) (Abstract.effect t g i)) :
      Refines Simulates (Concrete.effect s f i) (Abstract.effect t g i) :=
    refines.weaken fun _ _ moved => .moved texts signs moved
  have moves (blind : i.operation.MovesSlots) : Refines Simulates (Concrete.effect s f i) (Abstract.effect t g i) :=
    moved (twins.movesSlots (fun v plain => .plain plain) blind)
  cases op : i.operation with
  | push v =>
    rw [op] at allowed
    rcases allowed with plain | ⟨text, rfl⟩
    · exact moves (op ▸ plain)
    · rw [Concrete.effect_push op, Abstract.effect_push op]
      exact .ok (literal_simulates twins texts signs text)
  | invokeVirtual m =>
    rw [op] at allowed
    cases called : StringCall.of? m with
    | none => exact moves (op ▸ called)
    | some c =>
      rcases allowed c called with rfl | rfl
      · exact length_simulates twins texts signs op called fits
      · exact concat_simulates twins texts signs op called fits
  | compareJump condition target =>
    rw [op] at allowed
    exact moved (compareJump_simulates twins op allowed)
  | zeroJump condition target => exact moved (zeroJump_simulates twins op fits)
  | throw => exact twins.throw op fun _ _ represents => represents.present
  | «return» type => exact (other type op).elim
  | _ =>
    rw [op] at allowed
    exact moves (op ▸ allowed)

end Steps

def State.Fits (program : Program) (s : State String) : Prop :=
  ∀ i, s.next? program = some i → ∀ f ∈ s.frames.head?, i.operation.Fits f.stack

private theorem step_simulates {program : Program} {locate : Concrete.Locate}
    (built : program.BuiltFrom Operation.SignExact)
    {w : Concrete.Watched} {t : State StringSign} (unwatched : w.coverage = none) (simulates : Simulates w.state t)
    (fits : w.state.Fits program) :
    Follows (fun (w : Concrete.Watched) t => w.coverage = none ∧ Simulates w.state t)
      (Concrete.step program locate w) (Abstract.step program t) := by
  obtain ⟨⟨f, g, twins⟩, texts, signs⟩ := simulates
  refine twins.step unwatched fun i next => ?_
  have allowed := built.next next
  have fitting : i.operation.Fits f.stack := fits i next f (by rw [twins.left]; rfl)
  refine twins.execute ?_ (effect_simulates twins texts signs allowed fitting)
  intro type op
  rw [op] at allowed
  exact allowed

/-- Where strings come from literals and concatenation and are asked for their lengths only, the machine
on signs gives the result of the machine on texts, unless that meets a fault. As long as they run they
are at the same place, and their slots stand for the same: for equal values, or for a text and its
sign. -/
theorem Call.signs_simulate_texts (c : Call) (budget : Nat) (built : c.program.BuiltFrom Operation.SignExact)
    (plain : ∀ v ∈ c.args, v.IsPlain)
    (fits : ∀ k < budget, ∀ w, c.onTexts k = (w, none) → w.state.Fits c.program) :
    (∀ result, Halt.outcome (c.onTexts budget).2 = .ok result → Halt.outcome (c.onSigns budget).2 = .ok result) ∧
    ∀ k ≤ budget, ∀ w, c.onTexts k = (w, none) → ∃ t, c.onSigns k = (t, none) ∧ Simulates w.state t :=
  c.simulated ⟨⟨_, _, .ofCall c.method c.arrays fun v member => .plain (plain v member)⟩, .initial _ _ _ _, .initial _ _ _ _⟩
    (fun _ _ unwatched simulates fits => step_simulates built unwatched simulates fits) fits

/-- The length of a string joined to itself decides a jump. -/
def doubledLength : Call where
  program.code := fun _ => .ok #[⟨.int 0, .push ⟨.reference, .text "ab"⟩⟩, ⟨.int 1, .dup (.number 1)⟩,
    ⟨.int 2, .invokeVirtual ⟨.text "java/lang/String", .text "concat", [.stringObject], some .stringObject⟩⟩,
    ⟨.int 3, .invokeVirtual ⟨.text "java/lang/String", .text "length", [], some .int⟩⟩,
    ⟨.int 4, .zeroJump "ne" (.number 5)⟩, ⟨.int 5, .return none⟩]
  locate := fun _ _ => 0
  method := ⟨⟨"Sample"⟩, ⟨"run", [], none⟩⟩
  args := []
  arrays := {}

theorem doubledLength_simulated :
    doubledLength.program.BuiltFrom Operation.SignExact ∧
      (∀ k < 6, ∀ w, doubledLength.onTexts k = (w, none) → w.state.Fits doubledLength.program) ∧
      Halt.outcome (doubledLength.onTexts 6).2 = .ok .ok ∧ Halt.outcome (doubledLength.onSigns 6).2 = .ok .ok := by
  have concat : StringCall.of? ⟨.text "java/lang/String", .text "concat", [.stringObject], some .stringObject⟩ =
    some .concat := by decide
  have length : StringCall.of? ⟨.text "java/lang/String", .text "length", [], some .int⟩ = some .length := by decide
  have built : doubledLength.program.BuiltFrom Operation.SignExact := by
    intro method code found i inside
    cases found
    simp only [List.mem_toArray, List.mem_cons, List.not_mem_nil, or_false] at inside
    rcases inside with rfl | rfl | rfl | rfl | rfl | rfl
    · exact Or.inr ⟨"ab", rfl⟩
    · trivial
    · intro c called
      exact Or.inr (Option.some.inj (called.symm.trans concat))
    · intro c called
      exact Or.inl (Option.some.inj (called.symm.trans length))
    · trivial
    · exact Or.inl rfl
  have fits : ∀ k < 6, ∀ w, doubledLength.onTexts k = (w, none) → w.state.Fits doubledLength.program := by
    intro k small w ran i next f top
    have reached : w = (doubledLength.onTexts k).1 := by rw [ran]
    subst reached
    rcases k with _ | _ | _ | _ | _ | _ | k
    · obtain rfl := Option.some.inj next
      trivial
    · obtain rfl := Option.some.inj next
      trivial
    · obtain rfl := Option.some.inj next
      obtain rfl := Option.some.inj top
      intro c _ x member
      have inside : x ∈ [Slot.reference (.int 0), Slot.reference (.int 0)] := List.mem_of_mem_take member
      simp only [List.mem_cons, List.not_mem_nil, or_false, or_self] at inside
      rw [inside]
      rfl
    · obtain rfl := Option.some.inj next
      obtain rfl := Option.some.inj top
      intro c _ x member
      have inside : x ∈ [Slot.reference (.int 1)] := List.mem_of_mem_take member
      rw [List.mem_singleton.mp inside]
      rfl
    · obtain rfl := Option.some.inj next
      obtain rfl := Option.some.inj top
      rintro x ⟨⟩ ⟨⟩
    · obtain rfl := Option.some.inj next
      trivial
    · omega
  have done : Halt.outcome (doubledLength.onTexts 6).2 = .ok .ok := rfl
  exact ⟨built, fits, done, (doubledLength.signs_simulate_texts 6 built (List.forall_mem_nil _) fits).1 .ok done⟩

end BytecodeBench
