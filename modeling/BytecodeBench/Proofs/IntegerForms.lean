import BytecodeBench.Proofs.WordArithmetic

/-! Integers in two forms. On the machine on signs an integer is a value of its type, or it is bare, which is
how the length of a string comes. Arithmetic on two integers of one form puts their result in their place. Two
of different forms are taken off the stack and nothing takes their place. -/

namespace BytecodeBench

namespace Slot

def StandsFor (n : Int) : Slot → Prop
  | value v => v.type = .int ∧ v.content.integer? = some n
  | bare d => d.integer? = some n

def isTyped : Slot → Bool
  | value _ => true
  | bare _ => false

def Unmeasured : Slot → Prop
  | value _ => True
  | bare d => d.integer? = none

theorem StandsFor.int (n : Int) : (Slot.int n).StandsFor n := ⟨rfl, rfl⟩

/-- An integer that is not bare has its type. -/
theorem StandsFor.typed {n : Int} {x : Slot} (stands : x.StandsFor n) (unmeasured : x.Unmeasured) : x.isTyped = true := by
  cases x with
  | value v => rfl
  | bare d => cases stands.symm.trans unmeasured

end Slot

namespace Abstract

variable {program : Program} {s : State StringSign} {f : Frame} {operator : Operator} {a b : Slot} {rest : List Slot} {x y : Int}

end Abstract

/-! Code that asks for no length has no bare integers. -/

structure Frame.Unmeasured (f : Frame) : Prop where
  stack : ∀ x ∈ f.stack, x.Unmeasured
  locals : ∀ index x, f.locals.find? index = some x → x.Unmeasured

def State.Unmeasured (s : State StringSign) : Prop := ∀ f ∈ s.frames, f.Unmeasured

namespace Frame.Unmeasured

variable {f : Frame} (held : f.Unmeasured)

include held

theorem withStack {stack : List Slot} (fine : ∀ x ∈ stack, x.Unmeasured) : Frame.Unmeasured { f with stack } :=
  ⟨fine, held.locals⟩

theorem moved (pc : PC) : Frame.Unmeasured { f with pc } := ⟨held.stack, held.locals⟩

theorem push {x : Slot} (fine : x.Unmeasured) : ∀ y ∈ x :: f.stack, y.Unmeasured :=
  List.forall_mem_cons.mpr ⟨fine, held.stack⟩

theorem drop (count : Nat) : ∀ x ∈ f.stack.drop count, x.Unmeasured :=
  fun x member => held.stack x (List.mem_of_mem_drop member)

theorem insert (index : Operand) {x : Slot} (fine : x.Unmeasured) :
    Frame.Unmeasured { f with locals := f.locals.insert index x } where
  stack := held.stack
  locals query y found := by
    rw [Table.find?_insert] at found
    split at found
    · cases found
      exact fine
    · exact held.locals query y found

end Frame.Unmeasured

namespace State

variable {s after : State StringSign} {f : Frame}

theorem Unmeasured.withTop (held : s.Unmeasured) (same : after.frames = s.frames) (top : f.Unmeasured) :
    (after.withTop f).Unmeasured := by
  intro g member
  rcases List.mem_cons.mp member with rfl | below
  · exact top
  · rw [same] at below
    exact held g (List.mem_of_mem_drop below)

theorem Unmeasured.proceed (held : s.Unmeasured) (same : after.frames = s.frames) (top : f.Unmeasured) :
    (after.proceed f).Unmeasured :=
  held.withTop same (top.moved _)

theorem Unmeasured.branch (held : s.Unmeasured) (top : f.Unmeasured) {stack : List Slot}
    (fine : ∀ x ∈ stack, x.Unmeasured) (target : Operand) (taken : Bool) : (s.branch f stack target taken).Unmeasured := by
  cases taken with
  | false => exact held.proceed rfl (top.withStack fine)
  | true => exact held.withTop rfl ((top.withStack fine).moved _)

theorem Unmeasured.push (held : s.Unmeasured) (same : after.frames = s.frames) (top : f.Unmeasured) {x : Slot}
    (fine : x.Unmeasured) : (after.proceedWith f (x :: f.stack)).Unmeasured :=
  held.proceed same (top.withStack (top.push fine))

theorem Unmeasured.pushConstant (held : s.Unmeasured) (top : f.Unmeasured) (v : Value) :
    (s.pushConstant .abstract .sign f v).Unmeasured := by
  unfold State.pushConstant
  split
  next text _ _ =>
    refine held.push (s.intern_frames _ _).1 top ?_
    split <;> trivial
  · exact held.push rfl top trivial

theorem Unmeasured.create (held : s.Unmeasured) (top : f.Unmeasured) (emptyString className : Datum) :
    (s.create emptyString f className).Unmeasured := by
  unfold State.create
  split
  · exact held.push rfl top trivial
  · exact held.push rfl top trivial

theorem Unmeasured.increment (held : s.Unmeasured) (top : f.Unmeasured) (index amount : Operand) :
    Yields Unmeasured (s.increment f index amount) := by
  refine .bind fun _ _ => ?_
  split
  · exact .bind fun _ _ => .bind fun _ _ => .pure (held.proceed rfl (top.insert index trivial))
  · exact .throw

theorem Unmeasured.pop (held : s.Unmeasured) (top : f.Unmeasured) : Yields Unmeasured (s.pop f) := by
  unfold State.pop
  split
  next x rest stack => exact .pure (held.proceed rfl (top.withStack (List.forall_mem_cons.mp (stack ▸ top.stack)).2))
  · exact .throw

theorem Unmeasured.load (held : s.Unmeasured) (top : f.Unmeasured) (index : Operand) :
    Yields Unmeasured (s.load f index) := by
  unfold State.load
  split
  next x found => exact .pure (held.push rfl top (top.locals index x found))
  · exact .throw

theorem Unmeasured.store (held : s.Unmeasured) (top : f.Unmeasured) (index : Operand) :
    Yields Unmeasured (s.store f index) := by
  unfold State.store
  split
  next x rest stack =>
    obtain ⟨own, others⟩ := List.forall_mem_cons.mp (stack ▸ top.stack)
    exact .pure (held.proceed rfl ((top.withStack others).insert index own))
  · exact .throw

theorem Unmeasured.duplicate (held : s.Unmeasured) (top : f.Unmeasured) : Yields Unmeasured (s.duplicate f) := by
  unfold State.duplicate
  split
  next x rest stack =>
    have own := top.stack
    rw [stack] at own
    exact .pure (held.proceed rfl (top.withStack (List.forall_mem_cons.mpr ⟨own x List.mem_cons_self, own⟩)))
  · exact .throw

theorem Unmeasured.leave (held : s.Unmeasured) : (s.leave []).1.Unmeasured := by
  unfold State.leave
  split
  · exact List.forall_mem_nil _
  next caller below frames =>
    have inside (g : Frame) (member : g ∈ caller :: below) : g.Unmeasured :=
      held g (List.mem_of_mem_drop (frames ▸ member))
    refine List.forall_mem_cons.mpr ⟨?_, fun g later => inside g (List.mem_cons_of_mem caller later)⟩
    exact (inside caller List.mem_cons_self).moved _

end State

namespace Abstract

variable {program : Program} {s : State StringSign} {f : Frame}

end Abstract

namespace Call

end Call

namespace Abstract

end Abstract

end BytecodeBench
