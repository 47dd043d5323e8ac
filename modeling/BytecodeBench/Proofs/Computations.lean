import BytecodeBench.Machine.State

/-! Reasoning about computations that may stop: when they give a result, and when one computation
gives whatever another one does. -/

namespace BytecodeBench

section Results

variable {ε α β : Type}

theorem bind_eq_ok {x : Except ε α} {f : α → Except ε β} {b : β} :
    (x >>= f) = .ok b ↔ ∃ a, x = .ok a ∧ f a = .ok b := by
  cases x with
  | error e =>
    constructor
    · intro stopped; cases stopped
    · rintro ⟨_, stopped, _⟩; cases stopped
  | ok a =>
    constructor
    · intro done; exact ⟨a, rfl, done⟩
    · rintro ⟨_, same, done⟩; cases same; exact done

/-- What one computation makes of all items, so does another one that makes the same of each. -/
theorem mapM_eq_ok_map {γ : Type} {f : α → Except ε β} {g : α → Except ε γ} {h : β → γ} {items : List α}
    {results : List β} (done : items.mapM f = .ok results)
    (each : ∀ a ∈ items, ∀ b ∈ results, f a = .ok b → g a = .ok (h b)) : items.mapM g = .ok (results.map h) := by
  induction items generalizing results with
  | nil =>
    cases done
    rfl
  | cons a items ih =>
    rw [List.mapM_cons] at done ⊢
    obtain ⟨b, first, remaining⟩ := bind_eq_ok.mp done
    obtain ⟨others, rest, last⟩ := bind_eq_ok.mp remaining
    cases last
    have own := each a List.mem_cons_self b List.mem_cons_self first
    have later := ih rest fun other member result known =>
      each other (List.mem_cons_of_mem a member) result (List.mem_cons_of_mem b known)
    exact bind_eq_ok.mpr ⟨h b, own, bind_eq_ok.mpr ⟨others.map h, later, rfl⟩⟩

/-- A computation that can stop in one way only stops in that way. -/
theorem mapM_stops {f : α → Except ε β} {items : List α} {e : ε} (each : ∀ a ∈ items, (∃ b, f a = .ok b) ∨ f a = .error e)
    (stopped : ∃ a ∈ items, f a = .error e) : items.mapM f = .error e := by
  induction items with
  | nil =>
    obtain ⟨a, member, -⟩ := stopped
    cases member
  | cons a items ih =>
    obtain ⟨own, others⟩ := List.forall_mem_cons.mp each
    rw [List.mapM_cons]
    rcases own with ⟨b, done⟩ | error
    · have later : ∃ a ∈ items, f a = .error e := by
        obtain ⟨c, member, error⟩ := stopped
        rcases List.mem_cons.mp member with rfl | inside
        · rw [done] at error
          cases error
        · exact ⟨c, inside, error⟩
      rw [done, ih others later]
      rfl
    · rw [error]
      rfl

/-- A computation over all items stops where the first one stops. -/
theorem mapM_first_error {f : α → Except ε β} {early late : List α} {a : α} {e : ε}
    (fine : ∀ other ∈ early, ∃ b, f other = .ok b) (stopped : f a = .error e) :
    (early ++ a :: late).mapM f = .error e := by
  induction early with
  | nil =>
    rw [List.nil_append, List.mapM_cons, stopped]
    rfl
  | cons first early ih =>
    obtain ⟨b, done⟩ := fine first List.mem_cons_self
    rw [List.cons_append, List.mapM_cons, done, ih fun other member => fine other (List.mem_cons_of_mem first member)]
    rfl

theorem liftM_eq_ok {x : Except Fault α} {a : α} : (liftM x : Except Halt α) = .ok a ↔ x = .ok a := by
  cases x <;> constructor <;> intro done <;> cases done <;> rfl

end Results

/-- Every result of a computation is as described; it may also stop. -/
def Yields {ε α : Type} (post : α → Prop) (x : Except ε α) : Prop := ∀ a, x = .ok a → post a

namespace Yields

variable {ε α β : Type} {post : β → Prop}

theorem pure {b : β} (holds : post b) : Yields post (Pure.pure b : Except ε β) := by
  intro a done
  cases done
  exact holds

theorem throw {e : ε} : Yields post (throw e : Except ε β) := by
  intro a stopped
  cases stopped

theorem bind {x : Except ε α} {f : α → Except ε β} (rest : ∀ a, x = .ok a → Yields post (f a)) :
    Yields post (x >>= f) := by
  intro b done
  obtain ⟨a, first, last⟩ := bind_eq_ok.mp done
  exact rest a first b last

theorem weaken {weaker : β → Prop} {x : Except ε β} (yields : Yields post x) (implies : ∀ b, post b → weaker b) :
    Yields weaker x :=
  fun b done => implies b (yields b done)

theorem lift {α : Type} {post : α → Prop} {x : Except Fault α} (yields : Yields post x) :
    Yields post (liftM x : Except Halt α) :=
  fun a done => yields a (liftM_eq_ok.mp done)

/-- A check that stops the computation or lets it go on. -/
theorem guard {condition : Prop} [Decidable condition] {stop : Except ε Unit} {next : Unit → Except ε β}
    (rest : Yields post (next ())) : Yields post (if condition then stop >>= next else next ()) := by
  split
  · exact bind fun _ _ => rest
  · exact rest

theorem mapM {post : β → Prop} {f : α → Except ε β} {items : List α} (each : ∀ a ∈ items, Yields post (f a)) :
    Yields (fun results => ∀ b ∈ results, post b) (items.mapM f) := by
  induction items with
  | nil => exact pure (List.forall_mem_nil _)
  | cons a items ih =>
    rw [List.mapM_cons]
    apply bind
    intro b first
    apply bind
    intro results others
    have own := each a List.mem_cons_self b first
    have rest := ih (fun other member => each other (List.mem_cons_of_mem a member)) results others
    exact pure (List.forall_mem_cons.mpr ⟨own, rest⟩)

end Yields

def FailsAs {α : Type} (kind : FaultKind) (x : Except Fault α) : Prop := ∀ e, x = .error e → e.kind = kind

namespace FailsAs

variable {α β : Type} {kind : FaultKind}

theorem pure (a : α) : FailsAs kind (Pure.pure a : Except Fault α) := by
  intro e impossible
  cases impossible

theorem throw {e : Fault} (same : e.kind = kind) : FailsAs kind (throw e : Except Fault α) := by
  intro other stopped
  cases stopped
  exact same

theorem bind {x : Except Fault α} {f : α → Except Fault β} (first : FailsAs kind x)
    (rest : ∀ a, x = .ok a → FailsAs kind (f a)) : FailsAs kind (x >>= f) := by
  intro e stopped
  cases result : x with
  | error cause =>
    rw [result] at stopped
    cases stopped
    exact first e result
  | ok a =>
    rw [result] at stopped
    exact rest a result e stopped

end FailsAs

/-- The right computation gives what the left one gives, up to a relation, unless that meets a fault. -/
def Refines {α β : Type} (related : α → β → Prop) (left : Except Halt α) (right : Except Halt β) : Prop :=
  match left with
  | .ok a => ∃ b, right = .ok b ∧ related a b
  | .error (.ended outcome) => right = .error (.ended outcome)
  | .error (.fault _) => True

namespace Refines

variable {α β γ δ : Type} {related : α → β → Prop}

theorem ok {a : α} {b : β} (holds : related a b) : Refines related (.ok a) (.ok b) := ⟨b, rfl, holds⟩

theorem refl (x : Except Halt α) : Refines Eq x x := by
  rcases x with ⟨_ | _⟩ | a
  · rfl
  · trivial
  · exact ⟨a, rfl, rfl⟩

theorem of_ok {a : α} {b : β} {left : Except Halt α} {right : Except Halt β} (refines : Refines related left right)
    (done : left = .ok a) (also : right = .ok b) : related a b := by
  rw [done] at refines
  obtain ⟨result, given, holds⟩ := refines
  rw [also] at given
  cases given
  exact holds

/-- A computation that refines itself carries along what is known of its results. -/
theorem self {post : α → Prop} {x : Except Halt α} (yields : Yields post x) :
    Refines (fun a b => a = b ∧ post a) x x := by
  rcases x with ⟨_ | _⟩ | a
  · rfl
  · trivial
  · exact ⟨a, rfl, rfl, yields a rfl⟩

/-- Computations refine each other when their parts do. -/
theorem bind {after : γ → δ → Prop} {left : Except Halt α} {right : Except Halt β}
    {next : α → Except Halt γ} {other : β → Except Halt δ}
    (first : Refines related left right) (rest : ∀ a b, related a b → Refines after (next a) (other b)) :
    Refines after (left >>= next) (right >>= other) := by
  rcases left with ⟨outcome | cause⟩ | a
  · rw [show right = .error (.ended outcome) from first]
    rfl
  · trivial
  · obtain ⟨b, rfl, holds⟩ := first
    exact rest a b holds

theorem weaken {weaker : α → β → Prop} {left : Except Halt α} {right : Except Halt β}
    (refines : Refines related left right) (implies : ∀ a b, related a b → weaker a b) :
    Refines weaker left right := by
  rcases left with ⟨outcome | cause⟩ | a
  · exact refines
  · trivial
  · obtain ⟨b, rfl, holds⟩ := refines
    exact ⟨b, rfl, implies a b holds⟩

theorem and_left {post : α → Prop} {left : Except Halt α} {right : Except Halt β} (refines : Refines related left right)
    (yields : Yields post left) : Refines (fun a b => related a b ∧ post a) left right := by
  rcases left with ⟨outcome | cause⟩ | a
  · exact refines
  · trivial
  · obtain ⟨b, rfl, holds⟩ := refines
    exact ⟨b, rfl, holds, yields a rfl⟩

theorem lift {left : Except Fault α} {right : Except Fault β}
    (answers : ∀ a, left = .ok a → ∃ b, right = .ok b ∧ related a b) : Refines related (liftM left) (liftM right) := by
  cases left with
  | error e => trivial
  | ok a =>
    obtain ⟨b, rfl, holds⟩ := answers a rfl
    exact ⟨b, rfl, holds⟩

/-- A check on both sides that stops the computations or lets them go on. -/
theorem guard {condition : Prop} [Decidable condition] {after : γ → δ → Prop} {stop other : Except Halt Unit}
    {next : Unit → Except Halt γ} {further : Unit → Except Halt δ} (stops : Refines Eq stop other)
    (rest : Refines after (next ()) (further ())) :
    Refines after (if condition then stop >>= next else next ()) (if condition then other >>= further else further ()) := by
  split
  · exact stops.bind fun _ _ _ => rest
  · exact rest

end Refines

/-- Two computations end alike: both with results that correspond, or both for the same reason. -/
def Matches {ε α β : Type} (related : α → β → Prop) : Except ε α → Except ε β → Prop
  | .ok a, .ok b => related a b
  | .error e, .error other => e = other
  | _, _ => False

end BytecodeBench
