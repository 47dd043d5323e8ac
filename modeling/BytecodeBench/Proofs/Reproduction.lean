import BytecodeBench.Proofs.Draws
import BytecodeBench.Proofs.SessionBooks
import BytecodeBench.Proofs.ShiftedRuns

/-! Crashes that can be reproduced. A crash is recorded with the arrays that the method ran on, not with copies of
them, so it fails again as long as nobody has written to those arrays. -/

namespace BytecodeBench.Fuzz

variable {σ : Type} {target : Target σ} {t : TestCase} {outcome : Query} {before now : ArrayStore}

/-- The outcome of the method on the values of a test case, with the arrays as they are. -/
def Target.outcomeOn (target : Target σ) (arrays : ArrayStore) (t : TestCase) : Except Fault Query :=
  Halt.outcome (runFor (Concrete.step target.program target.locate) target.maxSteps
    ⟨.ofCall target.method t.values arrays, none⟩).2

structure Target.Accepts (target : Target σ) (arrays : ArrayStore) (t : TestCase) : Prop where
  room : target.program.constants.cells.size ≤ arrays.cells.size
  sealed : arrays.Sealed
  values : t.Below arrays.cells.size

section Closed

variable (closed : target.program.Closed)
include closed

private theorem constants_below {arrays : ArrayStore} (room : target.program.constants.cells.size ≤ arrays.cells.size) :
    target.program.BuiltFrom (Operation.ConstantBelow arrays.cells.size) :=
  fun method code found i inside d pushed => (closed.below method code found i inside d pushed).mono room

/-- What a test case leads to does not change when the store gets more arrays. -/
theorem outcomeOn_extended (accepts : target.Accepts before t) (same : before.Extends now)
    (ended : target.outcomeOn before t = .ok outcome) : target.outcomeOn now t = .ok outcome :=
  Concrete.outcome_extended accepts.sealed accepts.values (constants_below closed accepts.room) same target.maxSteps ended

end Closed

namespace Session

variable {s : Session σ}

/-- A crash with its signature: there was a store on which it came to that outcome, and what the store has
become since. -/
def Explained (target : Target σ) (now : ArrayStore) (t : TestCase) (signature : Query × UInt64) : Prop :=
  signature.1 ≠ .ok ∧ ∃ before, target.Accepts before t ∧ target.outcomeOn before t = .ok signature.1 ∧
    before.Evolves target.program.ReadOnly now

/-- What a session keeps can be run on the arrays it has, and its crashes are explained. -/
structure Sound (target : Target σ) (s : Session σ) : Prop where
  room : target.program.constants.cells.size ≤ s.arrays.cells.size
  sealed : s.arrays.Sealed
  corpus : ∀ t ∈ s.corpus, t.Below s.arrays.cells.size
  crashes : List.Forall₂ (Explained target s.arrays) s.crashes s.signatures

theorem Sound.evolve (sound : Sound target s) {arrays : ArrayStore} (sealed : arrays.Sealed)
    (evolves : s.arrays.Evolves target.program.ReadOnly arrays) (source : σ) :
    Sound target { s with source, arrays } where
  room := Nat.le_trans sound.room evolves.size
  sealed := sealed
  corpus := fun t member => (sound.corpus t member).mono evolves.size
  crashes := by
    refine sound.crashes.imp fun t signature explained => ?_
    obtain ⟨failed, before, accepts, ended, sofar⟩ := explained
    exact ⟨failed, before, accepts, ended, sofar.trans evolves⟩

private theorem loadValues_receives {values : List Value} {store : ArrayStore} (sealed : store.Sealed)
    (below : ∀ v ∈ values, v.content.Below store.cells.size) :
    store.Receives (loadValues store values).2 ((loadValues store values).1.map (·.content)) := by
  induction values generalizing store with
  | nil => exact .unchanged sealed (List.forall_mem_nil _)
  | cons v rest ih =>
    obtain ⟨belowFirst, belowRest⟩ := List.forall_mem_cons.mp below
    have first := ArrayStore.load_receives v.content store sealed belowFirst
    exact first.append (ih first.sealed fun w member => (belowRest w member).mono first.grown.size)

/-- A test case that is kept is one that the method can be called on. -/
theorem Sound.keep (sound : Sound target s) (below : t.Below s.arrays.cells.size) :
    Sound target (s.keep t).2 ∧ target.Accepts (s.keep t).2.arrays (s.keep t).1 := by
  have received := loadValues_receives sound.sealed below
  have kept : Sound target (s.keep t).2 := sound.evolve received.sealed (received.grown.evolves _) s.source
  refine ⟨kept, kept.room, kept.sealed, ?_⟩
  intro v member
  exact received.below v.content (List.mem_map_of_mem member)

private theorem draw_holds {α : Type} {post : α → Prop} {drawing : Drawing σ α} {a : α} {after : Session σ}
    (draws : Draws post drawing) (drew : s.draw drawing = (.ok a, after)) : post a := by
  have given : (drawing.run.run s.source).1 = .ok a := congrArg Prod.fst drew
  exact draws s.source a (drawing.run.run s.source).2 (Prod.ext given rfl)

private theorem mutant_below (sound : Sound target s) : Draws (TestCase.Below s.arrays.cells.size) (s.mutant target) := by
  refine Draws.bind (schedule_member target.params s.stagnant sound.corpus (generate_below _ target.params)) ?_
  intro parent below
  exact mutate_below sound.sealed target.literals below

section Rounds

variable (closed : target.program.Closed)
include closed

theorem Sound.execute (sound : Sound target s) (accepts : target.Accepts s.arrays t) :
    Sound target (s.execute target t).2 ∧ s.arrays.Evolves target.program.ReadOnly (s.execute target t).2.arrays ∧
      ∀ outcome run, (s.execute target t).1 = .ok (outcome, run) → target.outcomeOn s.arrays t = .ok outcome := by
  rcases ran : runFor (Concrete.step target.program target.locate) target.maxSteps
      ⟨.ofCall target.method t.values s.arrays, some (.empty coverageSize)⟩ with ⟨last, halt⟩
  have settled : Concrete.Settled _ (.ofCall target.method t.values s.arrays) :=
    Concrete.settled_ofCall accepts.sealed accepts.values accepts.room
  obtain ⟨kept, evolves⟩ := Concrete.run_settled closed.below settled target.maxSteps ran
  have reached : (s.execute target t).2 = { s with arrays := last.state.arrays } := by
    simp only [Session.execute, ran]
    split <;> rfl
  rw [reached]
  refine ⟨sound.evolve kept.sealed evolves s.source, evolves, ?_⟩
  intro outcome run done
  obtain ⟨final, stop, ended, result, -⟩ := execute_ok (Prod.ext done rfl)
  -- The session watches the run, and the outcome is that of a run that nothing watches.
  refine Concrete.Execution.unwatched_outcome
    ⟨target.program, target.locate, target.method, t.values, s.arrays, some (.empty coverageSize)⟩ target.maxSteps ?_
  rw [Concrete.Execution.after, ended]
  exact result

theorem Sound.attempt (sound : Sound target s) :
    Sound target (s.attempt target).2 ∧ ∀ r, (s.attempt target).1 = .ok r →
      ∃ before, target.Accepts before r.test ∧ target.outcomeOn before r.test = .ok r.outcome ∧
        before.Evolves target.program.ReadOnly (s.attempt target).2.arrays := by
  have drawn : Sound target (s.draw (s.mutant target)).2 := sound.evolve sound.sealed (.refl _ _) _
  unfold Session.attempt
  rcases mutated : s.draw (s.mutant target) with ⟨_ | mutant, next⟩
  · rw [mutated] at drawn
    refine ⟨drawn, ?_⟩
    intro r done
    cases done
  · have below := draw_holds (mutant_below sound) mutated
    obtain rfl := congrArg Prod.snd mutated
    obtain ⟨kept, accepts⟩ := drawn.keep below
    obtain ⟨after, evolves, ended⟩ := kept.execute closed accepts
    dsimp only
    rcases ran : Session.execute target _ (Session.keep _ mutant).1 with ⟨_ | ⟨outcome, run⟩, final⟩ <;>
      rw [ran] at after evolves ended
    · exact ⟨after, fun r done => by cases done⟩
    · refine ⟨after, ?_⟩
      intro r done
      cases done
      exact ⟨_, ⟨accepts.room, accepts.sealed, accepts.values⟩, ended outcome run rfl, evolves⟩

omit closed in
theorem Sound.learn (sound : Sound target s) (iteration : Nat) {r : Round} (below : r.test.Below s.arrays.cells.size) :
    Sound target (s.learn iteration r) ∧ (s.learn iteration r).arrays = s.arrays := by
  unfold Session.learn
  split
  · refine ⟨⟨sound.room, sound.sealed, ?_, sound.crashes⟩, rfl⟩
    exact List.forall_mem_append.mpr ⟨sound.corpus, List.forall_mem_singleton.mpr below⟩
  · exact ⟨⟨sound.room, sound.sealed, sound.corpus, sound.crashes⟩, rfl⟩

omit closed in
theorem Sound.record (sound : Sound target s) {r : Round}
    (explained : r.outcome ≠ .ok → Explained target s.arrays r.test r.signature) : Sound target (s.record r) := by
  unfold Session.record
  split
  · exact sound
  next new =>
    have failed := explained fun ok => new (Or.inl ok)
    exact ⟨sound.room, sound.sealed, sound.corpus, List.rel_append sound.crashes (.cons failed .nil)⟩

/-- A round keeps a session sound, also one that meets a fault. -/
theorem Sound.iterate (sound : Sound target s) (iteration : Nat) : Sound target (s.iterate target iteration).2 := by
  obtain ⟨after, rounds⟩ := sound.attempt closed
  unfold Session.iterate
  rcases tried : s.attempt target with ⟨_ | r, next⟩ <;> rw [tried] at after rounds
  · exact after
  · obtain ⟨before, accepts, ended, evolves⟩ := rounds r rfl
    obtain ⟨learnt, arrays⟩ := after.learn iteration (accepts.values.mono evolves.size)
    refine learnt.record fun failed => ⟨failed, before, accepts, ended, ?_⟩
    rw [arrays]
    exact evolves

theorem Sound.loop (sound : Sound target s) (budget iteration : Nat) :
    Sound target (loop target budget iteration s).2 := by
  induction budget generalizing s iteration with
  | zero => exact sound
  | succ budget ih =>
    have next := sound.iterate closed iteration
    unfold Session.loop
    split
    · exact ⟨sound.room, sound.sealed, sound.corpus, sound.crashes⟩
    · rcases done : s.iterate target iteration with ⟨_ | _, after⟩ <;> rw [done] at next
      · exact next
      · dsimp only
        split
        · exact ⟨next.room, next.sealed, next.corpus, next.crashes⟩
        · exact ih next (iteration + 1)

omit closed in
theorem Sound.plant (sound : Sound target s) : Sound target (s.plant target).2 := by
  have drawn : Sound target (s.draw (generate target.randomness target.params)).2 :=
    sound.evolve sound.sealed (.refl _ _) _
  unfold Session.plant
  rcases drew : s.draw (generate target.randomness target.params) with ⟨_ | first, next⟩
  · rw [drew] at drawn
    exact drawn
  · have below := draw_holds (generate_below s.arrays.cells.size target.params) drew
    obtain rfl := congrArg Prod.snd drew
    obtain ⟨kept, accepts⟩ := drawn.keep below
    refine ⟨kept.room, kept.sealed, ?_, kept.crashes⟩
    exact List.forall_mem_append.mpr ⟨kept.corpus, List.forall_mem_singleton.mpr accepts.values⟩

theorem Sound.run (sound : Sound target s) (budget : Nat) : Sound target (s.run target budget).2 := by
  have planted := sound.plant
  unfold Session.run
  rcases begun : s.plant target with ⟨_ | _, after⟩ <;> rw [begun] at planted
  · exact planted
  · have looped := planted.loop closed budget 0
    dsimp only
    rcases done : Session.loop target budget 0 after with ⟨_ | _, last⟩ <;> rw [done] at looped <;> exact looped

end Rounds

/-- Every crash that a session records has failed as its signature says, on the arrays as they were then. It fails so
again on the arrays that the session leaves if those of then are unchanged, and always if the code writes to no array. -/
theorem crashes_reproduce (target : Target σ) (closed : target.program.Closed) (budget : Nat) (source : σ) (log : Log)
    {last : Session σ} (ran : (run target budget { source, arrays := target.program.constants, log }).2 = last)
    (i : Nat) (t : TestCase) (recorded : last.crashes[i]? = some t) :
    ∃ outcome digest, last.signatures[i]? = some (outcome, digest) ∧ outcome ≠ .ok ∧
      (∃ before, target.Accepts before t ∧ target.outcomeOn before t = .ok outcome ∧
        (before.Extends last.arrays → target.outcomeOn last.arrays t = .ok outcome)) ∧
      (target.program.ReadOnly → target.outcomeOn last.arrays t = .ok outcome) := by
  have fresh : Sound target { source, arrays := target.program.constants, log } :=
    ⟨Nat.le_refl _, closed.sealed, List.forall_mem_nil _, .nil⟩
  have sound : Sound target last := ran ▸ fresh.run closed budget
  obtain ⟨inside, rfl⟩ := List.getElem?_eq_some_iff.mp recorded
  have alike := sound.crashes.length_eq
  obtain ⟨failed, before, accepts, ended, evolves⟩ := sound.crashes.get inside (alike ▸ inside)
  have again (same : before.Extends last.arrays) := outcomeOn_extended closed accepts same ended
  refine ⟨_, _, List.getElem?_eq_getElem (alike ▸ inside), failed, ⟨before, accepts, ended, again⟩, ?_⟩
  intro reads
  exact again (evolves.kept reads)

/-! Methods that take an array. -/

def methodTable (code : List Operation) : Table AbsMethodId (List Instruction) :=
  [(⟨⟨"Sample"⟩, ⟨"run", [.array .int], none⟩⟩, code.zipIdx.map fun (operation, offset) => ⟨.int offset, operation⟩)]

private theorem methodTable_operations {allowed : Operation → Prop} {code : List Operation}
    (built : ∀ operation ∈ code, allowed operation) : ∀ row ∈ methodTable code, ∀ i ∈ row.2, allowed i.operation := by
  refine List.forall_mem_singleton.mpr ?_
  intro i inside
  obtain ⟨⟨operation, offset⟩, member, rfl⟩ := List.mem_map.mp inside
  exact built operation (List.fst_mem_of_mem_zipIdx member)

def onArray (code : List Operation) : Target Nat where
  method := ⟨⟨"Sample"⟩, ⟨"run", [.array .int], none⟩⟩
  program := .ofTable (methodTable code)
  maxSteps := 20
  literals := {}
  randomness := counting
  locate := fun pc _ => pc.offset.toInt

private theorem onArray_closed {code : List Operation} (plain : ∀ operation ∈ code, operation.ConstantBelow 0) :
    (onArray code).program.Closed := Program.ofTable_closed (methodTable_operations plain)

private theorem onArray_readOnly {code : List Operation} (reads : ∀ operation ∈ code, ¬ operation.Writes) :
    (onArray code).program.ReadOnly :=
  Program.ofTable_builtFrom (fun _ _ _ writes => writes.elim) (methodTable_operations reads)

def afterRound (code : List Operation) : Session Nat :=
  (run (onArray code) 1 { source := 1, arrays := (onArray code).program.constants, log := [] }).2

def refusing : List Operation :=
  [.load .reference (.number 0), .push (.int 0), .arrayLoad .int, .zeroJump "eq" (.number 6), .push (.int 1), .throw,
    .return none]

theorem refusing_reproduced :
    (onArray refusing).program.Closed ∧ (onArray refusing).program.ReadOnly ∧
      ∃ t outcome, (afterRound refusing).crashes[0]? = some t ∧ outcome ≠ .ok ∧
        (onArray refusing).outcomeOn (afterRound refusing).arrays t = .ok outcome := by
  have closed : (onArray refusing).program.Closed := by
    apply onArray_closed
    simp [refusing, Operation.ConstantBelow, Operation.constants, Value.int, Datum.Below]
  have reads : (onArray refusing).program.ReadOnly := by
    apply onArray_readOnly
    simp [refusing, Operation.Writes]
  have crashed : (afterRound refusing).crashes.length = 1 := by decide +kernel
  obtain ⟨t, recorded⟩ : ∃ t, (afterRound refusing).crashes[0]? = some t :=
    ⟨_, List.getElem?_eq_getElem (by omega)⟩
  obtain ⟨outcome, digest, -, failed, -, again⟩ := crashes_reproduce (onArray refusing) closed 1 1 [] rfl 0 t recorded
  exact ⟨closed, reads, t, outcome, recorded, failed, again reads⟩

/-- Refuses an array that does not begin with zero, once it has written a zero to its beginning. -/
def clearing : List Operation :=
  [.load .reference (.number 0), .push (.int 0), .arrayLoad .int, .zeroJump "eq" (.number 10),
    .load .reference (.number 0), .push (.int 0), .push (.int 0), .arrayStore .int, .push (.int 1), .throw, .return none]

/-- The crash is on record as a failure, and the method does not fail on it. -/
theorem clearing_not_reproduced :
    (onArray clearing).program.Closed ∧ ∃ t, (afterRound clearing).crashes[0]? = some t ∧
      (afterRound clearing).signatures.map Prod.fst = [.assertionError] ∧
      (onArray clearing).outcomeOn (afterRound clearing).arrays t = .ok .ok := by
  have closed : (onArray clearing).program.Closed := by
    apply onArray_closed
    simp [clearing, Operation.ConstantBelow, Operation.constants, Value.int, Datum.Below]
  have crashed : (afterRound clearing).crashes.length = 1 := by decide +kernel
  have failed : (afterRound clearing).signatures.map Prod.fst = [.assertionError] := by decide +kernel
  have ended : (runFor (Concrete.step (onArray clearing).program (onArray clearing).locate) 20
      ⟨.ofCall (onArray clearing).method (((afterRound clearing).crashes.map (·.values)).head?.getD [])
        (afterRound clearing).arrays, none⟩).2 = some (.ended .ok) := by decide +kernel
  obtain ⟨t, recorded⟩ := List.length_eq_one_iff.mp crashed
  rw [recorded] at ended
  refine ⟨closed, t, by rw [recorded]; rfl, failed, ?_⟩
  exact congrArg Halt.outcome ended

end Session
end BytecodeBench.Fuzz
