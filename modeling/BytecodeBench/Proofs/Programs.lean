import BytecodeBench.Machine.Program
import BytecodeBench.Proofs.Computations

/-! Programs by the instructions they are built from, and the instruction a machine is about to
execute. -/

namespace BytecodeBench

namespace Program

def BuiltFrom (program : Program) (allowed : Operation → Prop) : Prop :=
  ∀ method code, program.code method = .ok code → ∀ i ∈ code, allowed i.operation

private theorem fetch_mem {program : Program} {pc : PC} {i : Instruction} (fetched : program.fetch pc = .ok i) :
    ∃ code, program.code pc.method = .ok code ∧ i ∈ code := by
  unfold fetch at fetched
  obtain ⟨code, found, rest⟩ := bind_eq_ok.mp fetched
  split at rest
  next stored place =>
    obtain ⟨_, _, same⟩ := bind_eq_ok.mp rest
    cases same
    obtain ⟨index, -, inside⟩ := Option.bind_eq_some_iff.mp place
    exact ⟨code, found, Array.mem_of_getElem? inside⟩
  · cases rest

theorem BuiltFrom.fetch {program : Program} {allowed : Operation → Prop} (built : program.BuiltFrom allowed)
    {pc : PC} {i : Instruction} (fetched : program.fetch pc = .ok i) : allowed i.operation := by
  obtain ⟨code, found, inside⟩ := fetch_mem fetched
  exact built pc.method code found i inside

end Program

def State.next? {L : Type} (program : Program) (s : State L) : Option Instruction :=
  s.frames.head?.bind fun f => (program.fetch f.pc).toOption

theorem State.next?_eq {L : Type} {program : Program} {s : State L} {f : Frame} {below : List Frame} {i : Instruction}
    (frames : s.frames = f :: below) (fetched : program.fetch f.pc = .ok i) : s.next? program = some i := by
  simp [next?, frames, fetched, Except.toOption]

theorem Program.BuiltFrom.next {L : Type} {program : Program} {allowed : Operation → Prop}
    (built : program.BuiltFrom allowed) {s : State L} {i : Instruction} (next : s.next? program = some i) :
    allowed i.operation := by
  obtain ⟨f, -, fetched⟩ := Option.bind_eq_some_iff.mp next
  cases found : program.fetch f.pc with
  | error e => simp [found, Except.toOption] at fetched
  | ok instruction =>
    simp only [found, Except.toOption, Option.some.injEq] at fetched
    subst fetched
    exact built.fetch found

end BytecodeBench
