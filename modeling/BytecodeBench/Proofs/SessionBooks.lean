import BytecodeBench.Fuzz.Session
import BytecodeBench.Proofs.CoverageLevels
import BytecodeBench.Proofs.Watching

/-! What a fuzzing session keeps of its rounds. Each round adds to the corpus if it covered anything new and
to the crashes if it failed as no round before it, so that both can be read off the rounds played. -/

namespace BytecodeBench.Fuzz

/-- Of each of some rounds, whether it covered anything that the rounds before it had not. -/
def novelties (rounds : List Round) : List Bool := (Coverage.empty coverageSize).news (rounds.map (·.run))

def quietRounds (rounds : List Round) : Nat := ((novelties rounds).reverse.takeWhile (! ·)).length

def firsts : List Round → List Round
  | [] => []
  | r :: rounds => r :: (firsts rounds).filter (·.signature ≠ r.signature)

/-- The rounds that failed as no round before them. -/
def discoveries (rounds : List Round) : List Round := firsts (rounds.filter (·.outcome ≠ .ok))

section Firsts

variable {rounds : List Round} {r : Round} {signature : Query × UInt64}

private theorem mem_signatures_firsts :
    signature ∈ (firsts rounds).map (·.signature) ↔ signature ∈ rounds.map (·.signature) := by
  induction rounds with
  | nil => rfl
  | cons r rounds ih =>
    simp only [List.mem_map] at ih
    simp only [firsts, List.map_cons, List.mem_cons, List.mem_map, List.mem_filter, decide_eq_true_eq]
    by_cases same : signature = r.signature
    · simp [same]
    · simp only [same, false_or, ← ih]
      constructor
      · rintro ⟨first, ⟨member, -⟩, rfl⟩
        exact ⟨first, member, rfl⟩
      · rintro ⟨first, member, rfl⟩
        exact ⟨first, ⟨member, same⟩, rfl⟩

private theorem firsts_nodup (rounds : List Round) : ((firsts rounds).map (·.signature)).Nodup := by
  induction rounds with
  | nil => exact List.nodup_nil
  | cons r rounds ih =>
    rw [firsts, List.map_cons, List.nodup_cons]
    constructor
    · simp
    · exact ih.sublist (List.filter_sublist.map _)

private theorem firsts_concat (rounds : List Round) (r : Round) :
    firsts (rounds ++ [r]) =
      if r.signature ∈ rounds.map (·.signature) then firsts rounds else firsts rounds ++ [r] := by
  induction rounds with
  | nil => rfl
  | cons first rounds ih =>
    simp only [List.cons_append, firsts, ih, List.map_cons, List.mem_cons]
    by_cases known : r.signature ∈ rounds.map (·.signature)
    · rw [if_pos known, if_pos (Or.inr known)]
    · rw [if_neg known, List.filter_append]
      by_cases same : r.signature = first.signature <;> simp [known, same]

private theorem discoveries_ok (fine : r.outcome = .ok) : discoveries (rounds ++ [r]) = discoveries rounds := by
  simp [discoveries, List.filter_append, fine]

private theorem discoveries_failed (failed : r.outcome ≠ .ok) :
    discoveries (rounds ++ [r]) =
      if r.signature ∈ (discoveries rounds).map (·.signature) then discoveries rounds else discoveries rounds ++ [r] := by
  unfold discoveries
  rw [List.filter_append, List.filter_cons_of_pos (by simpa using failed), List.filter_nil, firsts_concat]
  simp only [mem_signatures_firsts]

private theorem mem_signatures_discoveries :
    signature ∈ (discoveries rounds).map (·.signature) ↔ ∃ r ∈ rounds, r.outcome ≠ .ok ∧ r.signature = signature := by
  unfold discoveries
  rw [mem_signatures_firsts]
  simp [and_assoc]

end Firsts

section Novelties

variable {rounds : List Round} {r : Round}

def coveredBy (rounds : List Round) : Coverage := (Coverage.empty coverageSize).after (rounds.map (·.run))

private theorem novelties_concat (rounds : List Round) (r : Round) :
    novelties (rounds ++ [r]) = novelties rounds ++ [r.run.isInteresting (coveredBy rounds)] := by
  unfold novelties coveredBy
  rw [List.map_append, Coverage.news_append]
  rfl

private theorem coveredBy_concat (rounds : List Round) (r : Round) :
    coveredBy (rounds ++ [r]) = r.run.merge (coveredBy rounds) := by
  unfold coveredBy
  rw [List.map_append, Coverage.after_append]
  rfl

private theorem quietRounds_concat (rounds : List Round) (r : Round) :
    quietRounds (rounds ++ [r]) = if r.run.isInteresting (coveredBy rounds) then 0 else quietRounds rounds + 1 := by
  unfold quietRounds
  rw [novelties_concat, List.reverse_concat]
  cases r.run.isInteresting (coveredBy rounds) <;> simp

variable (sized : ∀ r ∈ rounds, r.run.size = coverageSize)
include sized

theorem sized_runs : ∀ run ∈ rounds.map (·.run), run.size = (Coverage.empty coverageSize).size := by
  intro run member
  obtain ⟨r, played, rfl⟩ := List.mem_map.mp member
  rw [sized r played, Coverage.size_empty]

private theorem size_coveredBy : (coveredBy rounds).size = coverageSize :=
  (Coverage.size_after (sized_runs sized)).trans (Coverage.size_empty coverageSize)

private theorem count_novelties_le : (novelties rounds).count true ≤ 8 * coverageSize := by
  have bounded := Coverage.count_news_le (sized_runs sized)
  rw [Coverage.size_empty] at bounded
  exact bounded

private theorem score_coveredBy :
    (coveredBy rounds).score = (List.range coverageSize).countP fun i => rounds.any fun r => r.run.count i ≠ 0 := by
  have blank : ∀ n ∈ (Coverage.empty coverageSize).cells, n = 0 := by simp [Coverage.empty]
  rw [Coverage.score_eq, size_coveredBy sized]
  apply List.countP_congr
  intro i _
  rw [decide_eq_true_iff, coveredBy, Coverage.count_after_blank blank (sized_runs sized)]
  simp

end Novelties

/-! One round. -/

namespace Session

variable {σ : Type} {target : Target σ} {s before after : Session σ} {rounds : List Round} {r : Round}

theorem execute_ok {t : TestCase} {outcome : Query} {run : Coverage}
    (ran : s.execute target t = (.ok (outcome, run), after)) :
    ∃ last halt, runFor (Concrete.step target.program target.locate) target.maxSteps
        ⟨.ofCall target.method t.values s.arrays, some (.empty coverageSize)⟩ = (last, halt) ∧
      Halt.outcome halt = .ok outcome ∧ run = last.coverage.getD (.empty coverageSize) ∧
      after = { s with arrays := last.state.arrays } := by
  unfold execute at ran
  rcases ended : runFor (Concrete.step target.program target.locate) target.maxSteps
      ⟨.ofCall target.method t.values s.arrays, some (.empty coverageSize)⟩ with ⟨last, halt⟩
  simp only [ended] at ran
  split at ran
  · cases ran
  next result =>
    cases ran
    exact ⟨last, halt, rfl, result, rfl, rfl⟩

private theorem execute_sized {t : TestCase} {outcome : Query} {run : Coverage}
    (ran : s.execute target t = (.ok (outcome, run), after)) : run.size = coverageSize := by
  obtain ⟨last, halt, ended, -, rfl, -⟩ := execute_ok ran
  obtain ⟨c, there, size⟩ := Concrete.run_map_size rfl ended
  rw [there]
  exact size.trans (Coverage.size_empty coverageSize)

private theorem attempt_ok (tried : before.attempt target = (.ok r, after)) :
    ∃ t drawn, before.draw (before.mutant target) = (.ok t, drawn) ∧
      (drawn.keep t).2.execute target (drawn.keep t).1 = (.ok (r.outcome, r.run), after) ∧
      r.test = { (drawn.keep t).1 with score := r.run.score } := by
  unfold attempt at tried
  split at tried
  · cases tried
  next t drawn mutated =>
    simp only at tried
    split at tried
    · cases tried
    next outcome run after ran =>
      cases tried
      exact ⟨t, drawn, mutated, ran, rfl⟩

/-- A round draws from the source and may write to arrays. -/
theorem attempt_frame (tried : before.attempt target = (.ok r, after)) :
    ∃ source arrays, after = { before with source, arrays } := by
  obtain ⟨t, drawn, mutated, ran, -⟩ := attempt_ok tried
  obtain ⟨last, halt, -, -, -, rfl⟩ := execute_ok ran
  obtain rfl := congrArg Prod.snd mutated
  exact ⟨_, _, rfl⟩

private theorem attempt_sized (tried : before.attempt target = (.ok r, after)) : r.run.size = coverageSize := by
  obtain ⟨t, drawn, -, ran, -⟩ := attempt_ok tried
  exact execute_sized ran

structure Books (rounds : List Round) (s : Session σ) : Prop where
  sized : ∀ r ∈ rounds, r.run.size = coverageSize
  coverage : s.coverage = coveredBy rounds
  corpus : s.corpus.length = 1 + (novelties rounds).count true
  stagnant : s.stagnant = quietRounds rounds
  signatures : s.signatures = (discoveries rounds).map (·.signature)
  crashes : s.crashes = (discoveries rounds).map (·.test)

private theorem learn_coverage (iteration : Nat) (same : r.run.size = s.coverage.size) :
    (s.learn iteration r).coverage = r.run.merge s.coverage := by
  unfold learn
  split
  · rfl
  next dull => exact (Coverage.merge_of_dull same (by simpa using dull)).symm

private theorem learn_corpus (iteration : Nat) :
    (s.learn iteration r).corpus.length = s.corpus.length + [r.run.isInteresting s.coverage].count true := by
  unfold learn
  split <;> simp_all [note]

private theorem learn_stagnant (iteration : Nat) :
    (s.learn iteration r).stagnant = if r.run.isInteresting s.coverage then 0 else s.stagnant + 1 := by
  unfold learn
  split <;> rfl

private theorem learn_crashes (iteration : Nat) :
    (s.learn iteration r).crashes = s.crashes ∧ (s.learn iteration r).signatures = s.signatures := by
  unfold learn
  split <;> exact ⟨rfl, rfl⟩

private theorem learn_stopped (iteration : Nat) : (s.learn iteration r).stopped = s.stopped := by
  unfold learn
  split <;> rfl

private theorem record_stopped : (s.record r).stopped = s.stopped := by
  unfold record
  split <;> rfl

private theorem record_keeps (s : Session σ) (r : Round) :
    (s.record r).coverage = s.coverage ∧ (s.record r).corpus = s.corpus ∧ (s.record r).stagnant = s.stagnant := by
  unfold record
  split <;> exact ⟨rfl, rfl, rfl⟩

private theorem record_discoveries (signatures : s.signatures = (discoveries rounds).map (·.signature))
    (crashes : s.crashes = (discoveries rounds).map (·.test)) :
    (s.record r).signatures = (discoveries (rounds ++ [r])).map (·.signature) ∧
      (s.record r).crashes = (discoveries (rounds ++ [r])).map (·.test) := by
  unfold record
  by_cases fine : r.outcome = .ok
  · rw [if_pos (Or.inl fine), discoveries_ok fine]
    exact ⟨signatures, crashes⟩
  · rw [discoveries_failed fine, ← signatures]
    by_cases known : r.signature ∈ s.signatures
    · rw [if_pos (Or.inr known), if_pos known]
      exact ⟨signatures, crashes⟩
    · rw [if_neg (not_or.mpr ⟨fine, known⟩), if_neg known]
      simp [note, signatures, crashes]

theorem Books.entered (books : Books rounds s) (size : r.run.size = coverageSize) (iteration : Nat) :
    Books (rounds ++ [r]) ((s.learn iteration r).record r) := by
  have same : r.run.size = s.coverage.size := by
    rw [size, books.coverage, size_coveredBy books.sized]
  obtain ⟨coverage, corpus, stagnant⟩ := record_keeps (s.learn iteration r) r
  obtain ⟨crashes, signatures⟩ := learn_crashes (s := s) (r := r) iteration
  obtain ⟨recorded, listed⟩ := record_discoveries (r := r) (signatures.trans books.signatures) (crashes.trans books.crashes)
  refine ⟨?_, ?_, ?_, ?_, recorded, listed⟩
  · simpa [or_imp, forall_and, size] using books.sized
  · rw [coverage, learn_coverage iteration same, books.coverage, coveredBy_concat]
  · rw [corpus, learn_corpus, novelties_concat, List.count_append, ← Nat.add_assoc, ← books.corpus, books.coverage]
  · rw [stagnant, learn_stagnant, quietRounds_concat, books.coverage, books.stagnant]
    split <;> rfl

theorem iterate_ok {iteration : Nat} (done : before.iterate target iteration = (.ok (), after)) :
    ∃ r tried, before.attempt target = (.ok r, tried) ∧ after = (tried.learn iteration r).record r := by
  unfold iterate at done
  split at done
  · cases done
  next r tried attempted =>
    cases done
    exact ⟨r, tried, attempted, rfl⟩

/-! Whole sessions. -/

inductive Played (target : Target σ) (start : Session σ) : List Round → Session σ → Prop
  | none : Played target start [] start
  | next {rounds : List Round} {before after : Session σ} {r : Round} (played : Played target start rounds before)
      (tried : (before.attempt target).1 = .ok r) (done : before.iterate target rounds.length = (.ok (), after)) :
      Played target start (rounds ++ [r]) after

namespace Played

variable {start : Session σ}

theorem take (played : Played target start rounds s) (k : Nat) : ∃ earlier, Played target start (rounds.take k) earlier := by
  induction played with
  | none => exact ⟨start, by simpa using Played.none⟩
  | @next rounds before after r played tried done ih =>
    by_cases within : k ≤ rounds.length
    · rw [List.take_append_of_le_length within]
      exact ih
    · rw [List.take_of_length_le (by simp; omega)]
      exact ⟨after, played.next tried done⟩

theorem stopped (played : Played target start rounds s) : s.stopped = start.stopped := by
  induction played with
  | none => rfl
  | next _ _ done ih =>
    obtain ⟨r, tried, attempted, rfl⟩ := iterate_ok done
    obtain ⟨source, arrays, rfl⟩ := attempt_frame attempted
    rw [← ih, record_stopped, learn_stopped]

theorem books (first : Books [] start) (played : Played target start rounds s) : Books rounds s := by
  induction played with
  | none => exact first
  | @next rounds before after r _ tried done ih =>
    obtain ⟨other, mid, attempted, rfl⟩ := iterate_ok done
    rw [attempted] at tried
    cases tried
    have kept : Books rounds mid := by
      obtain ⟨source, arrays, rfl⟩ := attempt_frame attempted
      exact ⟨ih.sized, ih.coverage, ih.corpus, ih.stagnant, ih.signatures, ih.crashes⟩
    exact kept.entered (attempt_sized attempted) rounds.length

end Played

private theorem loop_played {start last : Session σ} {budget : Nat} (running : start.stopped = false)
    (played : Played target start rounds s) (done : loop target budget rounds.length s = (.ok (), last)) :
    ∃ more reached log, Played target start (rounds ++ more) reached ∧ last = { reached with log } ∧
      more.length ≤ budget ∧ (more.length < budget → stagnationLimit ≤ reached.stagnant) := by
  -- Rounds played before are apart from those still to come, as only these count against the budget.
  induction budget generalizing rounds s with
  | zero =>
    cases done
    exact ⟨[], last, last.log, by simpa using played, rfl, Nat.le_refl 0, fun short => by cases short⟩
  | succ budget ih =>
    unfold loop at done
    rw [played.stopped, running] at done
    simp only [Bool.false_eq_true, ↓reduceIte] at done
    split at done
    · cases done
    next after iterated =>
      obtain ⟨r, tried, attempted, -⟩ := iterate_ok iterated
      have further : Played target start (rounds ++ [r]) after := played.next (by rw [attempted]) iterated
      split at done
      next stagnant =>
        cases done
        exact ⟨[r], after, _, further, rfl, by simp, fun _ => stagnant⟩
      · have counted : rounds.length + 1 = (rounds ++ [r]).length := by simp
        rw [counted] at done
        obtain ⟨more, reached, log, played, same, within, short⟩ := ih further done
        refine ⟨r :: more, reached, log, by simpa using played, same, by simpa using within, ?_⟩
        intro fewer
        exact short (by simpa using fewer)

private theorem plant_books {source : σ} {arrays : ArrayStore} {log : Log} {planted : Session σ}
    (done : plant target { source, arrays, log } = (.ok (), planted)) : Books [] planted ∧ planted.stopped = false := by
  unfold plant at done
  split at done
  · cases done
  next first drawn generated =>
    obtain rfl := congrArg Prod.snd generated
    cases done
    exact ⟨⟨by simp, rfl, rfl, rfl, rfl, rfl⟩, rfl⟩

/-- A session that ends without a fault has played at most as many rounds as it may, and fewer only because
nothing new came for long. After each of them its corpus, its crashes and its count of quiet rounds are what
the rounds so far make them, and in the end it returns the number of cells that any round has hit. -/
theorem run_books (target : Target σ) (budget : Nat) (source : σ) (arrays : ArrayStore) (log : Log) {score : Nat}
    {last : Session σ} (done : run target budget { source, arrays, log } = (.ok score, last)) :
    ∃ planted rounds reached, plant target { source, arrays, log } = (.ok (), planted) ∧
      Played target planted rounds reached ∧ (∃ log, last = { reached with log }) ∧
      rounds.length ≤ budget ∧ (rounds.length < budget → stagnationLimit ≤ reached.stagnant) ∧
      (∀ k ≤ rounds.length, ∃ s, Played target planted (rounds.take k) s) ∧
      (∀ sofar s, Played target planted sofar s → Books sofar s ∧ s.corpus.length ≤ 1 + 8 * coverageSize ∧
        s.signatures.Nodup ∧
        ∀ signature, signature ∈ s.signatures ↔ ∃ r ∈ sofar, r.outcome ≠ .ok ∧ r.signature = signature) ∧
      score = (List.range coverageSize).countP fun i => rounds.any fun r => r.run.count i ≠ 0 := by
  unfold run at done
  split at done
  · cases done
  next planted planting =>
    split at done
    · cases done
    next looped =>
      cases done
      obtain ⟨first, running⟩ := plant_books planting
      obtain ⟨rounds, reached, log, played, rfl, within, short⟩ := loop_played running .none looped
      refine ⟨planted, rounds, reached, planting, played, ⟨log, rfl⟩, within, short, fun k _ => played.take k, ?_, ?_⟩
      · intro sofar s played
        have books : Books sofar s := played.books first
        refine ⟨books, ?_, ?_, ?_⟩
        · rw [books.corpus]
          exact Nat.add_le_add_left (count_novelties_le books.sized) 1
        · rw [books.signatures]
          exact firsts_nodup _
        · intro signature
          rw [books.signatures, mem_signatures_discoveries]
      · have books : Books rounds reached := played.books first
        rw [← score_coveredBy books.sized, ← books.coverage]

def counting : Randomness Nat where
  chance _ n := (true, n)
  below bound n := (n % bound, n + 1)
  below_lt _ _ positive := Nat.mod_lt _ positive

/-- A method that divides by zero unless its argument is negative. -/
def dividing : Target Nat where
  method := ⟨⟨"Sample"⟩, ⟨"run", [.int], none⟩⟩
  program.code := fun _ => .ok #[⟨.int 0, .load .int (.number 0)⟩, ⟨.int 1, .zeroJump "lt" (.number 5)⟩,
    ⟨.int 2, .push (.int 1)⟩, ⟨.int 3, .push (.int 0)⟩, ⟨.int 4, .binary .int .div⟩, ⟨.int 5, .return none⟩]
  maxSteps := 10
  literals := {}
  randomness := counting
  locate := fun pc _ => pc.offset.toInt

/-- The first mutant is already a crash. -/
theorem dividing_books :
    ∃ score last rounds, run dividing 1 { source := 98 } = (.ok score, last) ∧ last.crashes.length = 1 ∧
      last.crashes = (discoveries rounds).map (·.test) ∧ (novelties rounds).count true = 1 ∧
      score = (List.range coverageSize).countP fun i => rounds.any fun r => r.run.count i ≠ 0 := by
  have fine : (run dividing 1 { source := 98 }).1.isOk = true := by decide +kernel
  have crashed : (run dividing 1 { source := 98 }).2.crashes.length = 1 := by decide +kernel
  have kept : (run dividing 1 { source := 98 }).2.corpus.length = 2 := by decide +kernel
  rcases done : run dividing 1 { source := 98 } with ⟨_ | score, last⟩
  · rw [done] at fine
    cases fine
  · rw [done] at crashed kept
    obtain ⟨planted, rounds, reached, -, played, ⟨log, rfl⟩, -, -, -, books, covered⟩ :=
      run_books dividing 1 98 {} [] done
    obtain ⟨books, -⟩ := books rounds reached played
    have entries : reached.corpus.length = 2 := kept
    have counted := books.corpus
    exact ⟨score, _, rounds, rfl, crashed, books.crashes, by omega, covered⟩

end Session

end BytecodeBench.Fuzz
