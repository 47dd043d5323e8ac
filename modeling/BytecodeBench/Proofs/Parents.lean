import BytecodeBench.Proofs.TypedTestCases
import Mathlib.Order.Basic

/-! Parents of mutants. The threshold of a corpus is counted from its lowest score upwards, and so the test cases that
are exploited are all but fewer than a fifth: they are the best fifth only of a corpus in which nearly all test cases have
one score. -/

namespace BytecodeBench.Fuzz

variable {corpus : List TestCase} {t : TestCase} {score other : Int}

/-! Scores. -/

/-- A fifth of the test cases, and at least one. -/
def fifth (corpus : List TestCase) : Nat := max 1 (corpus.length / 5)

def better (corpus : List TestCase) (score : Int) : Nat := corpus.countP fun t => score < t.score

def worse (corpus : List TestCase) (score : Int) : Nat := corpus.countP fun t => t.score < score

def upTo (corpus : List TestCase) (score : Int) : Nat := corpus.countP fun t => t.score ≤ score

private theorem better_anti (le : score ≤ other) : better corpus other ≤ better corpus score := by
  apply List.countP_mono_left
  intro t _ higher
  rw [decide_eq_true_eq] at higher ⊢
  exact lt_of_le_of_lt le higher

private theorem worse_eq_upTo (corpus : List TestCase) (score : Int) : worse corpus score = upTo corpus (score - 1) := by
  unfold worse upTo
  congr 1
  funext t
  exact decide_eq_decide.mpr Int.le_sub_one_iff.symm

/-- In ascending order, what stands at a position is at most a number if more than so many are. -/
private theorem getElem_le_iff {scores : List Int} (ascending : scores.Pairwise (· ≤ ·)) {i : Nat}
    (inside : i < scores.length) : scores[i] ≤ score ↔ i < scores.countP (· ≤ score) := by
  induction ascending generalizing i with
  | nil => simp at inside
  | @cons first rest least _ ih =>
    have lowest {n : Int} (member : n ∈ rest) (le : n ≤ score) : first ≤ score := (least n member).trans le
    cases i with
    | zero =>
      rw [List.getElem_cons_zero, List.countP_pos_iff]
      constructor
      · intro le
        exact ⟨first, List.mem_cons_self, decide_eq_true le⟩
      · rintro ⟨n, member, le⟩
        rw [decide_eq_true_eq] at le
        rcases List.mem_cons.mp member with rfl | later
        · exact le
        · exact lowest later le
    | succ i =>
      have within : i < rest.length := by simpa using inside
      rw [List.getElem_cons_succ, List.countP_cons, ih within]
      constructor
      · intro many
        obtain ⟨n, member, le⟩ := List.countP_pos_iff.mp (Nat.zero_lt_of_lt many)
        rw [if_pos (decide_eq_true (lowest member (of_decide_eq_true le)))]
        omega
      · split <;> omega

/-! The threshold. -/

private theorem fifth_le (filled : corpus ≠ []) : fifth corpus - 1 < corpus.length := by
  have := List.length_pos_iff.mpr filled
  unfold fifth
  omega

/-- The threshold is the score that stands, in ascending order, at the end of the first fifth. -/
theorem threshold_eq (filled : corpus ≠ []) :
    ∃ scores : List Int, scores.Pairwise (· ≤ ·) ∧ scores.Perm (corpus.map (·.score)) ∧
      ∃ inside : fifth corpus - 1 < scores.length, threshold corpus = scores[fifth corpus - 1] := by
  have permuted := List.mergeSort_perm (corpus.map (·.score)) fun a b => decide (a ≤ b)
  refine ⟨_, ?_, permuted, ?_⟩
  · refine (List.pairwise_mergeSort (fun a b c => ?_) (fun a b => ?_) _).imp of_decide_eq_true
    · simpa using le_trans
    · simpa using le_total a b
  · have inside := fifth_le filled
    rw [← List.length_map, ← permuted.length_eq] at inside
    refine ⟨inside, ?_⟩
    exact congrArg (Option.getD · 0) (List.getElem?_eq_getElem inside)

private theorem threshold_le_iff (filled : corpus ≠ []) :
    threshold corpus ≤ score ↔ fifth corpus ≤ upTo corpus score := by
  obtain ⟨scores, ascending, permuted, inside, same⟩ := threshold_eq filled
  have positive : 1 ≤ fifth corpus := le_max_left _ _
  rw [same, getElem_le_iff ascending inside, permuted.countP_eq, List.countP_map]
  change fifth corpus - 1 < upTo corpus score ↔ _
  omega

private theorem exists_threshold (filled : corpus ≠ []) : ∃ t ∈ corpus, t.score = threshold corpus := by
  obtain ⟨scores, -, permuted, inside, same⟩ := threshold_eq filled
  rw [same]
  exact List.mem_map.mp (permuted.mem_iff.mp (List.getElem_mem inside))

/-! The pool. -/

private theorem mem_strong (filled : corpus ≠ []) :
    t ∈ strong corpus ↔ t ∈ corpus ∧ fifth corpus ≤ upTo corpus t.score := by
  rw [strong, List.mem_filter, decide_eq_true_eq, threshold_le_iff filled]

private theorem strong_filled (filled : corpus ≠ []) : strong corpus ≠ [] := by
  obtain ⟨t, member, same⟩ := exists_threshold filled
  exact List.ne_nil_of_mem (List.mem_filter.mpr ⟨member, decide_eq_true same.ge⟩)

/-- The worst test case of the pool decides. -/
theorem strong_best_iff_threshold (filled : corpus ≠ []) :
    (∀ t ∈ strong corpus, better corpus t.score < fifth corpus) ↔ better corpus (threshold corpus) < fifth corpus := by
  constructor
  · intro best
    obtain ⟨t, member, same⟩ := exists_threshold filled
    rw [← same]
    exact best t (List.mem_filter.mpr ⟨member, decide_eq_true same.ge⟩)
  · intro few t member
    exact lt_of_le_of_lt (better_anti (of_decide_eq_true (List.mem_filter.mp member).2)) few

private theorem strong_best_iff (filled : corpus ≠ []) :
    (∀ t ∈ strong corpus, better corpus t.score < fifth corpus) ↔
      ∃ score, worse corpus score < fifth corpus ∧ better corpus score < fifth corpus := by
  rw [strong_best_iff_threshold filled]
  -- Fewer than a fifth are worse than a score exactly if it is at most the threshold.
  have lower (score : Int) : worse corpus score < fifth corpus ↔ score ≤ threshold corpus := by
    rw [worse_eq_upTo, ← not_le, ← threshold_le_iff filled]
    omega
  constructor
  · intro few
    exact ⟨threshold corpus, (lower _).mpr le_rfl, few⟩
  · rintro ⟨score, fewWorse, fewBetter⟩
    exact lt_of_le_of_lt (better_anti ((lower score).mp fewWorse)) fewBetter

/-! Draws. -/

section Draws

variable {σ : Type} {r : Randomness σ} {params : Parameters}

private theorem pick_succeeds (tests : List TestCase) (otherwise : TestCase) :
    Succeeds (fun t => t ∈ tests ∨ tests = [] ∧ t = otherwise) (pick r tests otherwise) := by
  cases tests with
  | nil => exact .pure (Or.inr ⟨rfl, rfl⟩)
  | cons first rest => exact (choose_succeeds first rest).weaken fun _ member => Or.inl member

private theorem pick_strong (filled : corpus ≠ []) (otherwise : TestCase) :
    Succeeds (· ∈ strong corpus) (pick r (strong corpus) otherwise) :=
  (pick_succeeds _ otherwise).weaken fun _ drawn => drawn.resolve_right fun none => strong_filled filled none.1

private theorem pickExploit_succeeds (filled : corpus ≠ []) : Succeeds (· ∈ corpus) (pickExploit r params corpus) := by
  unfold pickExploit
  split
  · exact absurd rfl filled
  next first rest =>
    refine (pick_strong filled first).bind fun best drawn => ?_
    have inside := List.mem_of_mem_filter drawn
    split
    · exact .pure inside
    · refine (yes_succeeds _).after fun exploits => ?_
      split
      · exact .pure inside
      · refine (pick_succeeds _ best).weaken ?_
        rintro t (member | ⟨-, rfl⟩)
        · exact List.mem_of_mem_filter member
        · exact inside

private theorem pickUniform_succeeds (filled : corpus ≠ []) : Succeeds (· ∈ corpus) (pickUniform r params corpus) := by
  unfold pickUniform
  split
  · exact absurd rfl filled
  next first rest =>
    split
    · exact choose_succeeds first rest
    next firstWeak others found =>
      refine (choose_succeeds firstWeak others).weaken fun t member => ?_
      rw [← found] at member
      exact List.mem_of_mem_filter member

def Keen (r : Randomness σ) : Prop := ∀ probability source, (r.chance probability source).1 = true

private theorem pickExploit_keen (keen : Keen r) (filled : corpus ≠ []) :
    Succeeds (· ∈ strong corpus) (pickExploit r params corpus) := by
  have taken (probability : Float) : Succeeds (· = true) (r.yes probability) :=
    fun source => ⟨_, _, rfl, keen probability source⟩
  unfold pickExploit
  split
  · exact absurd rfl filled
  next first rest =>
    refine (pick_strong filled first).bind fun best drawn => ?_
    split
    · exact .pure drawn
    · refine (taken _).bind ?_
      rintro _ rfl
      exact .pure drawn

end Draws

/-- A source that takes every chance and always draws the same number, as far as a bound allows it. -/
def stubborn : Randomness Nat where
  chance _ number := (true, number)
  below bound number := (number % bound, number)
  below_lt _ _ positive := Nat.mod_lt _ positive

private theorem pickExploit_stubborn (params : Parameters) (member : t ∈ strong corpus) :
    ∃ number, (pickExploit stubborn params corpus).run.run number = (.ok t, number) := by
  obtain ⟨number, inside, found⟩ := List.mem_iff_getElem.mp member
  refine ⟨number, ?_⟩
  have drawn (otherwise : TestCase) : (pick stubborn (strong corpus) otherwise).run.run number = (.ok t, number) := by
    cases pool : strong corpus with
    | nil => simp [pool] at inside
    | cons first rest =>
      have place : number % (rest.length + 1) = number := Nat.mod_eq_of_lt (by simpa [pool] using inside)
      have there : (first :: rest)[number]? = some t := by
        rw [← pool, ← found]
        exact List.getElem?_eq_getElem inside
      change (Except.ok ((first :: rest)[number % (rest.length + 1)]?.getD first), number) = _
      rw [place, there]
      rfl
  unfold pickExploit
  split
  · cases member
  next first rest =>
    rw [Drawing.run_bind, drawn]
    dsimp only
    split <;> rfl

/-- A test case that may be drawn to be exploited: some source draws it that takes every chance to exploit. -/
def Exploitable (params : Parameters) (corpus : List TestCase) (t : TestCase) : Prop :=
  ∃ (σ : Type) (r : Randomness σ) (source after : σ), Keen r ∧
    (pickExploit r params corpus).run.run source = (.ok t, after)

private theorem exploitable_iff (params : Parameters) (filled : corpus ≠ []) :
    Exploitable params corpus t ↔ t ∈ strong corpus := by
  constructor
  · rintro ⟨σ, r, source, after, keen, drawn⟩
    exact (pickExploit_keen keen filled).draws source t after drawn
  · intro member
    obtain ⟨number, drawn⟩ := pickExploit_stubborn params member
    exact ⟨Nat, stubborn, number, number, fun _ _ => rfl, drawn⟩

/-- The pool holds each test case whose score at least a fifth of the test cases do not exceed. That is the best fifth
exactly if some score has fewer than a fifth of the test cases below it and fewer than a fifth above it. -/
theorem exploited_from_best_fifth_iff (params : Parameters) (filled : corpus ≠ []) :
    (∀ t, t ∈ strong corpus ↔ Exploitable params corpus t) ∧ strong corpus ≠ [] ∧
    ((∀ t ∈ strong corpus, better corpus t.score < fifth corpus) ↔
      ∃ score, worse corpus score < fifth corpus ∧ better corpus score < fifth corpus) ∧
    (∀ t, t ∈ strong corpus ↔ t ∈ corpus ∧ fifth corpus ≤ upTo corpus t.score) ∧
    ∀ (σ : Type) (r : Randomness σ), Succeeds (· ∈ corpus) (pickExploit r params corpus) ∧
      Succeeds (· ∈ corpus) (pickUniform r params corpus) := by
  refine ⟨fun t => (exploitable_iff params filled).symm, strong_filled filled, strong_best_iff filled, ?_, ?_⟩
  · intro t
    exact mem_strong filled
  · intro σ r
    exact ⟨pickExploit_succeeds filled, pickUniform_succeeds filled⟩

/-- Of ten test cases, eight have one score. -/
def evenCorpus : List TestCase :=
  [⟨[], 4, 1⟩, ⟨[], 9, 2⟩] ++ List.replicate 8 ⟨[], 6, 0⟩

theorem evenCorpus_exploited_from_best : evenCorpus ≠ [] ∧ fifth evenCorpus = 2 ∧
    ∀ t ∈ strong evenCorpus, better evenCorpus t.score < fifth evenCorpus := by
  have filled : evenCorpus ≠ [] := List.cons_ne_nil _ _
  obtain ⟨-, -, best, -, -⟩ := exploited_from_best_fifth_iff [.int] filled
  exact ⟨filled, rfl, best.mpr ⟨6, by decide, by decide⟩⟩

/-- Two test cases, of which the first has covered nothing. -/
def unevenCorpus : List TestCase := [⟨[.int 1], 0, 0⟩, ⟨[.int 2], 1, 0⟩]

/-- The worse of two test cases is exploited like the better one. -/
theorem worst_exploited : ∃ t, Exploitable [.int] unevenCorpus t ∧ t.score = 0 ∧
    ¬ better unevenCorpus t.score < fifth unevenCorpus := by
  have filled : unevenCorpus ≠ [] := List.cons_ne_nil _ _
  refine ⟨⟨[.int 1], 0, 0⟩, (exploitable_iff _ filled).mpr ?_, rfl, by decide⟩
  exact (mem_strong filled).mpr ⟨List.mem_cons_self, by decide⟩

end BytecodeBench.Fuzz
