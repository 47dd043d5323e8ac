import BytecodeBench.Proofs.ExactNumbers
import Mathlib.Order.Interval.Set.Defs
import Mathlib.Order.Monotone.Odd
import Mathlib.Algebra.Order.Field.Basic
import Mathlib.Tactic.FieldSimp
import Mathlib.Tactic.Linarith
import Mathlib.Tactic.Ring

/-! Fair wagers. Over exact numbers every probability between zero and one has one finite wager and every finite wager
is that of one probability. What such a wager can be expected to earn depends on how far the probability is from one
half: nothing at one half, and more on either side. -/

namespace BytecodeBench.Prediction

open Exact

def opposite {N : Type} [Quantity N] (p : Prediction N) : Prediction N := ⟨Quantity.neg p.wager⟩

/-- The fair wager on something at least as likely as not. -/
def favouring (p : ℚ) : Prediction Exact := ⟨if p = 1 then infinity false else rational ((2 * p - 1) / (2 - 2 * p))⟩

theorem ofProbability_eq (p : ℚ) :
    ofProbability (rational p) = if p < 1 / 2 then (favouring (1 - p)).opposite else favouring p := by
  have stake (q : ℚ) : (if Quantity.equal (rational q) (rational 1) then infinity false
      else Quantity.div (Quantity.div (Quantity.sub (rational 1) (Quantity.mul (rational 2) (rational q)))
        (Quantity.add (rational (-1)) (rational q))) (rational 2)) = (favouring q).wager := by
    unfold favouring
    by_cases sure : q = 1
    · simp [sure]
    · have apart : -1 + q ≠ 0 := by
        intro same
        apply sure
        linarith
      have twice : 2 - 2 * q ≠ 0 := by
        intro same
        apply sure
        linarith
      have quotient : (1 - 2 * q) / (-1 + q) / 2 = (2 * q - 1) / (2 - 2 * q) := by
        field_simp
        ring
      simp [sure, apart, ← quotient]
  unfold ofProbability
  by_cases unlikely : p < 1 / 2
  · simp only [quantity_ofInt, quantity_half, quantity_infinity, less_rational, unlikely, decide_true, ↓reduceIte,
      sub_rational, Int.cast_one, Int.cast_ofNat, Int.cast_neg, stake]
    rfl
  · simp only [quantity_ofInt, quantity_half, quantity_infinity, less_rational, unlikely, decide_false, Bool.false_eq_true,
      ↓reduceIte, Int.cast_one, Int.cast_ofNat, Int.cast_neg, stake]

private theorem opposite_opposite (p : Prediction Exact) :
    p.opposite.opposite = p := congrArg Prediction.mk (neg_twice p.wager)

/-- The contrary is as unlikely as the thing is likely. -/
theorem ofProbability_contrary (p : ℚ) : ofProbability (rational (1 - p)) = (ofProbability (rational p)).opposite := by
  rw [ofProbability_eq, ofProbability_eq, sub_sub_cancel]
  rcases lt_trichotomy p (1 / 2) with less | rfl | more
  · rw [if_pos less, if_neg (by linarith), opposite_opposite]
  · norm_num [favouring, opposite]
  · rw [if_neg (not_lt.mpr more.le), if_pos (by linarith)]

/-- The fair wager, by how far the probability is from one half. -/
def fairStake (p : ℚ) : ℚ := (2 * p - 1) / (1 - |2 * p - 1|)

def fairChance (w : ℚ) : ℚ := (1 + w / (1 + |w|)) / 2

private theorem ofProbability_rational {p : ℚ} (positive : 0 < p) (below : p < 1) :
    ofProbability (rational p) = ⟨rational (fairStake p)⟩ := by
  rw [ofProbability_eq]
  unfold favouring fairStake
  split
  next unlikely =>
    have other : 1 - p ≠ 1 := by linarith
    have stake : -((2 * (1 - p) - 1) / (2 - 2 * (1 - p))) = (2 * p - 1) / (1 - |2 * p - 1|) := by
      rw [abs_of_neg (by linarith), ← neg_div]
      congr 1 <;> ring
    rw [if_neg other, ← stake]
    rfl
  next likely =>
    have stake : (2 * p - 1) / (2 - 2 * p) = (2 * p - 1) / (1 - |2 * p - 1|) := by
      rw [abs_of_nonneg (by linarith)]
      congr 1
      ring
    rw [if_neg below.ne, stake]

private theorem toProbability_rational (w : ℚ) :
    (⟨rational w⟩ : Prediction Exact).toProbability = .quantity (rational (fairChance w)) := by
  have doubled : |w| * 2 + 2 ≠ 0 := by positivity
  have chance : (if 0 < w then (|w| * 2 + 1) / (|w| * 2 + 2) else 1 - (|w| * 2 + 1) / (|w| * 2 + 2)) = fairChance w := by
    unfold fairChance
    split
    next ahead =>
      rw [abs_of_pos ahead]
      field_simp
      ring
    next behind =>
      obtain ⟨v, rfl⟩ : ∃ v, w = -v := ⟨-w, by simp⟩
      have nonneg : 0 ≤ v := by linarith
      rw [abs_neg, abs_of_nonneg nonneg]
      field_simp
      ring
  unfold toProbability
  rw [← chance, apply_ite rational]
  simp only [neg_infinity, quantity_infinity, equal_infinity, quantity_ofInt, Bool.or_self, Bool.false_eq_true, ↓reduceIte,
    abs_rational, mul_rational, add_rational, less_rational, Int.cast_ofNat, Int.cast_one, Int.cast_zero,
    div_rational _ doubled, sub_rational, decide_eq_true_eq]

private theorem fairChance_strictMono : StrictMono fairChance := by
  have squashed : StrictMono fun w : ℚ => w / (1 + |w|) := by
    refine strictMono_of_odd_strictMonoOn_nonneg ?_ ?_
    · intro w
      rw [abs_neg, neg_div]
    · intro v nonneg w also less
      have first : 0 ≤ v := nonneg
      have second : 0 ≤ w := also
      dsimp only
      rw [abs_of_nonneg first, abs_of_nonneg second, div_lt_div_iff₀ (by linarith) (by linarith)]
      linarith
  intro v w less
  have further := squashed less
  unfold fairChance
  linarith

private theorem fairChance_mem (w : ℚ) : fairChance w ∈ Set.Ioo (0 : ℚ) 1 := by
  have squashed : |w / (1 + |w|)| < 1 := by
    have wide : 0 < 1 + |w| := by positivity
    rw [abs_div, abs_of_pos wide, div_lt_one wide]
    linarith
  obtain ⟨above, below⟩ := abs_lt.mp squashed
  unfold fairChance
  constructor <;> linarith

private theorem fairChance_fairStake {p : ℚ} (positive : 0 < p) (below : p < 1) : fairChance (fairStake p) = p := by
  have room : 0 < 1 - |2 * p - 1| := by
    have inside : |2 * p - 1| < 1 := abs_lt.mpr ⟨by linarith, by linarith⟩
    linarith
  have wide : 1 + |fairStake p| = 1 / (1 - |2 * p - 1|) := by
    unfold fairStake
    rw [abs_div, abs_of_pos room]
    field_simp
    ring
  unfold fairChance
  rw [wide]
  unfold fairStake
  field_simp
  ring

def fairWagers : Set.Ioo (0 : ℚ) 1 ≃o ℚ :=
  (StrictMono.orderIsoOfRightInverse (fun w : ℚ => (⟨fairChance w, fairChance_mem w⟩ : Set.Ioo (0 : ℚ) 1))
    (fun _ _ less => fairChance_strictMono less) (fun p => fairStake p)
    fun p => Subtype.ext (fairChance_fairStake p.2.1 p.2.2)).symm

/-- Over exact numbers, the probabilities between zero and one are the finite wagers in another form. -/
theorem probabilities_correspond_to_wagers :
    ∃ fair : Set.Ioo (0 : ℚ) 1 ≃o ℚ,
      (∀ p : Set.Ioo (0 : ℚ) 1, ofProbability (rational p) = ⟨rational (fair p)⟩) ∧
      (∀ w, (⟨rational w⟩ : Prediction Exact).toProbability = .quantity (rational (fair.symm w))) ∧
      (∀ p : Set.Ioo (0 : ℚ) 1, (ofProbability (rational p)).toProbability = .quantity (rational p)) ∧
      (∀ w : ℚ, ofProbability (⟨rational w⟩ : Prediction Exact).toProbability.toQuantity = ⟨rational w⟩) ∧
      ofProbability (rational 0) = ⟨infinity true⟩ ∧ ofProbability (rational 1) = ⟨infinity false⟩ ∧
      ∀ p : ℚ, ofProbability (rational (1 - p)) = (ofProbability (rational p)).opposite := by
  have wager (p : Set.Ioo (0 : ℚ) 1) : ofProbability (rational p) = ⟨rational (fairWagers p)⟩ :=
    ofProbability_rational p.2.1 p.2.2
  have probability (w : ℚ) :
      (⟨rational w⟩ : Prediction Exact).toProbability = .quantity (rational (fairWagers.symm w)) :=
    toProbability_rational w
  refine ⟨fairWagers, wager, probability, ?_, ?_, ofProbability_sure false, ofProbability_sure true,
    ofProbability_contrary⟩
  · intro p
    rw [wager, probability, OrderIso.symm_apply_apply]
  · intro w
    have again := wager (fairWagers.symm w)
    rw [OrderIso.apply_symm_apply] at again
    rw [probability]
    exact again

/-! What wagers earn. -/

def expectedScore {N : Type} [Quantity N] (wager : Prediction N) (p : N) : N :=
  Quantity.add (Quantity.mul p (wager.score true).toQuantity)
    (Quantity.mul (Quantity.sub (Quantity.ofInt 1) p) (wager.score false).toQuantity)

/-- What a finite stake earns: less than one point if it is won, and what it costs if it is lost. -/
def earning (stake : ℚ) : ℚ := if 0 < stake then 1 - 1 / (stake + 1) else stake

theorem score_rational (w : ℚ) (happens : Bool) :
    (⟨rational w⟩ : Prediction Exact).score happens = .quantity (rational (earning (if happens then w else -w))) := by
  have paid (stake : ℚ) :
      (if Quantity.less (rational 0) (rational stake) then
        if Quantity.equal (rational stake) (infinity false) then Amount.whole 1
        else .quantity (Quantity.sub (rational 1) (Quantity.div (rational 1) (Quantity.add (rational stake) (rational 1))))
      else .quantity (rational stake)) = .quantity (rational (earning stake)) := by
    unfold earning
    by_cases won : 0 < stake
    · have more : stake + 1 ≠ 0 := by positivity
      simp [won, more]
    · simp [won]
  cases happens with
  | true => exact paid w
  | false => exact paid (-w)

private theorem score_opposite (p : Prediction Exact) (happens : Bool) :
    p.opposite.score (!happens) = p.score happens := by
  cases happens with
  | true =>
    unfold score opposite
    simp only [Bool.not_true, Bool.false_eq_true, ↓reduceIte, neg_twice]
  | false => rfl

theorem earning_of_pos {stake : ℚ} (won : 0 < stake) : earning stake = stake / (1 + stake) := by
  unfold earning
  rw [if_pos won]
  field_simp
  ring

theorem earning_of_nonpos {stake : ℚ} (lost : stake ≤ 0) : earning stake = stake := if_neg (not_lt.mpr lost)

theorem earning_lt_one (stake : ℚ) : earning stake < 1 := by
  rcases lt_or_ge 0 stake with won | lost
  · rw [earning_of_pos won, div_lt_one (by linarith)]
    linarith
  · rw [earning_of_nonpos lost]
    linarith

/-- Both sides of a wager together lose. -/
theorem earning_add_earning_neg (w : ℚ) : earning w + earning (-w) = -w ^ 2 / (1 + |w|) := by
  have forward {w : ℚ} (nonneg : 0 ≤ w) : earning w + earning (-w) = -w ^ 2 / (1 + |w|) := by
    rw [abs_of_nonneg nonneg, earning_of_nonpos (neg_nonpos.mpr nonneg)]
    rcases nonneg.eq_or_lt with rfl | won
    · simp [earning]
    · rw [earning_of_pos won]
      field_simp
      ring
  rcases le_total 0 w with nonneg | nonpos
  · exact forward nonneg
  · have mirrored := forward (neg_nonneg.mpr nonpos)
    rwa [neg_neg, abs_neg, neg_sq, add_comm] at mirrored

private theorem expected_earning {p : ℚ} (positive : 0 < p) (below : p < 1) :
    p * earning (fairStake p) + (1 - p) * earning (-fairStake p) = (2 * p - 1) ^ 2 / 2 := by
  have likely {p : ℚ} (half : 1 / 2 ≤ p) (below : p < 1) :
      p * earning (fairStake p) + (1 - p) * earning (-fairStake p) = (2 * p - 1) ^ 2 / 2 := by
    -- At one half nothing is staked, and the formula for a stake that is won does not apply.
    have margin : 0 ≤ 2 * p - 1 := by linarith
    have room : 0 < 2 - 2 * p := by linarith
    have stake : fairStake p = (2 * p - 1) / (2 - 2 * p) := by
      unfold fairStake
      rw [abs_of_nonneg margin]
      congr 1
      ring
    rw [stake, earning_of_nonpos (neg_nonpos.mpr (div_nonneg margin room.le))]
    rcases margin.eq_or_lt with even | ahead
    · simp [← even, earning]
    · rw [earning_of_pos (div_pos ahead room)]
      have apart : 1 - p ≠ 0 := by linarith
      field_simp
      ring
  rcases le_total (1 / 2) p with half | half
  · exact likely half below
  · have mirrored := likely (p := 1 - p) (by linarith) (by linarith)
    have contrary : fairStake (1 - p) = -fairStake p := by
      unfold fairStake
      rw [show 2 * (1 - p) - 1 = -(2 * p - 1) by ring, abs_neg, neg_div]
    rw [contrary, neg_neg, sub_sub_cancel, add_comm] at mirrored
    rw [mirrored]
    ring

/-- A fair wager earns by how far the probability is from one half, and no wager earns on both sides. -/
theorem fair_wagers_never_cost :
    (∀ p : Set.Ioo (0 : ℚ) 1, (ofProbability (rational p)).expectedScore (rational p) = rational ((2 * p - 1) ^ 2 / 2) ∧
      (0 : ℚ) ≤ (2 * p - 1) ^ 2 / 2) ∧
    ∀ w : ℚ, ∃ earned : Bool → ℚ,
      (∀ happens, (⟨rational w⟩ : Prediction Exact).score happens = .quantity (rational (earned happens))) ∧
      earned true + earned false = -w ^ 2 / (1 + |w|) ∧ (∀ happens, earned happens < 1) ∧
      ∀ happens, (⟨rational (-w)⟩ : Prediction Exact).score (!happens) = (⟨rational w⟩ : Prediction Exact).score happens := by
  refine ⟨?_, ?_⟩
  · intro p
    refine ⟨?_, by positivity⟩
    rw [ofProbability_rational p.2.1 p.2.2, ← expected_earning p.2.1 p.2.2, expectedScore, score_rational, score_rational]
    simp [Amount.toQuantity]
  · intro w
    exact ⟨fun happens => earning (if happens then w else -w), score_rational w, earning_add_earning_neg w,
      fun _ => earning_lt_one _, fun happens => score_opposite ⟨rational w⟩ happens⟩

end BytecodeBench.Prediction
