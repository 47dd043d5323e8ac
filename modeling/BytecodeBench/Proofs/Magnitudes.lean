import BytecodeBench.Commands.Evaluation
import Mathlib

/-! Magnitudes of floating-point numbers. As long as the numbers at hand have full mantissas and exponents
far from both ends of the range, a product or a quotient has a full mantissa again, and the bounds on its
exponent follow from those of its operands. So a measured time has a logarithm relative to other ones. -/

namespace BytecodeBench.Magnitude
open Float.Model Float.Model.UnpackedFloat

/-! Lengths of numbers. -/

private theorem log2_eq {n k : Nat} (low : 2 ^ k ≤ n) (high : n < 2 ^ (k + 1)) : n.log2 = k := by
  have some : n ≠ 0 := by
    have := Nat.two_pow_pos k
    omega
  exact (Nat.log2_eq_iff some).mpr ⟨low, high⟩

private theorem log2_add {m n k : Nat} (left : 0 < m) (right : 0 < n) (few : m.log2 < k) (less : n.log2 < k) :
    (m + n).log2 < k + 1 := by
  apply (Nat.log2_lt (by omega)).mpr
  rw [Nat.two_pow_succ]
  exact Nat.add_lt_add ((Nat.log2_lt (Nat.ne_of_gt left)).mp few) ((Nat.log2_lt (Nat.ne_of_gt right)).mp less)

theorem full_bounds {m : Nat} (full : m.log2 = 52) (pos : 0 < m) : 2 ^ 52 ≤ m ∧ m < 2 ^ 53 :=
  (Nat.log2_eq_iff (Nat.ne_of_gt pos)).mp full

private theorem log2_scaled {n : Nat} (some : 0 < n) (k : Nat) : (n * 2 ^ k).log2 = n.log2 + k := by
  obtain ⟨least, most⟩ := (Nat.log2_eq_iff (Nat.ne_of_gt some)).mp rfl
  apply log2_eq
  · rw [Nat.pow_add]
    exact Nat.mul_le_mul_right _ least
  · rw [Nat.add_right_comm, Nat.pow_add]
    exact Nat.mul_lt_mul_of_pos_right most (Nat.two_pow_pos k)

private theorem log2_between {m low high : Nat} (least : 2 ^ (52 + low) ≤ m) (most : m < 2 ^ (53 + high)) :
    ∃ k, m.log2 = 52 + k ∧ low ≤ k ∧ k ≤ high := by
  have some : m ≠ 0 := by
    have := Nat.two_pow_pos (52 + low)
    omega
  have := (Nat.le_log2 some).mpr least
  have := (Nat.log2_lt some).mpr most
  exact ⟨m.log2 - 52, by omega⟩

/-! Rounding. -/

private theorem shift_mantissa (em : ExtendedMantissa) (k : Nat) : (em >>> k).mantissa = em.mantissa / 2 ^ k := by
  induction k with
  | zero => exact (Nat.div_one _).symm
  | succ k ih =>
    have step : (em >>> (k + 1)).mantissa = (em >>> k).mantissa / 2 := rfl
    rw [step, ih, Nat.div_div_eq_div_mul, Nat.pow_succ]

private theorem rounded_bounds (em : ExtendedMantissa) :
    em.mantissa ≤ em.roundedMantissa ∧ em.roundedMantissa ≤ em.mantissa + 1 := by
  obtain ⟨mantissa, _ | _, _ | _⟩ := em
  · exact ⟨Nat.le_refl _, Nat.le_succ _⟩
  · exact ⟨Nat.le_refl _, Nat.le_succ _⟩
  · change mantissa ≤ mantissa + mantissa % 2 ∧ mantissa + mantissa % 2 ≤ mantissa + 1
    omega
  · exact ⟨Nat.le_succ _, Nat.le_refl _⟩

private theorem mantissa_of (m : Nat) (a : Accuracy) : (ExtendedMantissa.ofMantissaAndAccuracy m a).mantissa = m := by
  cases a with
  | exact => rfl
  | inexact o => cases o <;> rfl

private theorem shift_full {m : Nat} {e : Int} {a : Accuracy} (k : Nat) (bits : m.log2 = 52 + k)
    (normal : -1074 ≤ e + k) :
    ∃ em, shiftToTargetExponent Format.binary64 m e a = (em, e + k) ∧ em.mantissa = m / 2 ^ k := by
  have target : Format.binary64.targetExponent (totalExponent m e) = e + k := by
    change max ((m.log2 : Int) + 1 + e - 53) (-1074) = e + k
    omega
  refine ⟨ExtendedMantissa.ofMantissaAndAccuracy m a >>> k, ?_, ?_⟩
  · have amount : (e + k - e).toNat = k := by omega
    unfold shiftToTargetExponent shiftToExponent
    rw [target]
    dsimp only
    rw [amount]
  · rw [shift_mantissa, mantissa_of]

private theorem shifted_bounds {m k : Nat} (bits : m.log2 = 52 + k) : 2 ^ 52 ≤ m / 2 ^ k ∧ m / 2 ^ k < 2 ^ 53 := by
  have some : m ≠ 0 := by
    intro none
    simp [none] at bits
    omega
  constructor
  · apply (Nat.le_div_iff_mul_le (Nat.two_pow_pos k)).mpr
    rw [← Nat.pow_add, ← bits]
    exact Nat.log2_self_le some
  · apply (Nat.div_lt_iff_lt_mul (Nat.two_pow_pos k)).mpr
    rw [← Nat.pow_add, show 53 + k = m.log2 + 1 by omega]
    exact Nat.lt_log2_self

/-- Rounding up may make a mantissa one bit too long, and then one shift leaves it full. -/
theorem carried {m : Nat} (least : 2 ^ 52 ≤ m) (most : m ≤ 2 ^ 53) :
    ∃ j, j ≤ 1 ∧ m.log2 = 52 + j ∧ (m / 2 ^ j).log2 = 52 := by
  by_cases longer : m = 2 ^ 53
  · refine ⟨1, Nat.le_refl _, ?_, ?_⟩
    · rw [longer, Nat.log2_two_pow]
    · rw [longer]
      rfl
  · have full : m.log2 = 52 := log2_eq least (by omega)
    refine ⟨0, Nat.zero_le _, full, ?_⟩
    rw [Nat.pow_zero, Nat.div_one, full]

private theorem round_full (s : Sign) {m : Nat} {e : Int} (a : Accuracy) (k : Nat) (bits : m.log2 = 52 + k)
    (normal : -1074 ≤ e + k) :
    ∃ m' e' pos, roundWithAccuracy Format.binary64 s m e a = .finite s m' e' pos ∧ m'.log2 = 52 ∧
      e + k ≤ e' ∧ e' ≤ e + k + 1 := by
  obtain ⟨em, first, own⟩ := shift_full (a := a) k bits normal
  obtain ⟨low, high⟩ := shifted_bounds bits
  obtain ⟨least, most⟩ := rounded_bounds em
  rw [own] at least most
  obtain ⟨j, small, wide, narrow⟩ := carried (m := em.roundedMantissa) (by omega) (by omega)
  -- the second shift is for the bit that rounding up may have carried
  obtain ⟨last, second, rest⟩ := shift_full (a := .exact) (e := e + k) j wide (by omega)
  rw [← rest] at narrow
  have filled : last.mantissa ≠ 0 := by
    intro none
    simp [none] at narrow
  refine ⟨last.mantissa, e + k + j, Nat.pos_of_ne_zero filled, ?_, narrow, by omega, by omega⟩
  unfold roundWithAccuracy
  rw [first]
  dsimp only
  rw [second]
  exact dif_neg filled

/-! Packing. -/

private theorem pack_full {m biased : Nat} {e : Int} (pos : 0 < m) (full : m.log2 = 52) (shown : e + 1075 = biased)
    (small : biased < 2047) :
    UnpackedFloat.pack Format.binary64 (.finite .positive m e pos) =
      packComponents Format.binary64 .positive (BitVec.ofNat 11 biased) (BitVec.ofNat 52 m) := by
  have amount : (e + Format.binary64.exponentBias + Format.binary64.mantissaBitsWithoutImplicit).toNat = biased := by
    change (e + 1023 + 52).toNat = biased
    omega
  have below : ¬2048 ≤ biased + 1 := by omega
  unfold UnpackedFloat.pack
  dsimp only
  rw [amount, if_neg below, if_pos (by rw [full]; rfl)]

private theorem unpack_pack {m : Nat} {e : Int} (pos : 0 < m) (full : m.log2 = 52) (low : -1074 ≤ e) (high : e ≤ 971) :
    (Float.Model.pack (.finite .positive m e pos)).unpack = .finite .positive m e pos := by
  obtain ⟨biased, shown⟩ : ∃ b : Nat, e + 1075 = b := ⟨(e + 1075).toNat, by omega⟩
  have implicit : (1#1 ++ BitVec.ofNat 52 m).toNat = m := by
    obtain ⟨least, most⟩ := full_bounds full pos
    rw [BitVec.toNat_append, ← Nat.shiftLeft_add_eq_or_of_lt (BitVec.isLt _), BitVec.toNat_ofNat m 52]
    change 2 ^ 52 + m % 2 ^ 52 = m
    omega
  have exponent : (BitVec.ofNat 11 biased).toNat = biased := by
    rw [BitVec.toNat_ofNat]
    omega
  have apart : ∀ v : BitVec 11, biased ≠ v.toNat → ¬BitVec.ofNat 11 biased = v := by
    intro v other same
    rw [← same] at other
    exact other exponent.symm
  have finite : ∀ {m' : Nat} {e' : Int} (p : 0 < m'), m' = m → e' = e →
      UnpackedFloat.finite (Sign.ofBitVec Sign.positive.toBitVec) m' e' p = .finite .positive m e pos := by
    rintro _ _ _ rfl rfl
    rfl
  change UnpackedFloat.unpack Format.binary64 (UnpackedFloat.pack Format.binary64 (.finite .positive m e pos)) = _
  rw [pack_full pos full shown (by omega)]
  unfold UnpackedFloat.unpack
  simp only [unpackMantissa_packComponents, unpackExponent_packComponents, unpackSign_packComponents]
  rw [if_neg (apart _ (by change biased ≠ 2047; omega)), if_neg (apart _ (by change biased ≠ 0; omega))]
  apply finite _ implicit
  rw [exponent]
  change (biased : Int) - (1023 + 52) = e
  omega

/-! Bounds. -/

/-- The float is positive, and its 53-bit mantissa is scaled by a power of two between these. -/
def Spans (low high : Int) (x : Float) : Prop :=
  ∃ m e pos, x.toModel.unpack = .finite .positive m e pos ∧ m.log2 = 52 ∧ low ≤ e ∧ e ≤ high

theorem spans_rounded {x : Float} {m : Nat} {e : Int} {a : Accuracy} (k : Nat)
    (rounded : x.toModel = Float.Model.pack (roundWithAccuracy Format.binary64 .positive m e a))
    (bits : m.log2 = 52 + k) (low : -1074 ≤ e + k) (high : e + k ≤ 970) : Spans (e + k) (e + k + 1) x := by
  obtain ⟨m', e', pos, shape, full, least, most⟩ := round_full .positive a k bits low
  refine ⟨m', e', pos, ?_, full, least, most⟩
  rw [rounded, shape]
  exact unpack_pack pos full (by omega) (by omega)

theorem Spans.weaken {low high low' high' : Int} {x : Float} (spans : Spans low high x) (below : low' ≤ low)
    (above : high ≤ high') : Spans low' high' x := by
  obtain ⟨m, e, pos, shape, full, least, most⟩ := spans
  exact ⟨m, e, pos, shape, full, by omega, by omega⟩

theorem Spans.mul {a b c d : Int} {x y : Float} (left : Spans a b x) (right : Spans c d y)
    (low : -1126 ≤ a + c) (high : b + d ≤ 917) : Spans (a + c + 52) (b + d + 54) (x * y) := by
  obtain ⟨m, e, pos, shape, full, least, most⟩ := left
  obtain ⟨m', e', pos', shape', full', least', most'⟩ := right
  obtain ⟨k, bits, small, large⟩ : ∃ k, (m * m').log2 = 52 + k ∧ 52 ≤ k ∧ k ≤ 53 := by
    refine log2_between ?_ ?_
    · have : 2 ^ 52 * 2 ^ 52 ≤ m * m' := Nat.mul_le_mul (full_bounds full pos).1 (full_bounds full' pos').1
      exact this
    · have : m * m' < 2 ^ 53 * 2 ^ 53 := Nat.mul_lt_mul'' (full_bounds full pos).2 (full_bounds full' pos').2
      exact this
  have rounded : (x * y).toModel = Float.Model.pack
      (roundWithAccuracy Format.binary64 .positive (m * m') (e + e') .exact) := by
    change Float.Model.pack (UnpackedFloat.mul Format.binary64 x.toModel.unpack y.toModel.unpack) = _
    rw [shape, shape']
    rfl
  exact (spans_rounded k rounded bits (by omega) (by omega)).weaken (by omega) (by omega)

theorem Spans.div {a b c d : Int} {x y : Float} (left : Spans a b x) (right : Spans c d y)
    (low : -1021 ≤ a - d) (high : b - c ≤ 1022) : Spans (a - d - 53) (b - c - 51) (x / y) := by
  obtain ⟨m, e, pos, shape, full, least, most⟩ := left
  obtain ⟨m', e', pos', shape', full', least', most'⟩ := right
  obtain ⟨floor, ceiling⟩ := full_bounds full pos
  obtain ⟨floor', ceiling'⟩ := full_bounds full' pos'
  obtain ⟨k, bits, -, large⟩ : ∃ k, (m * 2 ^ 53 / m').log2 = 52 + k ∧ 0 ≤ k ∧ k ≤ 1 := by
    refine log2_between ?_ ?_
    · apply (Nat.le_div_iff_mul_le pos').mpr
      omega
    · apply (Nat.div_lt_iff_lt_mul pos').mpr
      omega
  have rounded : (x / y).toModel = Float.Model.pack (roundWithAccuracy Format.binary64 .positive
      (m * 2 ^ 53 / m') (e - e' - 53) (accuracyOfFraction (m * 2 ^ 53 % m') m')) := by
    have target :
        min (e - e') (Format.binary64.targetExponent (totalExponent m e - totalExponent m' e')) = e - e' - 53 := by
      change min (e - e') (max ((m.log2 : Int) + 1 + e - (m'.log2 + 1 + e') - 53) (-1074)) = e - e' - 53
      omega
    have amount : (e - e' - (e - e' - 53)).toNat = 53 := by omega
    have core : divCore Format.binary64 m e m' e' =
        (m * 2 ^ 53 / m', e - e' - 53, accuracyOfFraction (m * 2 ^ 53 % m') m') := by
      unfold divCore
      rw [target]
      dsimp only
      rw [amount, Nat.shiftLeft_eq]
    change Float.Model.pack (UnpackedFloat.div Format.binary64 x.toModel.unpack y.toModel.unpack) = _
    rw [shape, shape']
    unfold UnpackedFloat.div
    dsimp only
    rw [core]
    rfl
  exact (spans_rounded k rounded bits (by omega) (by omega)).weaken (by omega) (by omega)

private theorem spans_one : Spans (-52) (-52) (Float.ofBits 0x3FF0000000000000) := by
  refine ⟨2 ^ 52, -52, by decide, ?_, by decide, Int.le_refl _, Int.le_refl _⟩
  rfl

private theorem spans_two : Spans (-51) (-51) 2.0 := by
  refine ⟨2 ^ 52, -51, by decide, ?_, by decide, Int.le_refl _, Int.le_refl _⟩
  rfl

theorem Spans.positive {a b : Int} {x : Float} (spans : Spans a b x) : ¬x ≤ 0.0 := by
  obtain ⟨m, e, pos, shape, -⟩ := spans
  have zero : (0.0 : Float).toModel.unpack = .zero .positive := by rfl
  intro below
  have compared : x.toModel.unpack.le (0.0 : Float).toModel.unpack = true := of_decide_eq_true below
  rw [shape, zero] at compared
  exact Bool.false_ne_true compared

private theorem spans_ofUInt64 (n : UInt64) (some : 0 < n.toNat) (small : n.toNat < 2 ^ 53) :
    Spans (n.toNat.log2 - 52) (n.toNat.log2 - 51) n.toFloat := by
  have most := (Nat.log2_lt (Nat.ne_of_gt some)).mpr small
  have target : Format.binary64.targetExponent (totalExponent n.toNat 0) = n.toNat.log2 - 52 := by
    change max ((n.toNat.log2 : Int) + 1 + 0 - 53) (-1074) = _
    omega
  have amount : (0 - ((n.toNat.log2 : Int) - 52)).toNat = 52 - n.toNat.log2 := by omega
  have rounded : n.toFloat.toModel = Float.Model.pack (roundWithAccuracy Format.binary64 .positive
      (n.toNat * 2 ^ (52 - n.toNat.log2)) (0 - (52 - n.toNat.log2 : Nat)) .exact) := by
    change Float.Model.pack (UnpackedFloat.normalize Format.binary64 (n.toNat : Int) 0 .positive) = _
    have greater : compare (n.toNat : Int) 0 = .gt := by
      rw [Int.compare_eq_gt]
      omega
    unfold UnpackedFloat.normalize
    rw [greater]
    dsimp only
    unfold UnpackedFloat.round decreaseExponent
    rw [Int.toNat_natCast, target]
    dsimp only
    rw [amount, Nat.shiftLeft_eq]
  have bits := log2_scaled some (52 - n.toNat.log2)
  exact (spans_rounded 0 rounded (by omega) (by omega) (by omega)).weaken (by omega) (by omega)

private theorem spans_ofNat {n bits : Nat} (some : 0 < n) (few : n.log2 < bits) (room : bits ≤ 1010) :
    Spans (-52) (bits - 50) n.toFloat := by
  by_cases small : n < 2 ^ 53
  · have fast : n.toFloat = n.toUInt64.toFloat * Float.ofBits 0x3FF0000000000000 := by
      change Float.ofScientific n false 0 = _
      unfold Float.ofScientific
      rw [dif_pos ⟨small, by decide⟩]
      rfl
    have own : n.toUInt64.toNat = n := by
      change n % 2 ^ 64 = n
      omega
    have direct := spans_ofUInt64 n.toUInt64 (by omega) (by omega)
    rw [own] at direct
    rw [fast]
    exact (direct.mul spans_one (by omega) (by omega)).weaken (by omega) (by omega)
  · have slow : n.toFloat.toModel = Float.Model.pack (roundWithAccuracy Format.binary64 .positive
        (n * 2 ^ 53) (-53) .exact) := by
      change (Float.ofScientific n false 0).toModel = _
      unfold Float.ofScientific
      rw [dif_neg (fun both => small both.1)]
      change Float.Model.pack (UnpackedFloat.ofScientific Format.binary64 n 0) = _
      unfold UnpackedFloat.ofScientific
      have reached : ¬(0 : Int) < -((2 ^ Format.binary64.exponentBits : Int) + n.log2) := by
        change ¬(0 : Int) < -(2048 + n.log2)
        omega
      rw [dif_neg (Nat.ne_of_gt some), if_neg (by decide), if_neg reached, if_pos (Int.le_refl _)]
      unfold UnpackedFloat.mul
      dsimp only
      rw [Nat.shiftLeft_eq]
      change Float.Model.pack (roundWithAccuracy Format.binary64 .positive (n * 2 ^ 53 * 1) (-53) .exact) = _
      rw [Nat.mul_one]
    have bits := log2_scaled some 53
    exact (spans_rounded (n.log2 + 1) slow (by omega) (by omega) (by omega)).weaken (by omega) (by omega)

/-- A time that can be told from none, and that a float has room for: it has a thousand bits at most. -/
def Measurable (time : Nat) : Prop := 0 < time ∧ time.log2 < 1000

theorem relativeTime_ok {time before after : Nat} (took : Measurable time) (first : Measurable before)
    (last : Measurable after) : ∃ x, Evaluation.relativeTime time before after = .ok x := by
  have some : 0 < before + after := Nat.add_pos_left first.1 after
  have sum : (before + after).log2 < 1001 := log2_add first.1 last.1 first.2 last.2
  have numerator : Spans (-52) 950 time.toFloat := spans_ofNat took.1 took.2 (by omega)
  have denominator : Spans (-52) 951 (before + after).toFloat := spans_ofNat some sum (by omega)
  have quotient := numerator.div denominator (by omega) (by omega)
  have doubled := quotient.mul spans_two (by omega) (by omega)
  unfold Evaluation.relativeTime Evaluation.log10 Evaluation.ofNat
  rw [if_neg (Nat.ne_of_gt some), if_neg doubled.positive]
  exact ⟨_, rfl⟩

end BytecodeBench.Magnitude
