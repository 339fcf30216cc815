import CausalWorks.Lib.Rounding
import Mathlib

/-!
# Positive binary64 numbers

`Float` conversions, differences and quotients of positive numbers away from the ends of the
exponent range are the correctly rounded rational results.
-/

namespace Binary64
open Float.Model Float.Model.UnpackedFloat Rounding

/-! ## Extended mantissas -/

/-- The mantissa is the integer part of `x`; the two bits say where the fraction lies. -/
structure Represents (em : ExtendedMantissa) (x : ℚ) : Prop where
  lower : em.mantissa ≤ x
  upper : x < em.mantissa + 1
  roundBit : em.roundBit = true ↔ em.mantissa + 1 / 2 ≤ x
  stickyBit : em.stickyBit = true ↔ x ≠ em.mantissa ∧ x ≠ em.mantissa + 1 / 2

theorem Represents.floor {em : ExtendedMantissa} {x : ℚ} (rep : Represents em x) :
    ⌊x⌋₊ = em.mantissa :=
  (Nat.floor_eq_iff ((Nat.cast_nonneg _).trans rep.lower)).mpr ⟨rep.lower, rep.upper⟩

theorem Represents.rounded {em : ExtendedMantissa} {x : ℚ} (rep : Represents em x) :
    em.roundedMantissa = nearest x := by
  have high := rep.roundBit
  have inside := rep.stickyBit
  obtain ⟨m, roundBit, stickyBit⟩ := em
  rw [nearest, rep.floor]
  simp only at high inside ⊢
  cases roundBit with
  | false =>
      have low : x < m + 1 / 2 := by simpa using high
      rw [if_pos low]
      cases stickyBit <;> rfl
  | true =>
      have notLow : ¬ x < m + 1 / 2 := not_lt.mpr (by simpa using high)
      rw [if_neg notLow]
      cases stickyBit with
      | false =>
          have tie : ¬ (m : ℚ) + 1 / 2 < x := by
            intro above
            have : x ≠ m := by linarith
            simp only [Bool.false_eq_true, false_iff, not_and_or, not_not, this, false_or]
              at inside
            linarith
          rw [if_neg tie]
          rfl
      | true =>
          have above : (m : ℚ) + 1 / 2 < x :=
            lt_of_le_of_ne (not_lt.mp notLow) (Ne.symm (inside.mp rfl).2)
          rw [if_pos above]
          rfl

theorem Represents.shiftRightOne {em : ExtendedMantissa} {x : ℚ} (rep : Represents em x) :
    Represents em.shiftRightOne (x / 2) := by
  obtain ⟨m, roundBit, stickyBit⟩ := em
  obtain ⟨lower, upper, high, inside⟩ := rep
  simp only at lower upper high inside
  have parts : (m : ℚ) = 2 * (m / 2 : ℕ) + (m % 2 : ℕ) := by
    exact_mod_cast (Nat.div_add_mod m 2).symm
  rcases Nat.mod_two_eq_zero_or_one m with even | odd
  · rw [even, Nat.cast_zero, add_zero] at parts
    refine ⟨?_, ?_, ?_, ?_⟩
    · simp only [ExtendedMantissa.shiftRightOne]
      linarith
    · simp only [ExtendedMantissa.shiftRightOne]
      linarith
    · simp only [ExtendedMantissa.shiftRightOne, even, bne_self_eq_false, Bool.false_eq_true,
        false_iff, not_le]
      linarith
    · simp only [ExtendedMantissa.shiftRightOne, Bool.or_eq_true, high, inside]
      constructor
      · rintro (half | ⟨notLow, notHalf⟩)
        · constructor <;> intro same <;> linarith
        · constructor
          · intro same
            exact notLow (by linarith)
          · intro same
            linarith
      · rintro ⟨notLow, -⟩
        by_cases half : (m : ℚ) + 1 / 2 ≤ x
        · exact Or.inl half
        · refine Or.inr ⟨?_, ?_⟩
          · intro same
            exact notLow (by linarith)
          · intro same
            exact half same.ge
  · rw [odd, Nat.cast_one] at parts
    refine ⟨?_, ?_, ?_, ?_⟩
    · simp only [ExtendedMantissa.shiftRightOne]
      linarith
    · simp only [ExtendedMantissa.shiftRightOne]
      linarith
    · simp only [ExtendedMantissa.shiftRightOne, odd, bne_iff_ne, ne_eq, one_ne_zero,
        not_false_eq_true, true_iff]
      linarith
    · simp only [ExtendedMantissa.shiftRightOne, Bool.or_eq_true, high, inside]
      constructor
      · rintro (half | ⟨notLow, notHalf⟩)
        · constructor <;> intro same <;> linarith
        · constructor
          · intro same
            linarith
          · intro same
            exact notLow (by linarith)
      · rintro ⟨-, notHalf⟩
        by_cases half : (m : ℚ) + 1 / 2 ≤ x
        · exact Or.inl half
        · refine Or.inr ⟨?_, ?_⟩
          · intro same
            exact notHalf (by linarith)
          · intro same
            exact half same.ge

theorem Represents.shiftRight {em : ExtendedMantissa} {x : ℚ} (rep : Represents em x) (k : ℕ) :
    Represents (em >>> k) (x / 2 ^ k) := by
  induction k with
  | zero =>
      rw [pow_zero, div_one]
      exact rep
  | succ k ih =>
      rw [pow_succ, ← div_div]
      exact ih.shiftRightOne

theorem represents_exact (m : ℕ) :
    Represents (ExtendedMantissa.ofMantissaAndAccuracy m .exact) m := by
  refine ⟨le_rfl, ?_, ?_, ?_⟩ <;> simp [ExtendedMantissa.ofMantissaAndAccuracy]

theorem represents_quotient (a : ℕ) {b : ℕ} (positive : 0 < b) :
    Represents (ExtendedMantissa.ofMantissaAndAccuracy (a / b) (accuracyOfFraction (a % b) b))
      (a / b : ℚ) := by
  have pb : (0 : ℚ) < b := by exact_mod_cast positive
  have parts : (a : ℚ) = b * (a / b : ℕ) + (a % b : ℕ) := by
    exact_mod_cast (Nat.div_add_mod a b).symm
  have value : (a / b : ℚ) = (a / b : ℕ) + (a % b : ℕ) / b := by
    rw [div_eq_iff pb.ne', add_mul, div_mul_cancel₀ _ pb.ne']
    linarith
  have small : ((a % b : ℕ) : ℚ) < b := by exact_mod_cast Nat.mod_lt a positive
  have nonneg : (0 : ℚ) ≤ (a % b : ℕ) := Nat.cast_nonneg _
  rw [value]
  generalize a / b = q
  generalize a % b = r at small nonneg
  have fraction : (r : ℚ) / b < 1 := (div_lt_one pb).mpr small
  have fractionNonneg : 0 ≤ (r : ℚ) / b := div_nonneg nonneg pb.le
  have half : ∀ s : ℚ, (r : ℚ) / b = s ↔ (r : ℚ) = s * b := fun s => div_eq_iff pb.ne'
  by_cases zero : r = 0
  · subst zero
    simpa [accuracyOfFraction] using represents_exact q
  · have nonzero : (r : ℚ) / b ≠ 0 := by
      rw [Ne, half, zero_mul]
      exact_mod_cast zero
    rw [accuracyOfFraction, if_neg zero]
    rcases lt_trichotomy (2 * r) b with below | tie | above
    · have below' : (r : ℚ) / b < 1 / 2 := by
        rw [div_lt_iff₀ pb]
        have : (2 : ℚ) * r < b := by exact_mod_cast below
        linarith
      rw [Nat.compare_eq_lt.mpr below]
      refine ⟨?_, ?_, ?_, ?_⟩ <;> simp only [ExtendedMantissa.ofMantissaAndAccuracy]
      · linarith
      · linarith
      · simp only [Bool.false_eq_true, false_iff, not_le]
        linarith
      · simp only [true_iff]
        exact ⟨fun same => nonzero (by linarith), fun same => by linarith⟩
    · have tie' : (r : ℚ) / b = 1 / 2 := by
        rw [half]
        have : (2 : ℚ) * r = b := by exact_mod_cast tie
        linarith
      rw [Nat.compare_eq_eq.mpr tie, tie']
      refine ⟨?_, ?_, ?_, ?_⟩ <;> simp only [ExtendedMantissa.ofMantissaAndAccuracy]
      · linarith
      · linarith
      · simp
      · simp
    · have above' : 1 / 2 < (r : ℚ) / b := by
        rw [lt_div_iff₀ pb]
        have : (b : ℚ) < 2 * r := by exact_mod_cast above
        linarith
      rw [Nat.compare_eq_gt.mpr above]
      refine ⟨?_, ?_, ?_, ?_⟩ <;> simp only [ExtendedMantissa.ofMantissaAndAccuracy]
      · linarith
      · linarith
      · simp only [true_iff]
        linarith
      · simp only [true_iff]
        exact ⟨fun same => nonzero (by linarith), fun same => by linarith⟩

/-! ## Normal numbers -/

structure Normal (m : ℕ) (e : ℤ) : Prop where
  lower : 2 ^ 52 ≤ m
  upper : m < 2 ^ 53
  min : -1022 ≤ e
  max : e ≤ 970

theorem Normal.log2 {m : ℕ} {e : ℤ} (normal : Normal m e) : m.log2 = 52 :=
  (Nat.log2_eq_iff (by have := normal.lower; omega)).mpr ⟨normal.lower, normal.upper⟩

@[simp] theorem unpackSign_packComponents {spec : Format} {sign exponent mantissa} :
    unpackSign (packComponents spec sign exponent mantissa) = sign.toBitVec := by
  ext i hi
  obtain rfl : i = 0 := by omega
  simp [unpackSign, packComponents, BitVec.getLsbD_append, BitVec.getElem_append]

theorem Sign.ofBitVec_toBitVec (s : Sign) : Sign.ofBitVec s.toBitVec = s := by
  cases s <;> rfl

theorem unpack_pack {m : ℕ} {e : ℤ} (normal : Normal m e) (s : Sign) (positive : 0 < m) :
    (Float.Model.pack (.finite s m e positive)).unpack = .finite s m e positive := by
  have log := normal.log2
  obtain ⟨lower, upper, min, max⟩ := normal
  have inside : ¬ 2 ^ 11 ≤ (e + (1023 : ℕ) + (52 : ℕ)).toNat + 1 := by omega
  unfold Float.Model.unpack Float.Model.pack UnpackedFloat.pack
  simp only [Format.exponentBias, Format.mantissaBits, log,
    show (2 ^ (11 - 1) - 1 : ℕ) = 1023 from rfl]
  rw [if_neg inside, if_pos (by decide)]
  have exponent : (BitVec.ofNat 11 (e + (1023 : ℕ) + (52 : ℕ)).toNat).toNat =
      (e + (1023 : ℕ) + (52 : ℕ)).toNat := by
    rw [BitVec.toNat_ofNat, Nat.mod_eq_of_lt (by omega)]
  have notOnes : BitVec.ofNat 11 (e + (1023 : ℕ) + (52 : ℕ)).toNat ≠ -1#11 := by
    intro same
    have value := congrArg BitVec.toNat same
    rw [exponent, show (-1#11).toNat = 2047 from rfl] at value
    omega
  have notZero : BitVec.ofNat 11 (e + (1023 : ℕ) + (52 : ℕ)).toNat ≠ 0#11 := by
    intro same
    have value := congrArg BitVec.toNat same
    rw [exponent, show (0#11).toNat = 0 from rfl] at value
    omega
  simp only [UnpackedFloat.unpack, unpackExponent_packComponents, unpackMantissa_packComponents,
    unpackSign_packComponents, Sign.ofBitVec_toBitVec, notOnes, notZero, if_false, exponent]
  have mantissa : (1#1 ++ BitVec.ofNat 52 m).toNat = m := by
    have rest : m % 2 ^ 52 < 2 ^ 52 := Nat.mod_lt _ (by norm_num)
    rw [BitVec.toNat_append, BitVec.toNat_ofNat, BitVec.toNat_ofNat,
      ← Nat.shiftLeft_add_eq_or_of_lt rest, Nat.shiftLeft_eq]
    omega
  have exponent' : ((e + (1023 : ℕ) + (52 : ℕ)).toNat : ℤ) -
      (Format.binary64.exponentBias + (52 : ℕ)) = e := by
    rw [show Format.binary64.exponentBias = 1023 from rfl]
    omega
  simp only [mantissa, exponent']
/-! ## Rounding in the model -/

theorem shiftToTargetExponent_eq {m : ℕ} {e : ℤ} (bits : 2 ^ 52 ≤ m) (min : -1022 ≤ e)
    (accuracy : Accuracy) :
    shiftToTargetExponent Format.binary64 m e accuracy =
      (ExtendedMantissa.ofMantissaAndAccuracy m accuracy >>> (m.log2 - 52),
        e + (m.log2 - 52 : ℕ)) := by
  have long : 52 ≤ m.log2 := (Nat.le_log2 (by omega)).mpr bits
  have target : Format.binary64.targetExponent (totalExponent m e) = e + (m.log2 - 52 : ℕ) := by
    simp only [Format.targetExponent, totalExponent, Format.mantissaBits, Format.minExponent]
    norm_num
    omega
  simp only [shiftToTargetExponent, shiftToExponent, target, add_sub_cancel_left, Int.toNat_natCast]

theorem scale_mul_zpow {m : ℕ} {x : ℚ} (bits : 2 ^ 52 ≤ m) (lower : (m : ℚ) ≤ x)
    (upper : x < m + 1) (e : ℤ) : scale (x * 2 ^ e) = e + (m.log2 - 52 : ℕ) := by
  have long : 52 ≤ m.log2 := (Nat.le_log2 (by omega)).mpr bits
  have below : (2 : ℚ) ^ m.log2 ≤ m := by exact_mod_cast Nat.log2_self_le (by omega)
  have above : (m : ℚ) + 1 ≤ 2 ^ (m.log2 + 1) := by exact_mod_cast Nat.lt_log2_self
  have pe := two_zpow_pos e
  have split : (2 : ℚ) ^ (e + (m.log2 - 52 : ℕ)) = 2 ^ (m.log2 - 52) * 2 ^ e := by
    rw [zpow_add₀ (by norm_num), zpow_natCast, mul_comm]
  apply scale_unique
  · calc (2 : ℚ) ^ 52 * 2 ^ (e + (m.log2 - 52 : ℕ)) = 2 ^ m.log2 * 2 ^ e := by
          rw [split, ← mul_assoc, ← pow_add, Nat.add_sub_cancel' long]
      _ ≤ x * 2 ^ e := mul_le_mul_of_nonneg_right (below.trans lower) pe.le
  · calc x * 2 ^ e < 2 ^ (m.log2 + 1) * 2 ^ e :=
          mul_lt_mul_of_pos_right (upper.trans_le above) pe
      _ = 2 ^ 53 * 2 ^ (e + (m.log2 - 52 : ℕ)) := by
          rw [split, ← mul_assoc, ← pow_add]
          congr 2
          omega

def InRange (x : ℚ) : Prop := -1022 ≤ scale x ∧ scale x ≤ 969

def RoundsTo (f : UnpackedFloat) (s : Sign) (x : ℚ) : Prop :=
  ∃ m e positive, f = .finite s m e positive ∧ Normal m e ∧ (m : ℚ) * 2 ^ e = x

theorem roundWithAccuracy_finite {m : ℕ} {e e₁ e₂ : ℤ} {accuracy : Accuracy}
    {em₁ em₂ : ExtendedMantissa} (s : Sign)
    (first : shiftToTargetExponent Format.binary64 m e accuracy = (em₁, e₁))
    (second : shiftToTargetExponent Format.binary64 em₁.roundedMantissa e₁ .exact = (em₂, e₂))
    (positive : 0 < em₂.mantissa) :
    roundWithAccuracy Format.binary64 s m e accuracy = .finite s em₂.mantissa e₂ positive := by
  simp only [roundWithAccuracy, first, second]
  rw [dif_neg positive.ne']

theorem carry_normal {r : ℕ} {e : ℤ} (least : 2 ^ 52 ≤ r) (greatest : r ≤ 2 ^ 53)
    (min : -1022 ≤ e) (max : e ≤ 969) :
    let em := ExtendedMantissa.ofMantissaAndAccuracy r .exact >>> (r.log2 - 52)
    Normal em.mantissa (e + (r.log2 - 52 : ℕ)) ∧
      (em.mantissa : ℚ) * 2 ^ (e + (r.log2 - 52 : ℕ)) = r * 2 ^ e := by
  rcases greatest.lt_or_eq with below | rfl
  · have log : r.log2 = 52 := (Nat.log2_eq_iff (by omega)).mpr ⟨least, below⟩
    rw [log]
    rw [Nat.sub_self, Nat.cast_zero, add_zero]
    exact ⟨⟨least, below, min, by omega⟩, rfl⟩
  · rw [Nat.log2_two_pow]
    have half : (ExtendedMantissa.ofMantissaAndAccuracy (2 ^ 53) .exact >>> (53 - 52)).mantissa =
        2 ^ 52 := rfl
    simp only [half]
    refine ⟨⟨by norm_num, by norm_num, by push_cast; omega, by push_cast; omega⟩, ?_⟩
    rw [zpow_add₀ (by norm_num)]
    push_cast
    ring

theorem roundWithAccuracy_roundsTo {m : ℕ} {e : ℤ} {x : ℚ} {accuracy : Accuracy} (s : Sign)
    (bits : 2 ^ 52 ≤ m) (min : -1022 ≤ e)
    (rep : Represents (ExtendedMantissa.ofMantissaAndAccuracy m accuracy) x)
    (range : InRange (x * 2 ^ e)) :
    RoundsTo (roundWithAccuracy Format.binary64 s m e accuracy) s (rounded (x * 2 ^ e)) := by
  have same : (ExtendedMantissa.ofMantissaAndAccuracy m accuracy).mantissa = m := by
    unfold ExtendedMantissa.ofMantissaAndAccuracy
    split <;> rfl
  have lower := rep.lower
  have upper := rep.upper
  rw [same] at lower upper
  have scaleEq := scale_mul_zpow bits lower upper e
  have positive : 0 < x * 2 ^ e := by
    have : (0 : ℚ) < m := by exact_mod_cast (by omega : 0 < m)
    exact mul_pos (this.trans_le lower) (two_zpow_pos e)
  have mantissa : (ExtendedMantissa.ofMantissaAndAccuracy m accuracy >>>
      (m.log2 - 52)).roundedMantissa = nearest (scaled (x * 2 ^ e)) := by
    rw [(rep.shiftRight _).rounded, scaled, scaleEq, zpow_add₀ (by norm_num), zpow_natCast,
      mul_comm x, mul_div_mul_left _ _ (two_zpow_pos e).ne']
  obtain ⟨least, greatest⟩ := nearest_scaled_bounds positive
  have first := shiftToTargetExponent_eq bits min accuracy
  rw [← scaleEq] at first
  have second := shiftToTargetExponent_eq least range.1 .exact
  rw [← mantissa] at second least greatest
  obtain ⟨normal, value⟩ := carry_normal least greatest range.1 range.2
  refine ⟨_, _, by have := normal.lower; omega, roundWithAccuracy_finite s first second _,
    normal, ?_⟩
  rw [value, mantissa, rounded]

theorem round_roundsTo {m : ℕ} {e : ℤ} (s : Sign) (positive : 0 < m) (min : -970 ≤ e)
    (range : InRange (m * 2 ^ e)) :
    RoundsTo (UnpackedFloat.round Format.binary64 s m e) s (rounded (m * 2 ^ e)) := by
  have nonzero : m ≠ 0 := positive.ne'
  have target : (e - Format.binary64.targetExponent (totalExponent m e)).toNat = 52 - m.log2 := by
    simp only [Format.targetExponent, totalExponent, Format.mantissaBits, Format.minExponent]
    norm_num
    omega
  have value : ((m <<< (52 - m.log2) : ℕ) : ℚ) * 2 ^ (e - (52 - m.log2 : ℕ)) = m * 2 ^ e := by
    rw [Nat.shiftLeft_eq, zpow_sub₀ (by norm_num), zpow_natCast]
    push_cast
    field_simp
  have bits : 2 ^ 52 ≤ m <<< (52 - m.log2) := by
    rw [Nat.shiftLeft_eq]
    calc 2 ^ 52 ≤ 2 ^ (m.log2 + (52 - m.log2)) := Nat.pow_le_pow_right (by norm_num) (by omega)
      _ = 2 ^ m.log2 * 2 ^ (52 - m.log2) := pow_add _ _ _
      _ ≤ m * 2 ^ (52 - m.log2) := Nat.mul_le_mul_right _ (Nat.log2_self_le nonzero)
  have done := roundWithAccuracy_roundsTo s bits (e := e - (52 - m.log2 : ℕ)) (by omega)
    (represents_exact _) (by rwa [value])
  rw [value] at done
  simpa only [UnpackedFloat.round, decreaseExponent, target] using done

/-! ## Arithmetic on floats -/

def Is (f : Float) (x : ℚ) : Prop := RoundsTo f.toModel.unpack .positive x

theorem RoundsTo.pack {f : UnpackedFloat} {s : Sign} {x : ℚ} (rounds : RoundsTo f s x) :
    RoundsTo (Float.Model.pack f).unpack s x := by
  obtain ⟨m, e, positive, rfl, normal, value⟩ := rounds
  exact ⟨m, e, positive, unpack_pack normal s positive, normal, value⟩

theorem Is.pos {f : Float} {x : ℚ} (is : Is f x) : 0 < x := by
  obtain ⟨m, e, positive, -, -, rfl⟩ := is
  exact mul_pos (by exact_mod_cast positive) (two_zpow_pos e)

def Moderate (x : ℚ) : Prop := 2 ^ (-200 : ℤ) ≤ x ∧ x < 2 ^ (200 : ℤ)

theorem Moderate.inRange {x : ℚ} (moderate : Moderate x) : InRange x := by
  obtain ⟨lower, upper⟩ := moderate
  have positive : 0 < x := (two_zpow_pos _).trans_le lower
  have below : -200 ≤ Int.log 2 x :=
    (Int.zpow_le_iff_le_log (by norm_num) positive).mp (by push_cast; exact lower)
  have above : Int.log 2 x < 200 :=
    (Int.lt_zpow_iff_log_lt (by norm_num) positive).mp (by push_cast; exact upper)
  unfold InRange scale
  omega

theorem exponent_bound {m : ℕ} {e : ℤ} (normal : Normal m e) {a : ℤ}
    (lower : 2 ^ a ≤ (m : ℚ) * 2 ^ e) : a - 53 < e := by
  have upper : (m : ℚ) < 2 ^ (53 : ℤ) := by exact_mod_cast normal.upper
  have strict : (2 : ℚ) ^ a < 2 ^ (53 + e) := by
    rw [zpow_add₀ (by norm_num)]
    exact lower.trans_lt (mul_lt_mul_of_pos_right upper (two_zpow_pos e))
  have := (zpow_lt_zpow_iff_right₀ (by norm_num)).mp strict
  omega

theorem moderate_toNat {n : UInt64} (positive : 0 < n.toNat) : Moderate n.toNat := by
  constructor
  · calc (2 : ℚ) ^ (-200 : ℤ) ≤ 1 := zpow_le_one_of_nonpos₀ (by norm_num) (by norm_num)
      _ ≤ n.toNat := by exact_mod_cast positive
  · calc (n.toNat : ℚ) < 2 ^ (64 : ℤ) := by exact_mod_cast n.toNat_lt
      _ ≤ 2 ^ (200 : ℤ) := zpow_le_zpow_right₀ (by norm_num) (by norm_num)

theorem toFloat_is {n : UInt64} (positive : 0 < n.toNat) : Is n.toFloat (rounded n.toNat) := by
  have range : InRange ((n.toNat : ℚ) * 2 ^ (0 : ℤ)) := by
    rw [zpow_zero, mul_one]
    exact (moderate_toNat positive).inRange
  have sign : compare (n.toNat : ℤ) 0 = .gt := Int.compare_eq_gt.mpr (by exact_mod_cast positive)
  have done := (round_roundsTo .positive positive (by norm_num) range).pack
  rw [zpow_zero, mul_one] at done
  simpa only [Is, UInt64.toFloat, Float.Model.ofUInt64, UnpackedFloat.ofUInt64,
    UnpackedFloat.ofNat, UnpackedFloat.ofInt, UnpackedFloat.normalize, sign,
    Int.toNat_natCast] using done

theorem sub_unpack (a b : Float) : (a - b).toModel.unpack =
    (Float.Model.pack (UnpackedFloat.sub Format.binary64 a.toModel.unpack
      b.toModel.unpack)).unpack := rfl

theorem div_unpack (a b : Float) : (a / b).toModel.unpack =
    (Float.Model.pack (UnpackedFloat.div Format.binary64 a.toModel.unpack
      b.toModel.unpack)).unpack := rfl

theorem shiftLeft_mul_zpow (m : ℕ) {e k : ℤ} (le : k ≤ e) :
    ((m <<< (e - k).toNat : ℕ) : ℚ) * 2 ^ k = m * 2 ^ e := by
  have split : e = ((e - k).toNat : ℤ) + k := by omega
  rw [Nat.shiftLeft_eq]
  conv_rhs => rw [split, zpow_add₀ (by norm_num), zpow_natCast]
  push_cast
  ring

theorem sub_finite {m₁ m₂ : ℕ} {e₁ e₂ : ℤ} (p₁ : 0 < m₁) (p₂ : 0 < m₂) :
    ∃ d : ℤ, UnpackedFloat.sub Format.binary64 (.finite .positive m₁ e₁ p₁)
        (.finite .positive m₂ e₂ p₂) =
          UnpackedFloat.normalize Format.binary64 d (min e₁ e₂) .positive ∧
      (d : ℚ) * 2 ^ min e₁ e₂ = m₁ * 2 ^ e₁ - m₂ * 2 ^ e₂ := by
  refine ⟨_, rfl, ?_⟩
  simp only [Sign.apply, Int.cast_sub, Int.cast_natCast]
  rw [sub_mul, shiftLeft_mul_zpow m₁ (min_le_left e₁ e₂),
    shiftLeft_mul_zpow m₂ (min_le_right e₁ e₂)]

theorem sub_is {a b : Float} {x y : ℚ} (ha : Is a x) (hb : Is b y) (lt : y < x)
    (large : 2 ^ (-200 : ℤ) ≤ y) (moderate : Moderate (x - y)) :
    Is (a - b) (rounded (x - y)) := by
  obtain ⟨m₁, e₁, p₁, unpack₁, normal₁, rfl⟩ := ha
  obtain ⟨m₂, e₂, p₂, unpack₂, normal₂, rfl⟩ := hb
  have bound₁ := exponent_bound normal₁ (large.trans lt.le)
  have bound₂ := exponent_bound normal₂ large
  obtain ⟨d, done, value⟩ := @sub_finite m₁ m₂ e₁ e₂ p₁ p₂
  have positive : 0 < d := by
    have : (0 : ℚ) < d * 2 ^ min e₁ e₂ := by rw [value]; linarith
    exact_mod_cast (pos_iff_pos_of_mul_pos this).mpr (two_zpow_pos _)
  have sign : compare d 0 = .gt := Int.compare_eq_gt.mpr positive
  have whole : ((d.toNat : ℕ) : ℚ) = d := by exact_mod_cast Int.toNat_of_nonneg positive.le
  unfold Is
  rw [sub_unpack, unpack₁, unpack₂, done, ← value, ← whole]
  simp only [UnpackedFloat.normalize, sign]
  have small : InRange ((d.toNat : ℚ) * 2 ^ min e₁ e₂) := by
    rw [whole, value]
    exact moderate.inRange
  exact (round_roundsTo .positive (by omega) (by omega) small).pack

theorem zero_unpack : (Float.Model.pack (.zero .positive)).unpack = .zero .positive := by
  rfl

theorem sub_self_unpack {a b : Float} {x : ℚ} (ha : Is a x) (hb : Is b x) :
    (a - b).toModel.unpack = .zero .positive := by
  obtain ⟨m₁, e₁, p₁, unpack₁, normal₁, value₁⟩ := ha
  obtain ⟨m₂, e₂, p₂, unpack₂, normal₂, value₂⟩ := hb
  obtain ⟨d, done, value⟩ := @sub_finite m₁ m₂ e₁ e₂ p₁ p₂
  have zero : d = 0 := by
    rw [value₁, value₂, sub_self] at value
    exact_mod_cast (mul_eq_zero.mp value).resolve_right (two_zpow_pos _).ne'
  rw [sub_unpack, unpack₁, unpack₂, done, zero]
  exact zero_unpack

theorem div_is {a b : Float} {x y : ℚ} (ha : Is a x) (hb : Is b y) (moderate : Moderate (x / y)) :
    Is (a / b) (rounded (x / y)) := by
  obtain ⟨m₁, e₁, p₁, unpack₁, normal₁, rfl⟩ := ha
  obtain ⟨m₂, e₂, p₂, unpack₂, normal₂, rfl⟩ := hb
  have p₂' : (0 : ℚ) < m₂ := by exact_mod_cast p₂
  -- The dividend is shifted by 53 bits, so that the quotient has at least 53.
  have bits : 2 ^ 52 ≤ (m₁ <<< 53) / m₂ := by
    rw [Nat.le_div_iff_mul_le p₂, Nat.shiftLeft_eq]
    calc 2 ^ 52 * m₂ ≤ 2 ^ 52 * 2 ^ 53 := Nat.mul_le_mul_left _ normal₂.upper.le
      _ ≤ m₁ * 2 ^ 53 := Nat.mul_le_mul_right _ normal₁.lower
  have value : (((m₁ <<< 53 : ℕ) : ℚ) / m₂) * 2 ^ (e₁ - e₂ - 53) =
      m₁ * 2 ^ e₁ / (m₂ * 2 ^ e₂) := by
    rw [Nat.shiftLeft_eq, zpow_sub₀ (by norm_num), zpow_sub₀ (by norm_num)]
    have := two_zpow_pos e₂
    push_cast
    field_simp
  have exponent : -1022 ≤ e₁ - e₂ - 53 := by
    have top : (m₁ : ℚ) < 2 ^ (53 : ℤ) := by exact_mod_cast normal₁.upper
    have bottom : (2 : ℚ) ^ (52 : ℤ) ≤ m₂ := by exact_mod_cast normal₂.lower
    have strict : (2 : ℚ) ^ (-200 + (52 + e₂)) < 2 ^ (53 + e₁) := by
      rw [zpow_add₀ (by norm_num) (-200), zpow_add₀ (by norm_num) 52, zpow_add₀ (by norm_num) 53]
      calc (2 : ℚ) ^ (-200 : ℤ) * (2 ^ (52 : ℤ) * 2 ^ e₂) ≤ 2 ^ (-200 : ℤ) * (m₂ * 2 ^ e₂) :=
            mul_le_mul_of_nonneg_left (mul_le_mul_of_nonneg_right bottom (two_zpow_pos e₂).le)
              (two_zpow_pos _).le
        _ ≤ m₁ * 2 ^ e₁ := (le_div_iff₀ (mul_pos p₂' (two_zpow_pos e₂))).mp moderate.1
        _ < 2 ^ (53 : ℤ) * 2 ^ e₁ := mul_lt_mul_of_pos_right top (two_zpow_pos e₁)
    have := (zpow_lt_zpow_iff_right₀ (by norm_num)).mp strict
    omega
  have core : divCore Format.binary64 m₁ e₁ m₂ e₂ =
      ((m₁ <<< 53) / m₂, e₁ - e₂ - 53, accuracyOfFraction ((m₁ <<< 53) % m₂) m₂) := by
    have target : min (e₁ - e₂) (Format.binary64.targetExponent
        (totalExponent m₁ e₁ - totalExponent m₂ e₂)) = e₁ - e₂ - 53 := by
      simp only [Format.targetExponent, totalExponent, Format.mantissaBits, Format.minExponent,
        normal₁.log2, normal₂.log2]
      norm_num
      omega
    have shift : (e₁ - e₂ - (e₁ - e₂ - 53)).toNat = 53 := by omega
    simp only [divCore, target, shift]
  have done := (roundWithAccuracy_roundsTo .positive bits exponent
    (represents_quotient _ p₂) (by rw [value]; exact moderate.inRange)).pack
  rw [value] at done
  unfold Is
  rw [div_unpack, unpack₁, unpack₂]
  simp only [UnpackedFloat.div, core]
  exact done

/-! ## Comparison -/

theorem normal_le_iff {m₁ m₂ : ℕ} {e₁ e₂ : ℤ} (normal₁ : Normal m₁ e₁) (normal₂ : Normal m₂ e₂) :
    ((compare e₁ e₂).then (compare m₁ m₂)).isLE ↔ (m₁ : ℚ) * 2 ^ e₁ ≤ m₂ * 2 ^ e₂ := by
  have apart : ∀ {m m' : ℕ} {e e' : ℤ}, Normal m e → Normal m' e' → e < e' →
      (m : ℚ) * 2 ^ e < m' * 2 ^ e' := by
    intro m m' e e' normal normal' lt
    have top : (m : ℚ) < 2 ^ 53 := by exact_mod_cast normal.upper
    have bottom : (2 : ℚ) ^ 52 ≤ m' := by exact_mod_cast normal'.lower
    have step : (2 : ℚ) ^ (e + 1) ≤ 2 ^ e' := zpow_le_zpow_right₀ (by norm_num) (by omega)
    rw [zpow_add_one₀ (by norm_num)] at step
    have pe := two_zpow_pos e
    nlinarith
  rcases lt_trichotomy e₁ e₂ with below | rfl | above
  · rw [compare_lt_iff_lt.mpr below]
    simpa using (apart normal₁ normal₂ below).le
  · rw [compare_eq_iff_eq.mpr rfl]
    rw [mul_le_mul_iff_left₀ (two_zpow_pos e₁)]
    simp [Nat.isLE_compare]
  · rw [compare_gt_iff_gt.mpr above]
    simpa using apart normal₂ normal₁ above

inductive Measures (f : Float) : WithTop ℚ → Prop
  | infinite (unpack : f.toModel.unpack = .infinity .positive) : Measures f ⊤
  | zero (unpack : f.toModel.unpack = .zero .positive) : Measures f 0
  | normal {x : ℚ} (is : Is f x) : Measures f x

theorem le_iff_isLE (a b : Float) :
    a ≤ b ↔ (a.toModel.unpack.compare b.toModel.unpack).any (·.isLE) = true :=
  decide_eq_true_iff

theorem Measures.le_iff {a b : Float} {v w : WithTop ℚ} (ha : Measures a v) (hb : Measures b w) :
    a ≤ b ↔ v ≤ w := by
  rw [le_iff_isLE]
  cases ha with
  | infinite unpack₁ =>
      rw [unpack₁]
      cases hb with
      | infinite unpack₂ => simp [unpack₂, UnpackedFloat.compare]; rfl
      | zero unpack₂ => simp [unpack₂, UnpackedFloat.compare]
      | normal is =>
          obtain ⟨m, e, p, unpack₂, -⟩ := is
          simp [unpack₂, UnpackedFloat.compare]
  | zero unpack₁ =>
      rw [unpack₁]
      cases hb with
      | infinite unpack₂ => simp [unpack₂, UnpackedFloat.compare]
      | zero unpack₂ => simp [unpack₂, UnpackedFloat.compare]
      | normal is =>
          have := is.pos
          obtain ⟨m, e, p, unpack₂, -⟩ := is
          simp [unpack₂, UnpackedFloat.compare]
          exact_mod_cast this.le
  | normal is =>
      have := is.pos
      obtain ⟨m₁, e₁, p₁, unpack₁, normal₁, rfl⟩ := is
      rw [unpack₁]
      cases hb with
      | infinite unpack₂ => simp [unpack₂, UnpackedFloat.compare]
      | zero unpack₂ =>
          simp [unpack₂, UnpackedFloat.compare]
          exact_mod_cast this
      | normal is =>
          obtain ⟨m₂, e₂, p₂, unpack₂, normal₂, rfl⟩ := is
          rw [unpack₂, WithTop.coe_le_coe]
          simpa [UnpackedFloat.compare] using normal_le_iff normal₁ normal₂

theorem lt_iff_isLT (a b : Float) :
    a < b ↔ a.toModel.unpack.compare b.toModel.unpack = some .lt := by
  rw [← beq_iff_eq]
  exact decide_eq_true_iff

theorem normal_lt_iff {m₁ m₂ : ℕ} {e₁ e₂ : ℤ} (normal₁ : Normal m₁ e₁) (normal₂ : Normal m₂ e₂) :
    (compare e₁ e₂).then (compare m₁ m₂) = .lt ↔ (m₁ : ℚ) * 2 ^ e₁ < m₂ * 2 ^ e₂ := by
  rw [← not_le, ← normal_le_iff normal₂ normal₁]
  have swapped : (compare e₂ e₁).then (compare m₂ m₁) =
      ((compare e₁ e₂).then (compare m₁ m₂)).swap := by
    rw [Ordering.swap_then, Int.compare_swap, Nat.compare_swap]
  rw [swapped]
  cases (compare e₁ e₂).then (compare m₁ m₂) <;> simp

theorem Measures.lt_iff {a b : Float} {v w : WithTop ℚ} (ha : Measures a v) (hb : Measures b w) :
    a < b ↔ v < w := by
  rw [lt_iff_isLT]
  cases ha with
  | infinite unpack₁ =>
      rw [unpack₁]
      cases hb with
      | infinite unpack₂ => simp [unpack₂, UnpackedFloat.compare]
      | zero unpack₂ => simp [unpack₂, UnpackedFloat.compare]
      | normal is =>
          obtain ⟨m, e, p, unpack₂, -⟩ := is
          simp [unpack₂, UnpackedFloat.compare]
  | zero unpack₁ =>
      rw [unpack₁]
      cases hb with
      | infinite unpack₂ => simp [unpack₂, UnpackedFloat.compare]
      | zero unpack₂ => simp [unpack₂, UnpackedFloat.compare]
      | normal is =>
          have := is.pos
          obtain ⟨m, e, p, unpack₂, -⟩ := is
          simp [unpack₂, UnpackedFloat.compare]
          exact_mod_cast this
  | normal is =>
      have := is.pos
      obtain ⟨m₁, e₁, p₁, unpack₁, normal₁, rfl⟩ := is
      rw [unpack₁]
      cases hb with
      | infinite unpack₂ =>
          simp [unpack₂, UnpackedFloat.compare]
          exact WithTop.coe_lt_top _
      | zero unpack₂ =>
          simp [unpack₂, UnpackedFloat.compare]
          exact_mod_cast this.le
      | normal is =>
          obtain ⟨m₂, e₂, p₂, unpack₂, normal₂, rfl⟩ := is
          rw [unpack₂, WithTop.coe_lt_coe]
          simpa [UnpackedFloat.compare] using normal_lt_iff normal₁ normal₂

end Binary64
