import Mathlib.Algebra.Order.Floor.Semifield
import Mathlib.Data.Int.Log
import Mathlib.Data.Rat.Floor
import Mathlib.Tactic.FieldSimp
import Mathlib.Tactic.Linarith
import Mathlib.Tactic.Positivity
import Mathlib.Tactic.Ring

/-!
# Rounding to 53 significant bits

A positive rational is scaled into `[2 ^ 52, 2 ^ 53)`, rounded to the nearest integer with ties to
even, and scaled back. The result never decreases when the argument grows.
-/

namespace Rounding

/-- The nearest natural number, ties to even. -/
def nearest (x : ℚ) : ℕ :=
  if x < ⌊x⌋₊ + 1 / 2 then ⌊x⌋₊
  else if ⌊x⌋₊ + 1 / 2 < x then ⌊x⌋₊ + 1
  else ⌊x⌋₊ + ⌊x⌋₊ % 2

theorem floor_le_nearest (x : ℚ) : ⌊x⌋₊ ≤ nearest x := by
  unfold nearest
  split
  · exact le_rfl
  · split <;> omega

theorem nearest_le_floor_add_one (x : ℚ) : nearest x ≤ ⌊x⌋₊ + 1 := by
  unfold nearest
  split
  · omega
  · split <;> omega

theorem nearest_mono {x y : ℚ} (le : x ≤ y) : nearest x ≤ nearest y := by
  rcases (Nat.floor_mono le).lt_or_eq with below | same
  · calc
      nearest x ≤ ⌊x⌋₊ + 1 := nearest_le_floor_add_one x
      _ ≤ ⌊y⌋₊ := below
      _ ≤ nearest y := floor_le_nearest y
  · rw [nearest, same]
    by_cases lowX : x < ⌊y⌋₊ + 1 / 2
    · rw [if_pos lowX]
      exact floor_le_nearest y
    · have notLowY : ¬ y < ⌊y⌋₊ + 1 / 2 := fun low => lowX (le.trans_lt low)
      rw [if_neg lowX, nearest, if_neg notLowY]
      by_cases highX : ⌊y⌋₊ + 1 / 2 < x
      · rw [if_pos highX, if_pos (highX.trans_le le)]
      · rw [if_neg highX]
        split <;> omega

@[simp] theorem nearest_natCast (n : ℕ) : nearest n = n := by
  simp [nearest]

/-- The exponent of the last of 53 significant bits. -/
def scale (x : ℚ) : ℤ := Int.log 2 x - 52

def scaled (x : ℚ) : ℚ := x / 2 ^ scale x

def rounded (x : ℚ) : ℚ := nearest (scaled x) * 2 ^ scale x

theorem two_zpow_pos (k : ℤ) : (0 : ℚ) < 2 ^ k := zpow_pos (by norm_num) k

theorem scaled_mul (x : ℚ) : scaled x * 2 ^ scale x = x :=
  div_mul_cancel₀ x (two_zpow_pos _).ne'

theorem scaled_bounds {x : ℚ} (positive : 0 < x) : 2 ^ 52 ≤ scaled x ∧ scaled x < 2 ^ 53 := by
  have lower : (2 : ℚ) ^ Int.log 2 x ≤ x := Int.zpow_log_le_self (by norm_num) positive
  have upper : x < (2 : ℚ) ^ (Int.log 2 x + 1) := Int.lt_zpow_succ_log_self (by norm_num) x
  rw [scaled, le_div_iff₀ (two_zpow_pos _), div_lt_iff₀ (two_zpow_pos _)]
  constructor
  · calc (2 : ℚ) ^ 52 * 2 ^ scale x = 2 ^ Int.log 2 x := by
          rw [← zpow_natCast, ← zpow_add₀ (by norm_num), scale]
          congr 1
          push_cast
          ring
      _ ≤ x := lower
  · calc x < 2 ^ (Int.log 2 x + 1) := upper
      _ = 2 ^ 53 * 2 ^ scale x := by
          rw [← zpow_natCast (2 : ℚ) 53, ← zpow_add₀ (by norm_num), scale]
          congr 1
          push_cast
          ring

theorem scale_mono {x y : ℚ} (positive : 0 < x) (le : x ≤ y) : scale x ≤ scale y :=
  sub_le_sub_right (Int.log_mono_right positive le) 52

theorem scale_unique {x : ℚ} {k : ℤ} (lower : 2 ^ 52 * 2 ^ k ≤ x) (upper : x < 2 ^ 53 * 2 ^ k) :
    scale x = k := by
  have positive : 0 < x := (mul_pos (by norm_num) (two_zpow_pos k)).trans_le lower
  rw [← zpow_natCast (2 : ℚ) 52, ← zpow_add₀ (by norm_num)] at lower
  rw [← zpow_natCast (2 : ℚ) 53, ← zpow_add₀ (by norm_num)] at upper
  have below := (Int.zpow_le_iff_le_log (b := 2) (by norm_num) positive).mp lower
  have above := (Int.lt_zpow_iff_log_lt (b := 2) (by norm_num) positive).mp upper
  simp only [scale]
  push_cast at below above
  omega

theorem nearest_scaled_bounds {x : ℚ} (positive : 0 < x) :
    2 ^ 52 ≤ nearest (scaled x) ∧ nearest (scaled x) ≤ 2 ^ 53 := by
  obtain ⟨lower, upper⟩ := scaled_bounds positive
  constructor
  · have least := nearest_mono (show ((2 ^ 52 : ℕ) : ℚ) ≤ scaled x by exact_mod_cast lower)
    rwa [nearest_natCast] at least
  · have greatest := nearest_mono (show scaled x ≤ ((2 ^ 53 : ℕ) : ℚ) by exact_mod_cast upper.le)
    rwa [nearest_natCast] at greatest

theorem rounded_mono {x y : ℚ} (positive : 0 < x) (le : x ≤ y) : rounded x ≤ rounded y := by
  rcases (scale_mono positive le).lt_or_eq with below | same
  · -- A smaller scale leaves room for the whole range of mantissas.
    have top : (nearest (scaled x) : ℚ) ≤ 2 ^ 53 := by
      exact_mod_cast (nearest_scaled_bounds positive).2
    have bottom : (2 : ℚ) ^ 52 ≤ nearest (scaled y) := by
      exact_mod_cast (nearest_scaled_bounds (positive.trans_le le)).1
    have step : (2 : ℚ) ^ (scale x + 1) ≤ 2 ^ scale y :=
      zpow_le_zpow_right₀ (by norm_num) (by omega)
    rw [zpow_add_one₀ (by norm_num)] at step
    have px := two_zpow_pos (scale x)
    have py := two_zpow_pos (scale y)
    unfold rounded
    nlinarith
  · unfold rounded
    rw [← same]
    refine mul_le_mul_of_nonneg_right ?_ (two_zpow_pos _).le
    have scaledLe : scaled x ≤ scaled y := by
      unfold scaled
      rw [← same]
      exact div_le_div_of_nonneg_right le (two_zpow_pos _).le
    exact_mod_cast nearest_mono scaledLe

theorem nearest_error {x : ℚ} (nonneg : 0 ≤ x) : |(nearest x : ℚ) - x| ≤ 1 / 2 := by
  have low := Nat.floor_le nonneg
  have high := Nat.lt_floor_add_one x
  rw [abs_le]
  unfold nearest
  split
  · constructor <;> linarith
  split
  · push_cast
    constructor <;> linarith
  · rcases Nat.mod_two_eq_zero_or_one ⌊x⌋₊ with even | odd
    · rw [even]
      push_cast
      constructor <;> linarith
    · rw [odd]
      push_cast
      constructor <;> linarith

theorem rounded_error {x : ℚ} (positive : 0 < x) : |rounded x - x| ≤ 2 ^ scale x / 2 := by
  have unit := two_zpow_pos (scale x)
  have error := nearest_error (div_pos positive unit).le
  have value : rounded x - x = (nearest (scaled x) - scaled x) * 2 ^ scale x := by
    rw [sub_mul, scaled_mul, rounded]
  rw [value, abs_mul, abs_of_pos unit]
  calc |(nearest (scaled x) : ℚ) - scaled x| * 2 ^ scale x ≤ 1 / 2 * 2 ^ scale x :=
        mul_le_mul_of_nonneg_right error unit.le
    _ = 2 ^ scale x / 2 := by ring

theorem rounded_lt {x y : ℚ} (positive : 0 < x) (apart : x + 2 ^ scale y < y) :
    rounded x < rounded y := by
  have unit := two_zpow_pos (scale y)
  have below : scale x ≤ scale y := scale_mono positive (by linarith)
  have step : (2 : ℚ) ^ scale x ≤ 2 ^ scale y := zpow_le_zpow_right₀ (by norm_num) below
  have errorX := (abs_le.mp (rounded_error positive)).2
  have errorY := (abs_le.mp (rounded_error (show 0 < y by linarith))).1
  linarith

theorem rounded_exact {n : ℕ} (positive : 0 < n) (small : n < 2 ^ 53) (k : ℤ) :
    rounded (n * 2 ^ k) = n * 2 ^ k := by
  have nonzero : n ≠ 0 := positive.ne'
  have short : n.log2 ≤ 52 := by
    have := (Nat.log2_lt nonzero).mpr small
    omega
  have lower : (2 : ℚ) ^ n.log2 ≤ n := by exact_mod_cast Nat.log2_self_le nonzero
  have upper : (n : ℚ) < 2 ^ (n.log2 + 1) := by exact_mod_cast Nat.lt_log2_self
  have pk := two_zpow_pos k
  have scaleEq : scale (n * 2 ^ k) = k - (52 - n.log2 : ℕ) := by
    have shifted : (2 : ℚ) ^ (k - (52 - n.log2 : ℕ)) * 2 ^ (52 - n.log2 : ℕ) = 2 ^ k := by
      rw [← zpow_natCast, ← zpow_add₀ (by norm_num), sub_add_cancel]
    have ps := two_zpow_pos (k - (52 - n.log2 : ℕ))
    apply scale_unique
    · calc (2 : ℚ) ^ 52 * 2 ^ (k - (52 - n.log2 : ℕ))
          = 2 ^ n.log2 * (2 ^ (k - (52 - n.log2 : ℕ)) * 2 ^ (52 - n.log2 : ℕ)) := by
            rw [mul_comm ((2 : ℚ) ^ (k - _)), ← mul_assoc, ← pow_add, Nat.add_sub_cancel' short]
        _ ≤ n * 2 ^ k := by
            rw [shifted]
            exact mul_le_mul_of_nonneg_right lower pk.le
    · calc (n : ℚ) * 2 ^ k < 2 ^ (n.log2 + 1) * 2 ^ k := mul_lt_mul_of_pos_right upper pk
        _ = 2 ^ 53 * 2 ^ (k - (52 - n.log2 : ℕ)) := by
            rw [← shifted, mul_comm ((2 : ℚ) ^ (k - _)), ← mul_assoc, ← pow_add]
            congr 2
            omega
  have whole : scaled (n * 2 ^ k) = ((n * 2 ^ (52 - n.log2) : ℕ) : ℚ) := by
    rw [scaled, scaleEq, zpow_sub₀ (by norm_num), zpow_natCast]
    push_cast
    field_simp
  conv_rhs => rw [← scaled_mul (n * 2 ^ k)]
  rw [rounded, whole, nearest_natCast]

theorem rounded_natCast {n : ℕ} (positive : 0 < n) (small : n < 2 ^ 53) : rounded n = n := by
  simpa using rounded_exact positive small 0

theorem rounded_two_pow (k : ℕ) : rounded (2 ^ k) = 2 ^ k := by
  simpa using rounded_exact one_pos (by norm_num) k

theorem rounded_natural {n : ℕ} (positive : 0 < n) : ∃ k : ℕ, rounded n = k := by
  rcases Nat.lt_or_ge n (2 ^ 53) with small | large
  · exact ⟨n, rounded_natCast positive small⟩
  · have : (2 : ℚ) ^ (53 : ℤ) ≤ n := by exact_mod_cast large
    have above : 53 ≤ Int.log 2 (n : ℚ) :=
      (Int.zpow_le_iff_le_log (by norm_num) (by exact_mod_cast positive)).mp
        (by push_cast; exact this)
    obtain ⟨k, shift⟩ : ∃ k : ℕ, scale n = k := ⟨(scale n).toNat, by unfold scale; omega⟩
    refine ⟨nearest (scaled n) * 2 ^ k, ?_⟩
    rw [rounded, shift]
    push_cast
    rw [zpow_natCast]

end Rounding
