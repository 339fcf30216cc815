import CausalWorks.Causal
import CausalWorks.Lib.Binary64
import Mathlib.Order.WithBot

/-!
# The sort key of the ranking

The overrun of a violated link is never a NaN, and for spans below `2 ^ 53` ns it is the correctly
rounded rational overrun.
-/

namespace CausalWorks
open Binary64 Rounding Float.Model Float.Model.UnpackedFloat

def exactOverrun (dt wcetNs : UInt64) : ℚ := (dt.toNat - wcetNs.toNat) / wcetNs.toNat

namespace Proof

theorem rounded_toNat_le (n : UInt64) (positive : 0 < n.toNat) : rounded n.toNat ≤ 2 ^ 64 := by
  rw [← rounded_two_pow 64]
  exact rounded_mono (by exact_mod_cast positive) (by exact_mod_cast n.toNat_lt.le)

theorem one_le_rounded {x : ℚ} (large : 1 ≤ x) : 1 ≤ rounded x := by
  have least := rounded_mono one_pos large
  rwa [← pow_zero (2 : ℚ), rounded_two_pow, pow_zero] at least

theorem moderate_of_bounds {x : ℚ} (lower : 1 ≤ x) (upper : x ≤ 2 ^ 64) : Moderate x := by
  constructor
  · exact (zpow_le_one_of_nonpos₀ (by norm_num) (by norm_num)).trans lower
  · calc x ≤ 2 ^ 64 := upper
      _ < 2 ^ (200 : ℤ) := by norm_num

theorem moderate_div {x y : ℚ} (lowerX : 1 ≤ x) (upperX : x ≤ 2 ^ 64) (lowerY : 1 ≤ y)
    (upperY : y ≤ 2 ^ 64) : Moderate (x / y) := by
  have positive : 0 < y := by linarith
  constructor
  · rw [le_div_iff₀ positive]
    calc (2 : ℚ) ^ (-200 : ℤ) * y ≤ 2 ^ (-200 : ℤ) * 2 ^ 64 :=
          mul_le_mul_of_nonneg_left upperY (two_zpow_pos _).le
      _ ≤ 1 := by norm_num
      _ ≤ x := lowerX
  · rw [div_lt_iff₀ positive]
    calc x ≤ 2 ^ 64 := upperX
      _ < 2 ^ (200 : ℤ) * 1 := by norm_num
      _ ≤ 2 ^ (200 : ℤ) * y := mul_le_mul_of_nonneg_left lowerY (two_zpow_pos _).le

theorem toNat_pos_of_lt {x y : UInt64} (lt : x < y) : 0 < y.toNat :=
  (Nat.zero_le _).trans_lt (UInt64.lt_iff_toNat_lt.mp lt)

theorem difference_is {dt wcetNs : UInt64} (positive : 0 < wcetNs.toNat)
    (less : rounded wcetNs.toNat < rounded dt.toNat) (lt : wcetNs < dt) :
    ∃ x : ℚ, Is (dt.toFloat - wcetNs.toFloat) x ∧ 1 ≤ x ∧ x ≤ 2 ^ 64 := by
  have positive' := toNat_pos_of_lt lt
  obtain ⟨a, ha⟩ := rounded_natural positive'
  obtain ⟨b, hb⟩ := rounded_natural positive
  have apart : (1 : ℚ) ≤ rounded dt.toNat - rounded wcetNs.toNat := by
    rw [ha, hb] at less ⊢
    have : b + 1 ≤ a := by exact_mod_cast less
    have : (b : ℚ) + 1 ≤ a := by exact_mod_cast this
    linarith
  have one : 1 ≤ rounded wcetNs.toNat := one_le_rounded (by exact_mod_cast positive)
  have top := rounded_toNat_le dt positive'
  have range := moderate_of_bounds apart (by linarith)
  refine ⟨_, sub_is (toFloat_is positive') (toFloat_is positive) less
    (moderate_of_bounds one (by linarith)).1 range, one_le_rounded apart, ?_⟩
  calc rounded (rounded dt.toNat - rounded wcetNs.toNat) ≤ rounded (2 ^ 64) :=
        rounded_mono (by linarith) (by linarith)
    _ = 2 ^ 64 := rounded_two_pow 64

theorem overrun_of_zero {dt wcetNs : UInt64} (zero : wcetNs.toNat = 0) (lt : wcetNs < dt) :
    (normalizedOverrun dt wcetNs).toModel.unpack = .infinity .positive := by
  obtain ⟨m, e, positive, unpack, normal, -⟩ := toFloat_is (toNat_pos_of_lt lt)
  have wcet : wcetNs = 0 := UInt64.toNat_inj.mp zero
  have unpackZero : (0 : UInt64).toFloat.toModel.unpack = .zero .positive := rfl
  rw [wcet, normalizedOverrun, div_unpack, sub_unpack, unpack, unpackZero]
  simp only [UnpackedFloat.sub, unpack_pack normal, UnpackedFloat.div]
  rfl

theorem overrun_measures {dt wcetNs : UInt64} (lt : wcetNs < dt) :
    ∃ v, Measures (normalizedOverrun dt wcetNs) v := by
  rcases Nat.eq_zero_or_pos wcetNs.toNat with zero | positive
  · exact ⟨_, .infinite (overrun_of_zero zero lt)⟩
  · have wcet := toFloat_is positive
    have le : rounded wcetNs.toNat ≤ rounded dt.toNat :=
      rounded_mono (by exact_mod_cast positive)
        (by exact_mod_cast (UInt64.lt_iff_toNat_lt.mp lt).le)
    rcases le.lt_or_eq with less | same
    · obtain ⟨x, is, lower, upper⟩ := difference_is positive less lt
      exact ⟨_, .normal (div_is is wcet (moderate_div lower upper
        (one_le_rounded (by exact_mod_cast positive)) (rounded_toNat_le _ positive)))⟩
    · have dtIs := toFloat_is (toNat_pos_of_lt lt)
      rw [← same] at dtIs
      refine ⟨_, .zero ?_⟩
      obtain ⟨m, e, p, unpack, -⟩ := wcet
      rw [normalizedOverrun, div_unpack, sub_self_unpack dtIs (toFloat_is positive), unpack]
      exact zero_unpack

theorem overrun_is {dt wcetNs : UInt64} (positive : 0 < wcetNs.toNat) (lt : wcetNs < dt)
    (small : dt.toNat < 2 ^ 53) :
    Is (normalizedOverrun dt wcetNs) (rounded (exactOverrun dt wcetNs)) := by
  have less := UInt64.lt_iff_toNat_lt.mp lt
  have dtIs := toFloat_is (toNat_pos_of_lt lt)
  have wcetIs := toFloat_is positive
  rw [rounded_natCast (by omega) small] at dtIs
  rw [rounded_natCast positive (by omega)] at wcetIs
  have one : (1 : ℚ) ≤ wcetNs.toNat := by exact_mod_cast positive
  have apart : (1 : ℚ) ≤ dt.toNat - wcetNs.toNat := by
    have : (wcetNs.toNat : ℚ) + 1 ≤ dt.toNat := by exact_mod_cast less
    linarith
  have top : (dt.toNat : ℚ) ≤ 2 ^ 64 := by exact_mod_cast dt.toNat_lt.le
  have difference := sub_is dtIs wcetIs (by exact_mod_cast less)
    (moderate_of_bounds one (by linarith)).1 (moderate_of_bounds apart (by linarith))
  have whole : rounded ((dt.toNat : ℚ) - wcetNs.toNat) = dt.toNat - wcetNs.toNat := by
    rw [← Nat.cast_sub less.le]
    exact rounded_natCast (by omega) (by omega)
  rw [whole] at difference
  exact div_is difference wcetIs (moderate_div apart (by linarith) one (by linarith))

open Classical in
noncomputable def severity (c : CandidateCatalyst) : WithTop ℚ :=
  if known : ∃ v, Measures c.normalizedOverrun v then known.choose else 0

theorem severity_measures {c : CandidateCatalyst}
    (known : ∃ v, Measures c.normalizedOverrun v) :
    Measures c.normalizedOverrun (severity c) := by
  rw [severity, dif_pos known]
  exact known.choose_spec

theorem partialCmp_gt_iff {a b : Float} {v w : WithTop ℚ} (ha : Measures a v)
    (hb : Measures b w) : (partialCmp a b).getD .eq = .gt ↔ w < v := by
  unfold partialCmp
  simp only [ha.le_iff hb, hb.le_iff ha]
  rcases le_or_gt v w with le | gt
  · by_cases ge : w ≤ v <;> simp [le, ge]
  · simp [gt, gt.le, not_le.mpr gt]

theorem rank_sorted {candidates : List CandidateCatalyst}
    (known : ∀ c ∈ candidates, ∃ v, Measures c.normalizedOverrun v) :
    (rank candidates).Pairwise fun a b => b.normalizedOverrun ≤ a.normalizedOverrun := by
  have agree : ∀ a ∈ candidates, ∀ b ∈ candidates,
      notAfter a b ↔ severity a ≥ severity b := by
    intro a ha b hb
    rw [notAfter, Ne, partialCmp_gt_iff (severity_measures (known b hb))
      (severity_measures (known a ha)), not_lt]
  have sorted : ((rank candidates).map severity).Pairwise (· ≥ ·) := by
    rw [rank, List.map_insertionSort notAfter (· ≥ ·) severity candidates agree]
    exact List.pairwise_insertionSort _ _
  rw [List.pairwise_map] at sorted
  refine sorted.imp_of_mem fun ha hb ge => ?_
  rw [rank, List.mem_insertionSort] at ha hb
  exact ((severity_measures (known _ hb)).le_iff (severity_measures (known _ ha))).mpr ge

theorem rank_perm (candidates : List CandidateCatalyst) :
    (rank candidates).Perm candidates :=
  List.perm_insertionSort _ _

end Proof
end CausalWorks
