import CausalWorks.Proof.Percentiles

/-!
# The buckets of all 64-bit values

The index of a value is exact up to `u64::MAX`. The edge of a bucket is not: in the upper half of
the last band but one, and in most of the last, its product leaves 64 bits, and `release` then
repeats edges of lower buckets.
-/

namespace CausalWorks

structure BucketExact (v : UInt64) : Prop where
  inside : LogHistogram.index 8 v < 512
  monotone : ∀ w, v ≤ w → LogHistogram.index 8 v ≤ LogHistogram.index 8 w
  product : LogHistogram.index 8 v % 8 * 2 ^ (LogHistogram.index 8 v / 8) < 2 ^ 64
  computed : ∀ profile, ∃ e, LogHistogram.bucketLower profile 8 (LogHistogram.index 8 v) = .ok e ∧
    e ≤ v
  later : ∀ w, LogHistogram.index 8 v < LogHistogram.index 8 w →
    ∃ e, LogHistogram.bucketLower .release 8 (LogHistogram.index 8 w) = .ok e ∧ v < e

namespace Proof
open LogHistogram

theorem bucketLower_release {idx : Nat} (inside : idx < 512) (notFirst : idx ≠ 0) :
    ∃ e, bucketLower .release 8 idx = .ok e ∧
      e.toNat = 2 ^ (idx / 8) + idx % 8 * 2 ^ (idx / 8) % 2 ^ 64 / 8 := by
  have band : idx / 8 < 64 := by omega
  have power : 2 ^ (idx / 8) ≤ 2 ^ 63 := Nat.pow_le_pow_right (by decide) (by omega)
  obtain ⟨base, shifted, base_eq⟩ := shlU64_one .release band
  have factor : (UInt64.ofNat (idx % 8)).toNat = idx % 8 :=
    UInt64.toNat_ofNat_of_lt' (lt_trans (Nat.mod_lt idx (by decide)) (by decide))
  have part : (UInt64.ofNat (idx % 8) * base / .ofNat 8).toNat =
      idx % 8 * 2 ^ (idx / 8) % 2 ^ 64 / 8 := by
    rw [UInt64.toNat_div, UInt64.toNat_mul, factor, base_eq]
    rfl
  have known : ¬ (idx / 8 = 0 ∧ idx % 8 = 0) := by omega
  refine ⟨base + UInt64.ofNat (idx % 8) * base / .ofNat 8, ?_, ?_⟩
  · rw [bucketLower]
    simp only [known, if_false, shifted, bind, Except.bind]
    rfl
  · -- The quotient is below `2 ^ 61`, so the sum has room even in the last band.
    rw [UInt64.toNat_add, part, base_eq, Nat.mod_eq_of_lt (by omega)]

theorem edge_whole {k o : Nat} (inside : o < 2 ^ k) : 8 ∣ o * 8 / 2 ^ k * 2 ^ k := by
  rcases Nat.lt_or_ge k 3 with small | large
  · have narrow : ∀ k < 3, ∀ o < 2 ^ k, 8 ∣ o * 8 / 2 ^ k * 2 ^ k := by decide
    exact narrow k small o inside
  · obtain ⟨j, rfl⟩ := Nat.exists_eq_add_of_le large
    rw [pow_add]
    exact Dvd.dvd.mul_left (Dvd.intro _ rfl) _

theorem lt_lowerEdge {v w : UInt64} (before : index 8 v < index 8 w) :
    v.toNat < lowerEdge (index 8 w) := by
  have nonzero : w.toNat ≠ 0 := by
    intro zero
    rw [UInt64.toNat_inj.mp (zero.trans UInt64.toNat_zero.symm)] at before
    exact absurd before (Nat.not_lt_zero _)
  obtain ⟨l, p, sub', -, inside', index_w, few', sub_eq'⟩ := index_spec nonzero
  have band : index 8 w / 8 = l := by omega
  have part : index 8 w % 8 = p * 8 / 2 ^ l := by omega
  rw [lowerEdge, if_neg (by omega), band, part]
  by_cases zero : v.toNat = 0
  · rw [zero]
    exact Nat.add_pos_left (Nat.two_pow_pos l) _
  obtain ⟨k, o, sub, v_eq, inside, index_v, few, sub_eq⟩ := index_spec zero
  rcases Nat.lt_trichotomy k l with less | rfl | more
  · have power : 2 ^ (k + 1) ≤ 2 ^ l := Nat.pow_le_pow_right (by decide) less
    rw [pow_succ] at power
    omega
  · -- In one band the earlier bucket ends where the later one begins.
    have short : o * 8 < p * 8 / 2 ^ k * 2 ^ k := by
      rw [← Nat.div_lt_iff_lt_mul (Nat.two_pow_pos k)]
      omega
    obtain ⟨q, whole⟩ := edge_whole inside'
    rw [whole] at short ⊢
    omega
  · omega

theorem index_high {v : UInt64} (high : 2 ^ 62 ≤ v.toNat) : ∃ k sub, (k = 62 ∨ k = 63) ∧
    2 ^ k ≤ v.toNat ∧ index 8 v = 8 * k + sub ∧ sub < 8 := by
  obtain ⟨k, o, sub, v_eq, inside, index_v, few, -⟩ := index_spec (by omega : v.toNat ≠ 0)
  have above : 62 < k + 1 := (Nat.pow_lt_pow_iff_right (by decide : 1 < 2)).mp (by
    rw [pow_succ]
    omega)
  have below : k < 64 := (Nat.pow_lt_pow_iff_right (by decide : 1 < 2)).mp (by
    have bound := v.toNat_lt
    omega)
  exact ⟨k, sub, by omega, by omega, index_v, few⟩

theorem bucketExact_low {v : UInt64} (low : v.toNat < 2 ^ 62) : BucketExact v where
  inside := index_lt v
  monotone w le := index_mono (UInt64.le_iff_toNat_le.mp le)
  product := by
    have small := index_low low
    have power : 2 ^ (index 8 v / 8) ≤ 2 ^ 61 := Nat.pow_le_pow_right (by decide) (by omega)
    calc index 8 v % 8 * 2 ^ (index 8 v / 8) ≤ 7 * 2 ^ 61 := Nat.mul_le_mul (by omega) power
      _ < 2 ^ 64 := by decide
  computed profile := by
    obtain ⟨e, lower, e_eq⟩ := bucketLower_ok profile (index_low low)
    refine ⟨e, lower, UInt64.le_iff_toNat_le.mpr ?_⟩
    rw [e_eq]
    exact (lowerEdge_index v).1
  later w before := by
    rcases Nat.lt_or_ge (index 8 w) (8 * 62) with near | far
    · obtain ⟨e, lower, e_eq⟩ := bucketLower_ok .release near
      refine ⟨e, lower, UInt64.lt_iff_toNat_lt.mpr ?_⟩
      rw [e_eq]
      exact lt_lowerEdge before
    · obtain ⟨e, lower, e_eq⟩ := bucketLower_release (@index_lt 8 _ w) (by omega)
      have power : 2 ^ 62 ≤ 2 ^ (index 8 w / 8) := Nat.pow_le_pow_right (by decide) (by omega)
      refine ⟨e, lower, UInt64.lt_iff_toNat_lt.mpr ?_⟩
      omega

theorem repeated_edges : index 8 0x6000000000000000 = 500 ∧ index 8 0xa000000000000000 = 506 ∧
    bucketLower .release 8 500 = .ok 0x4000000000000000 ∧
    bucketLower .release 8 506 = .ok 0x8000000000000000 := by
  decide +kernel

theorem not_bucketExact_high {v : UInt64} (high : 2 ^ 62 ≤ v.toNat) : ¬ BucketExact v := by
  intro exact_
  obtain ⟨k, sub, band, above, index_v, few⟩ := index_high high
  obtain ⟨index_w, index_x, edge_w, edge_x⟩ := repeated_edges
  have fits := exact_.product
  rw [index_v, show (8 * k + sub) / 8 = k by omega, show (8 * k + sub) % 8 = sub by omega] at fits
  rcases band with rfl | rfl
  · obtain ⟨e, lower, less⟩ := exact_.later 0x6000000000000000 (by omega)
    rw [index_w, edge_w] at lower
    obtain rfl := Except.ok.inj lower
    exact absurd (UInt64.lt_iff_toNat_lt.mp less) (Nat.not_lt.mpr above)
  · obtain ⟨e, lower, less⟩ := exact_.later 0xa000000000000000 (by omega)
    rw [index_x, edge_x] at lower
    obtain rfl := Except.ok.inj lower
    exact absurd (UInt64.lt_iff_toNat_lt.mp less) (Nat.not_lt.mpr above)

/-- Bucketing is exact below `2 ^ 62`, and for no value from there on. -/
theorem bucket_exact_iff (v : UInt64) : BucketExact v ↔ v.toNat < 2 ^ 62 := by
  constructor
  · intro exact_
    by_contra high
    exact not_bucketExact_high (Nat.le_of_not_lt high) exact_
  · exact bucketExact_low

/-- A single recorded value makes every quantile abort under `dev`; `release` takes the edge of the
whole band, although the bucket before has a greater edge below the value. -/
theorem bucket_edge_wraps : index 8 0x6000000000000000 = 500 ∧
    bucketLower .release 8 500 = .ok 0x4000000000000000 ∧
    bucketLower .release 8 499 = .ok 0x5800000000000000 ∧
    (∀ q, (LogHistogram.new.record 0x6000000000000000 : LogHistogram 8).quantile .dev q =
      .error .mulOverflow) ∧ ¬ BucketExact 0x6000000000000000 := by
  refine ⟨repeated_edges.1, repeated_edges.2.2.1, by decide +kernel, fun q => ?_,
    not_bucketExact_high (by decide)⟩
  have holds := @holds_recorded 8 _ [0x6000000000000000]
  have first : smallest [0x6000000000000000] 1 = some 0x6000000000000000 := by simp [smallest]
  have reached := bucketOf_eq holds (Nat.le_refl 1) first
  have rank : (LogHistogram.new.record 0x6000000000000000 : LogHistogram 8).target q = 1 :=
    Nat.le_antisymm (Nat.min_le_right _ _) (Nat.le_min.mpr ⟨Nat.le_max_right _ _, Nat.le_refl 1⟩)
  have overflow : bucketLower .dev 8 500 = .error .mulOverflow := by decide +kernel
  rw [repeated_edges.1, List.foldl_cons, List.foldl_nil] at reached
  rw [quantile, if_neg (by decide +kernel), rank, estimate]
  simp only [reached, overflow]
  rfl

end Proof
end CausalWorks
