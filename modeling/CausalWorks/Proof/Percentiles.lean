import CausalWorks.Lib.OrderStatistic
import CausalWorks.Proof.Profiles
import Mathlib.Algebra.Order.Ring.Nat

/-!
# Percentiles are order statistics, up to a bucket

The index of a bucket grows with the value, so the loop of `quantile` stops at the bucket of the
value that has the target rank, and the lower edge of a bucket is within an eighth of each value in
it.
-/

namespace CausalWorks

/-- The `r`-th smallest of the values, counted from one. -/
def smallest (values : List UInt64) (r : Nat) : Option UInt64 := values.mergeSort[r - 1]?

/-- The rank that `q` asks for among `n` values, counted from one. -/
def rankOf (q : Float) (n : Nat) : Nat :=
  max 1 (min n (q * (UInt64.ofNat n).toFloat).ceil.toUInt64.toNat)

structure Estimates (h : LogHistogram 8) (x e : UInt64) : Prop where
  min_le : h.getMin ≤ e
  below : e ≤ x
  le_max : x ≤ h.max
  close : 2 ≤ x.toNat → 8 * (x.toNat - e.toNat) < x.toNat

structure PercentilesAccurate (values : List UInt64) (h : LogHistogram 8) : Prop where
  counted : h.count = values.length ∧ h.buckets.toList.sum = h.count
  reaches : ∀ r, 1 ≤ r → r ≤ h.count → h.bucketOf r ≠ none
  ranks : ∀ profile r, 1 ≤ r → r ≤ h.count → ∃ x e, smallest values r = some x ∧
    h.estimate profile r = .ok e ∧ Estimates h x e
  monotone : ∀ profile r s e e', 1 ≤ r → r ≤ s → s ≤ h.count → h.estimate profile r = .ok e →
    h.estimate profile s = .ok e' → e ≤ e'
  quantile : ∀ profile q, 1 ≤ rankOf q values.length ∧ rankOf q values.length ≤ h.count ∧
    h.quantile profile q = h.estimate profile (rankOf q values.length)
  minimum : h.getMin ∈ values ∧ ∀ v ∈ values, h.getMin ≤ v
  maximum : h.max ∈ values ∧ ∀ v ∈ values, v ≤ h.max
  mean : h.mean.toNat = (values.map UInt64.toNat).sum / values.length

namespace Proof
open LogHistogram OrderStatistic

def lowerEdge (idx : Nat) : Nat :=
  if idx = 0 then 0 else 2 ^ (idx / 8) + idx % 8 * 2 ^ (idx / 8) / 8

theorem bucketLower_ok (profile : Profile) {idx : Nat} (low : idx < 8 * 62) :
    ∃ e, bucketLower profile 8 idx = .ok e ∧ e.toNat = lowerEdge idx := by
  unfold bucketLower lowerEdge
  by_cases zero : idx = 0
  · subst zero
    exact ⟨0, rfl, rfl⟩
  have notFirst : ¬ (idx / 8 = 0 ∧ idx % 8 = 0) := by omega
  have band : idx / 8 < 62 := by omega
  have sub : idx % 8 ≤ 7 := by omega
  have power : 2 ^ (idx / 8) ≤ 2 ^ 61 := Nat.pow_le_pow_right (by decide) (by omega)
  obtain ⟨base, shifted, base_eq⟩ := shlU64_one profile (band.trans (by decide) : idx / 8 < 64)
  have factor : (UInt64.ofNat (idx % 8)).toNat = idx % 8 :=
    UInt64.toNat_ofNat_of_lt' (lt_of_le_of_lt sub (by decide))
  have product : idx % 8 * 2 ^ (idx / 8) ≤ 7 * 2 ^ 61 := Nat.mul_le_mul sub power
  have width : (UInt64.ofNat (idx % 8) * base).toNat = idx % 8 * 2 ^ (idx / 8) := by
    rw [UInt64.toNat_mul, factor, base_eq]
    exact Nat.mod_eq_of_lt (product.trans_lt (by decide))
  have part : (UInt64.ofNat (idx % 8) * base / .ofNat 8).toNat = idx % 8 * 2 ^ (idx / 8) / 8 := by
    rw [UInt64.toNat_div, width]
    rfl
  have sum : base.toNat + (UInt64.ofNat (idx % 8) * base / .ofNat 8).toNat < 2 ^ 64 := by
    rw [base_eq, part]
    omega
  have noOverflow : (UInt64.ofNat (idx % 8)).toNat * base.toNat < 2 ^ 64 := by
    rw [factor, base_eq]
    exact product.trans_lt (by decide)
  refine ⟨base + UInt64.ofNat (idx % 8) * base / .ofNat 8, ?_, ?_⟩
  · simp only [notFirst, if_false, shifted, bind, Except.bind, mulU64_of_lt profile _ _ noOverflow,
      addU64_of_lt profile _ _ sum]
  · rw [UInt64.toNat_add, Nat.mod_eq_of_lt sum, base_eq, part, if_neg zero]

theorem lowerEdge_mono : Monotone lowerEdge := by
  refine monotone_nat_of_le_succ fun idx => ?_
  unfold lowerEdge
  by_cases zero : idx = 0
  · simp [zero]
  rw [if_neg zero, if_neg (Nat.succ_ne_zero idx)]
  rcases Nat.lt_or_ge (idx % 8) 7 with inside | last
  · have band : (idx + 1) / 8 = idx / 8 := by omega
    have sub : (idx + 1) % 8 = idx % 8 + 1 := by omega
    rw [band, sub]
    exact Nat.add_le_add_left (Nat.div_le_div_right (Nat.mul_le_mul_right _ (Nat.le_succ _))) _
  · have band : (idx + 1) / 8 = idx / 8 + 1 := by omega
    have sub : (idx + 1) % 8 = 0 := by omega
    have sub' : idx % 8 = 7 := by omega
    rw [band, sub, sub', pow_succ]
    omega

theorem index_spec {v : UInt64} (positive : v.toNat ≠ 0) : ∃ k offset sub,
    v.toNat = 2 ^ k + offset ∧ offset < 2 ^ k ∧ index 8 v = 8 * k + sub ∧ sub < 8 ∧
      sub = offset * 8 / 2 ^ k := by
  have below := Nat.log2_self_le positive
  have above : v.toNat < 2 ^ (v.toNat.log2 + 1) := Nat.lt_log2_self
  rw [pow_succ] at above
  have sub : (v.toNat - 2 ^ v.toNat.log2) * 8 / 2 ^ v.toNat.log2 < 8 := by
    rw [Nat.div_lt_iff_lt_mul (Nat.two_pow_pos _)]
    omega
  have nonzero : v ≠ 0 := by
    rintro rfl
    exact positive rfl
  refine ⟨v.toNat.log2, v.toNat - 2 ^ v.toNat.log2, _, by omega, by omega, ?_, sub, rfl⟩
  rw [index, if_neg nonzero]
  simp only [Nat.add_sub_cancel, Nat.one_shiftLeft]
  rw [show ∀ n, Nat.min n (8 - 1) = min n 7 from fun _ => rfl, Nat.min_eq_left (by omega),
    Nat.mul_comm v.toNat.log2]

theorem index_mono {v w : UInt64} (le : v.toNat ≤ w.toNat) : index 8 v ≤ index 8 w := by
  by_cases zero : v.toNat = 0
  · rw [UInt64.toNat_inj.mp (zero.trans UInt64.toNat_zero.symm)]
    exact Nat.zero_le _
  obtain ⟨k, o, sub, v_eq, -, index_v, small, sub_eq⟩ := index_spec zero
  obtain ⟨l, p, sub', w_eq, short, index_w, -, sub_eq'⟩ := index_spec (by omega : w.toNat ≠ 0)
  rw [index_v, index_w]
  rcases Nat.lt_trichotomy k l with less | rfl | more
  · omega
  · rw [sub_eq, sub_eq']
    exact Nat.add_le_add_left (Nat.div_le_div_right (Nat.mul_le_mul_right _ (by omega))) _
  · have power : 2 ^ (l + 1) ≤ 2 ^ k := Nat.pow_le_pow_right (by decide) more
    rw [pow_succ] at power
    omega

theorem index_low {v : UInt64} (small : v.toNat < 2 ^ 62) : index 8 v < 8 * 62 := by
  by_cases zero : v.toNat = 0
  · rw [UInt64.toNat_inj.mp (zero.trans UInt64.toNat_zero.symm)]
    decide
  obtain ⟨k, o, sub, v_eq, -, index_v, few, -⟩ := index_spec zero
  have band : k < 62 := (Nat.pow_lt_pow_iff_right (by decide : 1 < 2)).mp (by omega)
  omega

theorem edge_close {k o : Nat} (inside : o < 2 ^ k) (band : 1 ≤ k) :
    8 * (o - o * 8 / 2 ^ k * 2 ^ k / 8) < 2 ^ k + o := by
  rcases Nat.lt_or_ge k 3 with small | large
  · have narrow : ∀ k < 3, 1 ≤ k → ∀ o < 2 ^ k,
        8 * (o - o * 8 / 2 ^ k * 2 ^ k / 8) < 2 ^ k + o := by
      decide
    exact narrow k small band o inside
  · obtain ⟨j, rfl⟩ := Nat.exists_eq_add_of_le large
    have width : 2 ^ (3 + j) = 8 * 2 ^ j := pow_add 2 3 j
    have positive : 0 < 2 ^ j := Nat.two_pow_pos j
    have sub : o * 8 / (8 * 2 ^ j) = o / 2 ^ j := by
      rw [Nat.mul_comm o 8, Nat.mul_div_mul_left _ _ (by decide)]
    have edge : o / 2 ^ j * (8 * 2 ^ j) / 8 = o / 2 ^ j * 2 ^ j := by
      rw [Nat.mul_left_comm, Nat.mul_div_cancel_left _ (by decide)]
    have rest : o - o / 2 ^ j * 2 ^ j < 2 ^ j := by
      rw [Nat.mul_comm, ← Nat.mod_eq_sub_mul_div]
      exact Nat.mod_lt o positive
    rw [width, sub, edge]
    omega

theorem lowerEdge_index (v : UInt64) : lowerEdge (index 8 v) ≤ v.toNat ∧
    (2 ≤ v.toNat → 8 * (v.toNat - lowerEdge (index 8 v)) < v.toNat) := by
  by_cases zero : v.toNat = 0
  · rw [UInt64.toNat_inj.mp (zero.trans UInt64.toNat_zero.symm)]
    exact ⟨Nat.le_refl _, fun two => absurd two (by decide)⟩
  obtain ⟨k, o, sub, v_eq, inside, index_v, few, sub_eq⟩ := index_spec zero
  have band : index 8 v / 8 = k := by omega
  have part : index 8 v % 8 = o * 8 / 2 ^ k := by omega
  have below : o * 8 / 2 ^ k * 2 ^ k / 8 ≤ o := by
    have le := Nat.div_mul_le_self (o * 8) (2 ^ k)
    omega
  unfold lowerEdge
  rw [band, part]
  split
  · rename_i first
    obtain rfl : k = 0 := by omega
    exact ⟨Nat.zero_le _, fun two => by omega⟩
  · refine ⟨by omega, fun two => ?_⟩
    have notFirst : 1 ≤ k := by
      rcases Nat.eq_zero_or_pos k with rfl | positive
      · omega
      · exact positive
    have close := edge_close inside notFirst
    omega

theorem reached_eq {counts : List Nat} {target cum start i : Nat} (inside : i < counts.length)
    (short : cum + (counts.take i).sum < target)
    (enough : target ≤ cum + (counts.take (i + 1)).sum) :
    reached target cum (counts.zipIdx start) = some (start + i) := by
  induction counts generalizing cum start i with
  | nil => exact absurd inside (Nat.not_lt_zero i)
  | cons c counts ih =>
      rw [List.zipIdx_cons, reached]
      cases i with
      | zero =>
          rw [List.take_succ_cons, List.take_zero, List.sum_singleton] at enough
          exact if_pos enough
      | succ i =>
          rw [List.take_succ_cons, List.sum_cons, ← Nat.add_assoc] at short enough
          rw [if_neg (by omega), ih (Nat.lt_of_succ_lt_succ inside) short enough]
          exact congrArg some (by omega)

section
variable {h : LogHistogram 8} {values : List UInt64}

theorem holds_recorded {SUB : Nat} [NeZero SUB] (values : List UInt64) :
    (values.foldl LogHistogram.record (.new : LogHistogram SUB)).Holds values := by
  induction values using List.reverseRecOn with
  | nil => exact holds_new
  | append_singleton values v ih =>
      rw [List.foldl_concat]
      exact holds_record ih v

theorem buckets_counts (holds : h.Holds values) :
    h.buckets.toList = counts (index 8) values (64 * 8) := by
  apply List.ext_getElem
  · simp [counts]
  · intro i inside _
    rw [Vector.length_toList] at inside
    simp [counts, holds.buckets i inside]

theorem sorted_ordered (values : List UInt64) :
    values.mergeSort.Pairwise fun a b => a.toNat ≤ b.toNat := by
  refine (List.pairwise_mergeSort ?_ ?_ values).imp ?_
  · intro a b c first second
    exact decide_eq_true (UInt64.le_trans (of_decide_eq_true first) (of_decide_eq_true second))
  · intro a b
    simpa using UInt64.le_total a b
  · intro a b le
    exact UInt64.le_iff_toNat_le.mp (of_decide_eq_true le)

theorem smallest_mem {r : Nat} {x : UInt64} (at_ : smallest values r = some x) : x ∈ values :=
  (List.mergeSort_perm values _).mem_iff.mp (List.mem_of_getElem? at_)

theorem smallest_exists {r : Nat} (first : 1 ≤ r) (last : r ≤ values.length) :
    ∃ x, smallest values r = some x := by
  have inside : r - 1 < values.mergeSort.length := by
    rw [List.length_mergeSort]
    omega
  exact ⟨_, List.getElem?_eq_getElem inside⟩

theorem smallest_mono {r s : Nat} {x y : UInt64} (le : r ≤ s)
    (at_ : smallest values r = some x) (at' : smallest values s = some y) :
    x.toNat ≤ y.toNat := by
  obtain ⟨inside, rfl⟩ := List.getElem?_eq_some_iff.mp at_
  obtain ⟨inside', rfl⟩ := List.getElem?_eq_some_iff.mp at'
  rcases Nat.lt_or_ge (r - 1) (s - 1) with less | more
  · exact List.pairwise_iff_getElem.mp (sorted_ordered values) _ _ inside inside' less
  · have same : r - 1 = s - 1 := by omega
    simp [same]

theorem bucketOf_eq (holds : h.Holds values) {r : Nat} {x : UInt64} (first : 1 ≤ r)
    (at_ : smallest values r = some x) : h.bucketOf r = some (index 8 x) := by
  have sorted := List.mergeSort_perm values (fun a b => decide (a ≤ b))
  have ordered := (sorted_ordered values).imp index_mono
  have before := countP_lt_le ordered at_
  have after := lt_countP_le ordered at_
  rw [sorted.countP_eq] at before after
  have inside := @index_lt 8 _ x
  unfold bucketOf
  rw [buckets_counts holds, reached_eq (i := index 8 x) (by simpa [counts] using inside),
    Nat.zero_add]
  · rw [take_counts _ _ inside.le, sum_counts, Nat.zero_add]
    omega
  · rw [take_counts _ _ (show index 8 x + 1 ≤ 64 * 8 from inside), sum_counts, Nat.zero_add]
    omega

theorem sum_buckets (holds : h.Holds values) : h.buckets.toList.sum = h.count := by
  rw [buckets_counts holds, sum_counts_all _ _ fun v _ => @index_lt 8 _ v, holds.count]

theorem sum_le (holds : h.Holds values) (small : ∀ v ∈ values, v.toNat < 2 ^ 62) :
    h.sum ≤ h.count * 2 ^ 62 := by
  have bound := List.sum_le_card_nsmul (values.map UInt64.toNat) (2 ^ 62) fun n member => by
    obtain ⟨v, listed, rfl⟩ := List.mem_map.mp member
    exact (small v listed).le
  rw [holds.sum, holds.count]
  simpa using bound

theorem mean_ok (holds : h.Holds values) (small : ∀ v ∈ values, v.toNat < 2 ^ 62) :
    h.mean.toNat = h.sum / h.count := by
  unfold LogHistogram.mean
  split
  · rename_i none_
    rw [none_, Nat.div_zero]
    rfl
  · have quotient : h.sum / h.count ≤ 2 ^ 62 := Nat.div_le_of_le_mul (sum_le holds small)
    exact UInt64.toNat_ofNat_of_lt' (quotient.trans_lt (by decide))

theorem target_first {q : Float} (positive : 0 < h.count) : 1 ≤ h.target q :=
  Nat.le_min.mpr ⟨Nat.le_max_right _ _, positive⟩

theorem target_last {q : Float} : h.target q ≤ h.count := Nat.min_le_right _ _

theorem rankOf_first (q : Float) (n : Nat) : 1 ≤ rankOf q n := Nat.le_max_left _ _

theorem rankOf_last (q : Float) {n : Nat} (positive : 0 < n) : rankOf q n ≤ n :=
  max_le positive (min_le_left _ _)

theorem target_eq (holds : h.Holds values) (some_ : values ≠ []) (q : Float) :
    h.target q = rankOf q values.length := by
  have positive := List.length_pos_iff.mpr some_
  unfold LogHistogram.target rankOf
  rw [holds.count]
  show min (max _ 1) values.length = max 1 (min values.length _)
  omega

theorem quantile_eq (holds : h.Holds values) (some_ : values ≠ []) (profile : Profile) (q : Float) :
    h.quantile profile q = h.estimate profile (rankOf q values.length) := by
  have nonzero : h.count ≠ 0 := by
    rw [holds.count]
    exact (List.length_pos_iff.mpr some_).ne'
  rw [LogHistogram.quantile, if_neg nonzero, target_eq holds some_]

theorem getMin_eq (holds : h.Holds values) (some_ : values ≠ []) : h.getMin = h.min := by
  have nonzero : h.count ≠ 0 := by
    rw [holds.count]
    exact List.length_pos_iff.mpr some_ |>.ne'
  exact if_neg nonzero

theorem estimate_ok (profile : Profile) (holds : h.Holds values)
    (small : ∀ v ∈ values, v.toNat < 2 ^ 62) {r : Nat} {x : UInt64} (first : 1 ≤ r)
    (at_ : smallest values r = some x) : ∃ e, h.estimate profile r = .ok e ∧
      e.toNat = max h.getMin.toNat (lowerEdge (index 8 x)) := by
  have member := smallest_mem at_
  obtain ⟨edge, lower, edge_eq⟩ := bucketLower_ok profile (index_low (small x member))
  have below := (lowerEdge_index x).1
  have low := UInt64.le_iff_toNat_le.mp (holds.min_le x member)
  have high := UInt64.le_iff_toNat_le.mp (holds.le_max x member)
  have minimum := getMin_eq holds (List.ne_nil_of_mem member)
  refine ⟨if edge < h.getMin then h.getMin else edge, ?_, ?_⟩
  · have range : h.getMin ≤ h.max := by
      rw [UInt64.le_iff_toNat_le, minimum]
      omega
    have notAbove : ¬ h.max < edge := by
      rw [UInt64.lt_iff_toNat_lt]
      omega
    simp only [estimate, bucketOf_eq holds first at_, lower, bind, Except.bind, clampU64,
      if_pos range, notAbove, if_false]
  · split
    · rename_i less
      rw [UInt64.lt_iff_toNat_lt] at less
      omega
    · rename_i notLess
      rw [UInt64.lt_iff_toNat_lt] at notLess
      omega

end

theorem percentiles_accurate {values : List UInt64} (some_ : values ≠ [])
    (small : ∀ v ∈ values, v.toNat < 2 ^ 62) :
    PercentilesAccurate values (values.foldl LogHistogram.record .new) := by
  have holds := @holds_recorded 8 _ values
  generalize values.foldl LogHistogram.record (.new : LogHistogram 8) = h at holds ⊢
  have minimum := getMin_eq holds some_
  constructor
  case counted => exact ⟨holds.count, sum_buckets holds⟩
  case reaches =>
    intro r first last
    obtain ⟨x, at_⟩ := smallest_exists first (holds.count ▸ last)
    rw [bucketOf_eq holds first at_]
    exact Option.some_ne_none _
  case ranks =>
    intro profile r first last
    obtain ⟨x, at_⟩ := smallest_exists first (holds.count ▸ last)
    obtain ⟨e, estimated, e_eq⟩ := estimate_ok profile holds small first at_
    have member := smallest_mem at_
    obtain ⟨below, close⟩ := lowerEdge_index x
    have low : h.getMin.toNat ≤ x.toNat :=
      minimum ▸ UInt64.le_iff_toNat_le.mp (holds.min_le x member)
    refine ⟨x, e, at_, estimated, ?_, ?_, holds.le_max x member, fun two => ?_⟩
    · rw [UInt64.le_iff_toNat_le]
      omega
    · rw [UInt64.le_iff_toNat_le]
      omega
    · have near := close two
      omega
  case monotone =>
    intro profile r s e e' first le last estimated estimated'
    obtain ⟨x, at_⟩ := @smallest_exists values r first (holds.count ▸ le.trans last)
    obtain ⟨y, at'⟩ := @smallest_exists values s (first.trans le) (holds.count ▸ last)
    obtain ⟨_, done, e_eq⟩ := estimate_ok profile holds small first at_
    obtain ⟨_, done', e_eq'⟩ := estimate_ok profile holds small (first.trans le) at'
    cases done.symm.trans estimated
    cases done'.symm.trans estimated'
    have edges := lowerEdge_mono (index_mono (smallest_mono le at_ at'))
    rw [UInt64.le_iff_toNat_le]
    omega
  case quantile =>
    intro profile q
    rw [holds.count]
    exact ⟨rankOf_first q _, rankOf_last q (List.length_pos_iff.mpr some_),
      quantile_eq holds some_ profile q⟩
  case minimum =>
    rw [minimum]
    exact ⟨holds.min_mem.resolve_right fun none_ => some_ none_.1, holds.min_le⟩
  case maximum => exact ⟨holds.max_mem.resolve_right fun none_ => some_ none_.1, holds.le_max⟩
  case mean => rw [mean_ok holds small, holds.sum, holds.count]

theorem percentiles_accurate_two : PercentilesAccurate [5000, 1, 1000, 0]
    ([5000, 1, 1000, 0].foldl LogHistogram.record .new) :=
  percentiles_accurate (by simp) (by simp)

end Proof
end CausalWorks
