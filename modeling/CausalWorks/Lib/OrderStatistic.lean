import Mathlib.Algebra.Order.BigOperators.Group.List
import Mathlib.Algebra.Order.Ring.Nat
import Mathlib.Data.List.Count
import Mathlib.Data.List.Range

/-!
# Order statistics from counts

Values are counted by a natural number key. In a list that is sorted by the key, the running sum of
the counts passes a position at the key of the value that stands there.
-/

namespace OrderStatistic
variable {α : Type} (key : α → Nat) (values : List α)

def counts (n : Nat) : List Nat :=
  (List.range n).map fun i => values.countP fun v => decide (key v = i)

theorem countP_lt_succ (j : Nat) : values.countP (fun v => decide (key v < j + 1)) =
    values.countP (fun v => decide (key v < j)) + values.countP fun v => decide (key v = j) := by
  induction values with
  | nil => rfl
  | cons v values ih =>
      simp only [List.countP_cons, ih, decide_eq_true_eq]
      by_cases here : key v = j
      · simp [here]
        omega
      · by_cases less : key v < j
        · have : key v < j + 1 := by omega
          simp [here, less, this]
          omega
        · have : ¬ key v < j + 1 := by omega
          simp [here, less, this]

theorem sum_counts (n : Nat) :
    (counts key values n).sum = values.countP fun v => decide (key v < n) := by
  induction n with
  | zero => simp [counts]
  | succ n ih =>
      rw [countP_lt_succ, ← ih, counts, List.range_succ, List.map_append, List.sum_append]
      simp [counts]

theorem take_counts {n j : Nat} (inside : j ≤ n) :
    (counts key values n).take j = counts key values j := by
  rw [counts, counts, ← List.map_take, List.take_range, Nat.min_eq_left inside]

theorem sum_counts_all {n : Nat} (bound : ∀ v ∈ values, key v < n) :
    (counts key values n).sum = values.length := by
  rw [sum_counts, List.countP_eq_length]
  simpa using bound

variable {key} {sorted : List α} (ordered : sorted.Pairwise fun a b => key a ≤ key b) {i : Nat}
  {x : α} (at_ : sorted[i]? = some x)
include ordered at_

theorem countP_lt_le : sorted.countP (fun v => decide (key v < key x)) ≤ i := by
  obtain ⟨inside, rfl⟩ := List.getElem?_eq_some_iff.mp at_
  have none_ : (sorted.drop i).countP (fun v => decide (key v < key sorted[i])) = 0 := by
    rw [List.countP_eq_zero]
    intro v later
    obtain ⟨j, behind, rfl⟩ := List.mem_iff_getElem.mp later
    rw [List.getElem_drop, decide_eq_true_eq, Nat.not_lt]
    rcases Nat.eq_zero_or_pos j with rfl | positive
    · exact Nat.le_refl _
    · exact List.pairwise_iff_getElem.mp ordered i (i + j) inside _ (by omega)
  calc sorted.countP (fun v => decide (key v < key sorted[i]))
      = (sorted.take i).countP (fun v => decide (key v < key sorted[i])) := by
        rw [← Nat.add_zero ((sorted.take i).countP _), ← none_, ← List.countP_append,
          List.take_append_drop]
    _ ≤ (sorted.take i).length := List.countP_le_length
    _ ≤ i := List.length_take_le _ _

theorem lt_countP_le : i < sorted.countP (fun v => decide (key v < key x + 1)) := by
  obtain ⟨inside, rfl⟩ := List.getElem?_eq_some_iff.mp at_
  have all : (sorted.take (i + 1)).countP (fun v => decide (key v < key sorted[i] + 1)) =
      (sorted.take (i + 1)).length := by
    rw [List.countP_eq_length]
    intro v earlier
    obtain ⟨j, before, rfl⟩ := List.mem_iff_getElem.mp earlier
    rw [List.length_take] at before
    rw [List.getElem_take, decide_eq_true_eq, Nat.lt_succ_iff]
    rcases Nat.lt_or_ge j i with less | last
    · exact List.pairwise_iff_getElem.mp ordered j i _ inside less
    · obtain rfl : j = i := by omega
      exact Nat.le_refl _
  calc i < (sorted.take (i + 1)).length := by
        rw [List.length_take]
        omega
    _ = (sorted.take (i + 1)).countP (fun v => decide (key v < key sorted[i] + 1)) := all.symm
    _ ≤ sorted.countP (fun v => decide (key v < key sorted[i] + 1)) :=
        (List.take_sublist _ _).countP_le

end OrderStatistic
