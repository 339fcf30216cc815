import Mathlib.Data.List.Sort
import Mathlib.Order.Basic

/-!
# Sorting by a key

A stable sort under a key. What comes out depends on the order of what goes in only where keys tie.
-/

namespace Sorting
variable {α κ : Type} [LinearOrder κ] (key : α → κ)

def sortOn (xs : List α) : List α := xs.insertionSort fun a b => key a ≤ key b

variable {key} {xs ys : List α}

theorem sortOn_perm (xs : List α) : (sortOn key xs).Perm xs := List.perm_insertionSort _ _

theorem sortOn_ordered (xs : List α) : (sortOn key xs).Pairwise fun a b => key a ≤ key b :=
  have : Std.Total fun a b : α => key a ≤ key b := ⟨fun a b => le_total (key a) (key b)⟩
  have : IsTrans α fun a b => key a ≤ key b := ⟨fun _ _ _ => le_trans⟩
  List.pairwise_insertionSort _ _

theorem keys_ordered (xs : List α) : ((sortOn key xs).map key).Pairwise (· ≤ ·) :=
  List.pairwise_map.mpr (sortOn_ordered xs)

theorem keys_sortOn (same : xs.Perm ys) : (sortOn key xs).map key = (sortOn key ys).map key := by
  have perm : ((sortOn key xs).map key).Perm ((sortOn key ys).map key) :=
    (((sortOn_perm xs).trans same).trans (sortOn_perm ys).symm).map key
  exact perm.eq_of_pairwise (fun _ _ _ _ => le_antisymm) (keys_ordered xs) (keys_ordered ys)

theorem sortOn_strict (distinct : (xs.map key).Nodup) :
    (sortOn key xs).Pairwise fun a b => key a < key b := by
  have nodup : ((sortOn key xs).map key).Nodup :=
    (((sortOn_perm xs).map key).nodup_iff).mpr distinct
  have apart := List.pairwise_map.mp nodup
  exact ((sortOn_ordered xs).and apart).imp fun both => lt_of_le_of_ne both.1 both.2

theorem sortOn_eq (same : xs.Perm ys) (distinct : (xs.map key).Nodup) :
    sortOn key xs = sortOn key ys := by
  have perm : (sortOn key xs).Perm (sortOn key ys) :=
    ((sortOn_perm xs).trans same).trans (sortOn_perm ys).symm
  have distinct' : (ys.map key).Nodup := ((same.map key).nodup_iff).mp distinct
  exact perm.eq_of_pairwise (fun a b _ _ less less' => absurd (less.trans less') (lt_irrefl _))
    (sortOn_strict distinct) (sortOn_strict distinct')

theorem take_le_drop {n : Nat} {a b : α} (first : a ∈ (sortOn key xs).take n)
    (rest : b ∈ (sortOn key xs).drop n) : key a ≤ key b := by
  have ordered := @sortOn_ordered _ _ _ key xs
  rw [← List.take_append_drop n (sortOn key xs)] at ordered
  exact (List.pairwise_append.mp ordered).2.2 a first b rest

theorem take_perm {n : Nat} (same : xs.Perm ys)
    (cut : ∀ a ∈ (sortOn key xs).take n, ∀ b ∈ (sortOn key xs).drop n, key a < key b) :
    ((sortOn key xs).take n).Perm ((sortOn key ys).take n) := by
  have keys := @keys_sortOn _ _ _ key _ _ same
  have early : ∀ zs : List α, (sortOn key zs).map key = (sortOn key xs).map key →
      (sortOn key zs).filter (fun a => key a ∈ ((sortOn key xs).take n).map key) =
        (sortOn key zs).take n := by
    intro zs keys
    have front : ((sortOn key zs).take n).map key = ((sortOn key xs).take n).map key := by
      rw [List.map_take, List.map_take, keys]
    have back : ((sortOn key zs).drop n).map key = ((sortOn key xs).drop n).map key := by
      rw [List.map_drop, List.map_drop, keys]
    conv_lhs => rw [← List.take_append_drop n (sortOn key zs)]
    rw [List.filter_append, List.filter_eq_self.mpr, List.filter_eq_nil_iff.mpr, List.append_nil]
    · intro b behind
      have behind' : key b ∈ ((sortOn key xs).drop n).map key := back ▸ List.mem_map_of_mem behind
      rw [decide_eq_true_eq]
      intro before
      obtain ⟨b', inside', same'⟩ := List.mem_map.mp behind'
      obtain ⟨a, inside, same⟩ := List.mem_map.mp before
      exact absurd (cut a inside b' inside') (by rw [same, same']; exact lt_irrefl _)
    · intro a before
      rw [decide_eq_true_eq, ← front]
      exact List.mem_map_of_mem before
  rw [← early xs rfl, ← early ys keys.symm]
  exact (((sortOn_perm xs).trans same).trans (sortOn_perm ys).symm).filter _

end Sorting
