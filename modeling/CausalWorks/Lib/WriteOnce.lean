import Mathlib

/-!
# Maps that are only added to

An ordered map from the keys of items to the items, related to the list of the items in the order
in which they were added. An item whose key is taken is not added.
-/

namespace WriteOnce

variable {κ ι : Type} [Ord κ] [Std.TransOrd κ] (keyOf : ι → κ)

structure Holds (t : Std.TreeMap κ ι) (items : List ι) : Prop where
  found : ∀ k x, t[k]? = some x ↔ x ∈ items ∧ keyOf x = k
  distinct : (items.map keyOf).Nodup
  size : t.size = items.length

def between (t : Std.TreeMap κ ι) (lo hi : κ) : List ι :=
  (t.toList.filter fun e => (compare e.1 lo).isGE && (compare e.1 hi).isLT).map Prod.snd

variable {keyOf} {t : Std.TreeMap κ ι} {items : List ι} {x : ι}

theorem holds_empty : Holds keyOf (∅ : Std.TreeMap κ ι) [] where
  found k x := by simp
  distinct := List.nodup_nil
  size := rfl

theorem Holds.contains_iff (holds : Holds keyOf t items) (k : κ) :
    t.contains k = true ↔ k ∈ items.map keyOf := by
  rw [Std.TreeMap.contains_iff_mem, Std.TreeMap.mem_iff_isSome_getElem?, Option.isSome_iff_exists,
    List.mem_map]
  simp only [holds.found]

variable [Std.LawfulEqOrd κ]

theorem Holds.insert (holds : Holds keyOf t items) (new : keyOf x ∉ items.map keyOf) :
    Holds keyOf (t.insert (keyOf x) x) (items ++ [x]) where
  found k y := by
    rw [Std.TreeMap.getElem?_insert, List.mem_append, List.mem_singleton]
    split
    · rename_i same
      have same := Std.LawfulEqOrd.eq_of_compare same
      subst same
      constructor
      · intro here
        exact ⟨Or.inr (Option.some.inj here).symm, congrArg keyOf (Option.some.inj here).symm⟩
      · rintro ⟨before | rfl, same⟩
        · exact absurd (List.mem_map.mpr ⟨y, before, same⟩) new
        · rfl
    · rename_i other
      rw [holds.found]
      constructor
      · exact fun here => ⟨Or.inl here.1, here.2⟩
      · rintro ⟨before | rfl, same⟩
        · exact ⟨before, same⟩
        · exact absurd (same ▸ Std.ReflOrd.compare_self) other
  distinct := by
    rw [List.map_append, List.map_singleton]
    exact List.nodup_append.mpr ⟨holds.distinct, List.nodup_singleton _, by
      intro k before k' now
      rw [List.mem_singleton.mp now]
      exact fun same => new (same ▸ before)⟩
  size := by
    have absent : ¬ t.contains (keyOf x) = true := fun here => new ((holds.contains_iff _).mp here)
    rw [Std.TreeMap.size_insert, if_neg absent, holds.size, List.length_append]
    rfl

theorem Holds.mem_between (holds : Holds keyOf t items) {lo hi : κ} : x ∈ between t lo hi ↔
    x ∈ items ∧ (compare (keyOf x) lo).isGE = true ∧ (compare (keyOf x) hi).isLT = true := by
  unfold between
  rw [List.mem_map]
  constructor
  · rintro ⟨⟨k, y⟩, inside, rfl⟩
    obtain ⟨member, bounds⟩ := List.mem_filter.mp inside
    obtain ⟨stored, rfl⟩ :=
      (holds.found k y).mp (Std.TreeMap.mem_toList_iff_getElem?_eq_some.mp member)
    exact ⟨stored, Bool.and_eq_true_iff.mp bounds⟩
  · rintro ⟨stored, bounds⟩
    refine ⟨(keyOf x, x), List.mem_filter.mpr ⟨?_, Bool.and_eq_true_iff.mpr bounds⟩, rfl⟩
    exact Std.TreeMap.mem_toList_iff_getElem?_eq_some.mpr ((holds.found _ x).mpr ⟨stored, rfl⟩)

theorem Holds.between_ordered (holds : Holds keyOf t items) (lo hi : κ) :
    (between t lo hi).Pairwise fun a b => compare (keyOf a) (keyOf b) = .lt := by
  have keyed : ∀ e ∈ t.toList, keyOf e.2 = e.1 := fun e member =>
    ((holds.found e.1 e.2).mp (Std.TreeMap.mem_toList_iff_getElem?_eq_some.mp member)).2
  have ordered : (t.toList.filter fun e => (compare e.1 lo).isGE && (compare e.1 hi).isLT).Pairwise
      fun a b => compare a.1 b.1 = .lt := Std.TreeMap.ordered_keys_toList.filter _
  refine List.pairwise_map.mpr (ordered.imp_of_mem ?_)
  intro a b first second lt
  rw [keyed a (List.mem_of_mem_filter first), keyed b (List.mem_of_mem_filter second)]
  exact lt

omit [Std.TransOrd κ] in
theorem ordered_nodup {xs : List ι}
    (ordered : xs.Pairwise fun a b => compare (keyOf a) (keyOf b) = .lt) : xs.Nodup := by
  refine ordered.imp ?_
  rintro a b lt rfl
  rw [Std.ReflOrd.compare_self] at lt
  cases lt

theorem ordered_ext {xs ys : List ι}
    (xsOrdered : xs.Pairwise fun a b => compare (keyOf a) (keyOf b) = .lt)
    (ysOrdered : ys.Pairwise fun a b => compare (keyOf a) (keyOf b) = .lt)
    (same : ∀ x, x ∈ xs ↔ x ∈ ys) : xs = ys := by
  have perm := (List.perm_ext_iff_of_nodup (ordered_nodup xsOrdered)
    (ordered_nodup ysOrdered)).mpr same
  refine List.Perm.eq_of_pairwise ?_ xsOrdered ysOrdered perm
  intro a b _ _ lt lt'
  rw [Std.OrientedCmp.gt_iff_lt.mpr lt] at lt'
  cases lt'

theorem Holds.between_sublist {t' : Std.TreeMap κ ι} {more : List ι} (holds : Holds keyOf t items)
    (grown : Holds keyOf t' (items ++ more)) (lo hi : κ) :
    (between t lo hi).Sublist (between t' lo hi) := by
  classical
  have old : between t lo hi = (between t' lo hi).filter fun x => decide (x ∈ items) := by
    refine ordered_ext (holds.between_ordered lo hi) ((grown.between_ordered lo hi).filter _) ?_
    intro x
    rw [List.mem_filter, holds.mem_between, grown.mem_between, List.mem_append, decide_eq_true_eq]
    exact ⟨fun ⟨stored, bounds⟩ => ⟨⟨Or.inl stored, bounds⟩, stored⟩,
      fun ⟨⟨_, bounds⟩, stored⟩ => ⟨stored, bounds⟩⟩
  rw [old]
  exact List.filter_sublist

theorem Holds.between_all (holds : Holds keyOf t items) {lo hi : κ}
    (inside : ∀ x ∈ items, (compare (keyOf x) lo).isGE = true ∧
      (compare (keyOf x) hi).isLT = true) : (between t lo hi).Perm items := by
  have once := ordered_nodup (holds.between_ordered lo hi)
  refine (List.perm_ext_iff_of_nodup once holds.distinct.of_map).mpr fun x => ?_
  rw [holds.mem_between]
  exact ⟨And.left, fun stored => ⟨stored, inside x stored⟩⟩

theorem takeWhile_eq_filter {p : ι → Bool} {xs : List ι}
    (front : xs.Pairwise fun a b => p b = true → p a = true) : xs.takeWhile p = xs.filter p := by
  induction xs with
  | nil => rfl
  | cons x xs ih =>
      obtain ⟨first, rest⟩ := List.pairwise_cons.mp front
      cases here : p x with
      | true => rw [List.takeWhile_cons_of_pos here, List.filter_cons_of_pos here, ih rest]
      | false =>
          have none_ : xs.filter p = [] := List.filter_eq_nil_iff.mpr fun y member holds =>
            absurd (first y member holds) (by rw [here]; decide)
          have not_ : ¬ p x = true := by
            rw [here]
            decide
          rw [List.takeWhile_cons_of_neg not_, List.filter_cons_of_neg not_, none_]

end WriteOnce
