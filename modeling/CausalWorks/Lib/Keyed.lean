import Mathlib.Algebra.Order.BigOperators.Group.List
import Mathlib.Algebra.Order.Ring.Nat
import Mathlib.Data.List.Nodup

/-!
# Accumulators under keys

A table that folds each item of a stream into the value under the item's key. Streams of different
keys do not see each other: the value under a key is a fold over the items of that key alone.
-/

namespace Keyed
variable {κ ν ι : Type} [DecidableEq κ]

def update (key : κ) (fresh : ν) (change : ν → ν) : List (κ × ν) → List (κ × ν)
  | [] => [(key, change fresh)]
  | (k, v) :: entries =>
      if k = key then (k, change v) :: entries else (k, v) :: update key fresh change entries

theorem keys_update (key : κ) (fresh : ν) (change : ν → ν) (entries : List (κ × ν)) :
    (update key fresh change entries).map Prod.fst =
      if key ∈ entries.map Prod.fst then entries.map Prod.fst
      else entries.map Prod.fst ++ [key] := by
  induction entries with
  | nil => rfl
  | cons entry entries ih =>
      obtain ⟨k, v⟩ := entry
      unfold update
      by_cases here : k = key
      · simp [here]
      · simp only [if_neg here, List.map_cons, ih, List.mem_cons, Ne.symm here, false_or]
        split <;> rfl

theorem nodup_update {key : κ} {fresh : ν} {change : ν → ν} {entries : List (κ × ν)}
    (distinct : (entries.map Prod.fst).Nodup) :
    ((update key fresh change entries).map Prod.fst).Nodup := by
  rw [keys_update]
  split
  · exact distinct
  · rename_i absent
    exact List.nodup_append.mpr ⟨distinct, List.nodup_singleton _, fun k member k' member' => by
      rw [List.mem_singleton.mp member']
      exact fun same => absent (same ▸ member)⟩

theorem lookup_update (key : κ) (fresh : ν) (change : ν → ν) (entries : List (κ × ν)) (k : κ) :
    (update key fresh change entries).lookup k =
      if k = key then some (change ((entries.lookup key).getD fresh)) else entries.lookup k := by
  induction entries with
  | nil =>
      by_cases here : k = key
      · simp [update, here]
      · simp [update, here]
  | cons entry entries ih =>
      obtain ⟨k', v⟩ := entry
      unfold update
      by_cases first : k' = key
      · subst first
        by_cases here : k = k'
        · simp [here]
        · have other : (k == k') = false := beq_false_of_ne here
          simp [List.lookup_cons, here, other]
      · have other : (key == k') = false := beq_false_of_ne (Ne.symm first)
        rw [if_neg first, List.lookup_cons, List.lookup_cons, List.lookup_cons, ih, other]
        by_cases here : k = k'
        · subst here
          simp [first]
        · simp [beq_false_of_ne here]

/-- Values under distinct keys, in the order in which the keys first came. -/
structure Table (κ ν : Type) where
  entries : List (κ × ν)
  distinct : (entries.map Prod.fst).Nodup

namespace Table

def empty : Table κ ν := ⟨[], List.nodup_nil⟩

def value (self : Table κ ν) (key : κ) : Option ν := self.entries.lookup key

def upsert (self : Table κ ν) (key : κ) (fresh : ν) (change : ν → ν) : Table κ ν :=
  ⟨update key fresh change self.entries, nodup_update self.distinct⟩

@[simp] theorem value_empty (key : κ) : (empty : Table κ ν).value key = none := rfl

theorem value_upsert (self : Table κ ν) (key : κ) (fresh : ν) (change : ν → ν) (k : κ) :
    (self.upsert key fresh change).value k =
      if k = key then some (change ((self.value key).getD fresh)) else self.value k :=
  lookup_update key fresh change self.entries k

theorem lookup_eq_some {entries : List (κ × ν)}
    (distinct : (entries.map Prod.fst).Nodup) {key : κ} {v : ν} :
    entries.lookup key = some v ↔ (key, v) ∈ entries := by
  induction entries with
  | nil => simp
  | cons entry entries ih =>
      obtain ⟨k, w⟩ := entry
      rw [List.map_cons, List.nodup_cons] at distinct
      rw [List.lookup_cons, List.mem_cons, Prod.mk.injEq]
      by_cases here : key = k
      · subst here
        have elsewhere : ∀ w, (key, w) ∉ entries :=
          fun w member => distinct.1 (List.mem_map.mpr ⟨_, member, rfl⟩)
        simp [elsewhere, eq_comm]
      · have other : (key == k) = false := beq_false_of_ne here
        rw [other]
        simp [here, ih distinct.2]

theorem mem_entries {self : Table κ ν} {key : κ} {v : ν} :
    (key, v) ∈ self.entries ↔ self.value key = some v :=
  (lookup_eq_some self.distinct).symm

theorem mem_keys {self : Table κ ν} {key : κ} :
    key ∈ self.entries.map Prod.fst ↔ ∃ v, self.value key = some v := by
  rw [List.mem_map]
  constructor
  · rintro ⟨⟨_, v⟩, member, rfl⟩
    exact ⟨v, mem_entries.mp member⟩
  · rintro ⟨v, held⟩
    exact ⟨(key, v), mem_entries.mpr held, rfl⟩

section Accumulate
variable (keyOf : ι → κ) (fresh : κ → ν) (step : ν → ι → ν)

def accumulate (self : Table κ ν) (x : ι) : Table κ ν :=
  self.upsert (keyOf x) (fresh (keyOf x)) (step · x)

def own (key : κ) (xs : List ι) : List ι := xs.filter fun x => decide (keyOf x = key)

theorem own_own (key : κ) (xs : List ι) : own keyOf key (own keyOf key xs) = own keyOf key xs := by
  simp only [own, List.filter_filter, Bool.and_self]

theorem mem_own {key : κ} {xs : List ι} {x : ι} :
    x ∈ own keyOf key xs ↔ x ∈ xs ∧ keyOf x = key := by
  simp only [own, List.mem_filter, decide_eq_true_eq]

theorem value_foldl (self : Table κ ν) (xs : List ι) (key : κ) :
    (xs.foldl (accumulate keyOf fresh step) self).value key =
      (own keyOf key xs).foldl (fun v x => some (step (v.getD (fresh key)) x))
        (self.value key) := by
  induction xs generalizing self with
  | nil => rfl
  | cons x xs ih =>
      rw [List.foldl_cons, ih, accumulate, value_upsert, own, own, List.filter_cons]
      by_cases here : keyOf x = key
      · simp [here]
      · simp [here, Ne.symm here]

omit [DecidableEq κ] in
theorem foldl_some (key : κ) (v : ν) (xs : List ι) :
    xs.foldl (fun v x => some (step (v.getD (fresh key)) x)) (some v) =
      some (xs.foldl step v) := by
  induction xs generalizing v with
  | nil => rfl
  | cons x xs ih =>
      rw [List.foldl_cons, List.foldl_cons]
      exact ih (step v x)

theorem value_accumulated (xs : List ι) (key : κ) :
    (xs.foldl (accumulate keyOf fresh step) empty).value key =
      if own keyOf key xs = [] then none
      else some ((own keyOf key xs).foldl step (fresh key)) := by
  rw [value_foldl, value_empty]
  cases own keyOf key xs with
  | nil => rfl
  | cons x rest =>
      rw [if_neg (List.cons_ne_nil _ _)]
      exact foldl_some fresh step key (step (fresh key) x) rest

theorem value_own (xs : List ι) (key : κ) :
    (xs.foldl (accumulate keyOf fresh step) empty).value key =
      ((own keyOf key xs).foldl (accumulate keyOf fresh step) empty).value key := by
  rw [value_accumulated, value_accumulated, own_own]

end Accumulate

def total (g : ν → Nat) (self : Table κ ν) : Nat := (self.entries.map fun entry => g entry.2).sum

theorem sum_update {g : ν → Nat} {good : ν → Prop} (key : κ) {fresh : ν} {change : ν → ν}
    (first : good (change fresh) ∧ g (change fresh) = 1)
    (more : ∀ v, good v → good (change v) ∧ g (change v) = g v + 1) {entries : List (κ × ν)}
    (all : ∀ entry ∈ entries, good entry.2) :
    (∀ entry ∈ update key fresh change entries, good entry.2) ∧
      ((update key fresh change entries).map fun entry => g entry.2).sum =
        (entries.map fun entry => g entry.2).sum + 1 := by
  induction entries with
  | nil =>
      refine ⟨?_, ?_⟩
      · intro entry member
        rw [List.mem_singleton.mp member]
        exact first.1
      · simp [update, first.2]
  | cons entry entries ih =>
      obtain ⟨k, v⟩ := entry
      obtain ⟨here, others⟩ := List.forall_mem_cons.mp all
      obtain ⟨good', sum'⟩ := ih others
      unfold update
      split
      · refine ⟨List.forall_mem_cons.mpr ⟨(more v here).1, others⟩, ?_⟩
        simp only [List.map_cons, List.sum_cons, (more v here).2]
        omega
      · refine ⟨List.forall_mem_cons.mpr ⟨here, good'⟩, ?_⟩
        simp only [List.map_cons, List.sum_cons, sum']
        omega

theorem total_accumulated {g : ν → Nat} (good : ν → Prop) {keyOf : ι → κ} {fresh : κ → ν}
    {step : ν → ι → ν} (first : ∀ k x, good (step (fresh k) x) ∧ g (step (fresh k) x) = 1)
    (more : ∀ v x, good v → good (step v x) ∧ g (step v x) = g v + 1) (xs : List ι) :
    (xs.foldl (accumulate keyOf fresh step) empty).total g = xs.length := by
  have counted : ∀ (xs : List ι) (self : Table κ ν), (∀ entry ∈ self.entries, good entry.2) →
      (xs.foldl (accumulate keyOf fresh step) self).total g = self.total g + xs.length := by
    intro xs
    induction xs with
    | nil => exact fun _ _ => rfl
    | cons x xs ih =>
        intro self all
        obtain ⟨good', sum'⟩ := sum_update (keyOf x) (first (keyOf x) x)
          (fun v here => more v x here) all
        rw [List.foldl_cons, ih _ good', List.length_cons]
        have one : (self.accumulate keyOf fresh step x).total g = self.total g + 1 := sum'
        omega
  rw [counted xs empty (fun entry member => absurd member List.not_mem_nil)]
  exact Nat.zero_add _

def count (self : Table κ Nat) (key : κ) : Table κ Nat := self.upsert key 0 (· + 1)

def tally (keys : List κ) : Table κ Nat := keys.foldl count empty

theorem tally_eq (keys : List κ) :
    tally keys = keys.foldl (accumulate id (fun _ => 0) fun n _ => n + 1) empty := rfl

omit [DecidableEq κ] in
theorem foldl_count (keys : List κ) (n : Nat) :
    keys.foldl (fun n _ => n + 1) n = n + keys.length := by
  induction keys generalizing n with
  | nil => rfl
  | cons _ keys ih =>
      rw [List.foldl_cons, ih, List.length_cons]
      omega

theorem value_tally (keys : List κ) (key : κ) :
    ((tally keys).value key).getD 0 = keys.countP fun k => decide (k = key) := by
  have own_eq : own id key keys = keys.filter fun k => decide (k = key) := rfl
  rw [tally_eq, value_accumulated, List.countP_eq_length_filter, ← own_eq]
  split
  · rename_i none_
    rw [none_]
    rfl
  · rw [Option.getD_some, foldl_count, Nat.zero_add]

theorem tally_some {keys : List κ} {key : κ} {n : Nat} :
    (tally keys).value key = some n ↔ 0 < n ∧ n = keys.countP fun k => decide (k = key) := by
  have own_eq : own id key keys = keys.filter fun k => decide (k = key) := rfl
  rw [tally_eq, value_accumulated, List.countP_eq_length_filter, ← own_eq, foldl_count,
    Nat.zero_add]
  split
  · rename_i none_
    rw [none_, List.length_nil]
    constructor
    · exact nofun
    · rintro ⟨positive, rfl⟩
      exact absurd positive (Nat.lt_irrefl 0)
  · rename_i some_
    have positive := List.length_pos_iff.mpr some_
    rw [Option.some.injEq]
    constructor
    · rintro rfl
      exact ⟨positive, rfl⟩
    · exact fun is => is.2.symm

theorem total_tally (keys : List κ) : (tally keys).total id = keys.length := by
  rw [tally_eq]
  refine total_accumulated (fun _ => True) ?_ ?_ keys
  · exact fun _ _ => ⟨trivial, rfl⟩
  · exact fun _ _ _ => ⟨trivial, rfl⟩

def Grown (le : ν → ν → Prop) (self other : Table κ ν) : Prop :=
  ∀ k v, self.value k = some v → ∃ w, other.value k = some w ∧ le v w

theorem Grown.refl {le : ν → ν → Prop} (le_refl : ∀ v, le v v) (self : Table κ ν) :
    Grown le self self := fun _ v held => ⟨v, held, le_refl v⟩

theorem Grown.trans {le : ν → ν → Prop} {a b c : Table κ ν} (first : Grown le a b)
    (then_ : Grown le b c) (le_trans : ∀ {u v w}, le u v → le v w → le u w) : Grown le a c := by
  intro k v held
  obtain ⟨w, held', le⟩ := first k v held
  obtain ⟨x, held'', le'⟩ := then_ k w held'
  exact ⟨x, held'', le_trans le le'⟩

theorem grown_upsert {le : ν → ν → Prop} (le_refl : ∀ v, le v v) {change : ν → ν}
    (more : ∀ v, le v (change v)) (self : Table κ ν) (key : κ) (fresh : ν) :
    Grown le self (self.upsert key fresh change) := by
  intro k v held
  rw [value_upsert]
  split
  · rename_i here
    subst here
    rw [held]
    exact ⟨change v, rfl, more v⟩
  · exact ⟨v, held, le_refl v⟩

theorem all_upsert {good : ν → Prop} {self : Table κ ν} {key : κ} {fresh : ν} {change : ν → ν}
    (all : ∀ k v, self.value k = some v → good v) (first : good (change fresh))
    (more : ∀ v, good v → good (change v)) :
    ∀ k v, (self.upsert key fresh change).value k = some v → good v := by
  intro k v held
  rw [value_upsert] at held
  split at held
  · obtain rfl := Option.some.inj held
    cases old : self.value key with
    | none => exact first
    | some w => exact more w (all key w old)
  · exact all k v held

omit [DecidableEq κ] in
theorem length_entries_le {n : Nat} {code : κ → Nat} (injective : Function.Injective code)
    (bound : ∀ k, code k < n) (self : Table κ ν) : self.entries.length ≤ n := by
  have codes : ((self.entries.map Prod.fst).map code).Nodup := self.distinct.map injective
  have inside : (self.entries.map Prod.fst).map code ⊆ List.range n := by
    intro c member
    obtain ⟨k, -, rfl⟩ := List.mem_map.mp member
    exact List.mem_range.mpr (bound k)
  have le := (List.subperm_of_subset codes inside).length_le
  rwa [List.length_map, List.length_map, List.length_range] at le

theorem total_le {g : ν → Nat} {most : Nat} {self : Table κ ν}
    (each : ∀ k v, self.value k = some v → g v ≤ most) :
    self.total g ≤ self.entries.length * most := by
  have all : ∀ w ∈ self.entries.map fun entry => g entry.2, w ≤ most := by
    intro w member
    obtain ⟨⟨k, v⟩, inside, rfl⟩ := List.mem_map.mp member
    exact each k v (mem_entries.mp inside)
  have le := List.sum_le_card_nsmul _ most all
  rw [List.length_map] at le
  exact le

end Table
end Keyed
