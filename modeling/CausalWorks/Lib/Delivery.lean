import Mathlib.Data.List.Basic

/-!
# Buffered reads from a source that delivers in pieces

A source hands its items out in pieces of any positive size and may interrupt a read before it
delivers anything. Reading in a loop until enough items have arrived, or none are left, does not
depend on the pieces.
-/

namespace Delivery
variable {α : Type}

inductive Response where
  | interrupted
  | chunk (extra : Nat)
  deriving DecidableEq, Repr

/-- The items still to come, and how the next reads are answered. The items run out, so a finite
schedule describes every delivery; reads after it deliver in full. -/
structure Source (α : Type) where
  items : List α
  schedule : List Response
  deriving DecidableEq, Repr

inductive Outcome (α : Type) where
  | interrupted
  | read (items : List α)
  deriving DecidableEq, Repr

def Source.read (self : Source α) (want : Nat) : Outcome α × Source α :=
  match self.schedule with
  | [] => (.read (self.items.take want), { self with items := self.items.drop want })
  | .interrupted :: schedule => (.interrupted, { self with schedule })
  | .chunk extra :: schedule =>
      let size := min want (extra + 1)
      (.read (self.items.take size), { items := self.items.drop size, schedule })

structure BufReader (α : Type) where
  capacity : Nat
  inner : Source α
  buf : List α
  deriving DecidableEq, Repr

theorem Source.read_cases (self : Source α) {want : Nat} (wanted : 0 < want) :
    (∃ after, self.read want = (.interrupted, after) ∧ after.items = self.items ∧
      after.schedule.length + 1 = self.schedule.length) ∨
    ∃ after n, 0 < n ∧ n ≤ want ∧ self.read want = (.read (self.items.take n), after) ∧
      after.items = self.items.drop n ∧ after.schedule.length ≤ self.schedule.length := by
  obtain ⟨items, schedule⟩ := self
  unfold Source.read
  cases schedule with
  | nil => exact Or.inr ⟨_, want, wanted, Nat.le_refl _, rfl, rfl, Nat.le_refl _⟩
  | cons response schedule =>
      cases response with
      | interrupted => exact Or.inl ⟨_, rfl, rfl, rfl⟩
      | chunk extra =>
          exact Or.inr ⟨_, min want (extra + 1), by omega, Nat.min_le_left _ _, rfl, rfl,
            Nat.le_succ _⟩

namespace BufReader

def withCapacity (capacity : Nat) (inner : Source α) : BufReader α :=
  { capacity, inner, buf := [] }

/-- A read at least as large as the buffer goes past it when it is empty. -/
def read (self : BufReader α) (want : Nat) : Outcome α × BufReader α :=
  if self.buf.isEmpty then
    if self.capacity ≤ want then
      let (outcome, inner) := self.inner.read want
      (outcome, { self with inner })
    else
      match self.inner.read self.capacity with
      | (.interrupted, inner) => (.interrupted, { self with inner })
      | (.read items, inner) =>
          (.read (items.take want), { self with inner, buf := items.drop want })
  else (.read (self.buf.take want), { self with buf := self.buf.drop want })

def fill (want : Nat) : Nat → BufReader α → List α → Option (List α × BufReader α)
  | fuel, self, filled =>
    if want ≤ filled.length then some (filled, self)
    else
      match fuel with
      | 0 => none
      | fuel + 1 =>
        match self.read (want - filled.length) with
        | (.interrupted, self) => fill want fuel self filled
        | (.read items, self) =>
            if items.isEmpty then some (filled, self) else fill want fuel self (filled ++ items)

def pending (self : BufReader α) : List α := self.buf ++ self.inner.items

@[simp] theorem pending_withCapacity (capacity : Nat) (inner : Source α) :
    (withCapacity capacity inner).pending = inner.items := rfl

def reads (self : BufReader α) (want : Nat) : Nat := want + self.inner.schedule.length

theorem drop_take_append_drop (xs : List α) (size want : Nat) :
    (xs.take size).drop want ++ xs.drop size = xs.drop (min want size) := by
  rcases Nat.le_total want size with le | le
  · rw [Nat.min_eq_left le, List.drop_take]
    conv_rhs => rw [← List.take_append_drop (size - want) (xs.drop want), List.drop_drop]
    rw [Nat.add_sub_cancel' le]
  · rw [Nat.min_eq_right le, List.drop_eq_nil_of_le, List.nil_append]
    exact Nat.le_trans (List.length_take_le _ _) le

theorem take_append_take_drop (xs : List α) {size want : Nat} (le : size ≤ want) :
    xs.take size ++ (xs.drop size).take (want - (xs.take size).length) = xs.take want := by
  rcases Nat.le_total size xs.length with inside | all
  · rw [List.length_take_of_le inside, ← List.take_add, Nat.add_sub_cancel' le]
  · rw [List.take_of_length_le all, List.drop_eq_nil_of_le all, List.take_nil, List.append_nil,
      List.take_of_length_le (Nat.le_trans all le)]

theorem drop_drop_take (xs : List α) {size want : Nat} (le : size ≤ want) :
    (xs.drop size).drop (want - (xs.take size).length) = xs.drop want := by
  rcases Nat.le_total size xs.length with inside | all
  · rw [List.length_take_of_le inside, List.drop_drop, Nat.add_sub_cancel' le]
  · rw [List.drop_eq_nil_of_le all, List.drop_nil, List.drop_eq_nil_of_le (Nat.le_trans all le)]

theorem read_cases (self : BufReader α) (positive : 0 < self.capacity) {want : Nat}
    (wanted : 0 < want) :
    (∃ after, self.read want = (.interrupted, after) ∧ after.capacity = self.capacity ∧
      after.pending = self.pending ∧
      after.inner.schedule.length + 1 = self.inner.schedule.length) ∨
    ∃ after n, 0 < n ∧ n ≤ want ∧ self.read want = (.read (self.pending.take n), after) ∧
      after.capacity = self.capacity ∧ after.pending = self.pending.drop n ∧
      after.inner.schedule.length ≤ self.inner.schedule.length := by
  obtain ⟨capacity, inner, buf⟩ := self
  unfold BufReader.read
  cases buf with
  | nil =>
      simp only [List.isEmpty_nil, if_true, pending, List.nil_append]
      by_cases large : capacity ≤ want
      · rw [if_pos large]
        rcases inner.read_cases wanted with ⟨after, step, same, shorter⟩ |
          ⟨after, n, some_, most, step, rest, shorter⟩
        · rw [step]
          exact Or.inl ⟨_, rfl, rfl, by simp [same], shorter⟩
        · rw [step]
          exact Or.inr ⟨_, n, some_, most, rfl, rfl, by simp [rest], shorter⟩
      · rw [if_neg large]
        rcases inner.read_cases positive with ⟨after, step, same, shorter⟩ |
          ⟨after, n, some_, most, step, rest, shorter⟩
        · rw [step]
          exact Or.inl ⟨_, rfl, rfl, by simp [same], shorter⟩
        · rw [step]
          refine Or.inr ⟨⟨capacity, after, (inner.items.take n).drop want⟩, min want n, by omega,
            Nat.min_le_left _ _, ?_, rfl, ?_, shorter⟩
          · simp only [List.take_take]
          · rw [rest, drop_take_append_drop]
  | cons item buf =>
      simp only [List.isEmpty_cons, if_false, Bool.false_eq_true, pending]
      refine Or.inr ⟨⟨capacity, inner, (item :: buf).drop want⟩, min want (item :: buf).length,
        by simp; omega, Nat.min_le_left _ _, ?_, rfl, ?_, Nat.le_refl _⟩
      · rw [List.take_append_of_le_length (Nat.min_le_right _ _), ← List.take_eq_take_min]
      · rcases Nat.le_total want (item :: buf).length with le | le
        · rw [Nat.min_eq_left le, List.drop_append_of_le_length le]
        · rw [Nat.min_eq_right le, List.drop_left, List.drop_eq_nil_of_le le, List.nil_append]

theorem fill_ok (want : Nat) (fuel : Nat) (self : BufReader α) (filled : List α)
    (positive : 0 < self.capacity) (enough : self.reads (want - filled.length) ≤ fuel) :
    ∃ after, fill want fuel self filled =
        some (filled ++ self.pending.take (want - filled.length), after) ∧
      after.capacity = self.capacity ∧
      after.pending = self.pending.drop (want - filled.length) := by
  induction fuel generalizing self filled with
  | zero =>
      simp only [reads] at enough
      have full : want ≤ filled.length := by omega
      refine ⟨self, ?_, rfl, ?_⟩
      · rw [fill, if_pos full, Nat.sub_eq_zero_of_le full, List.take_zero, List.append_nil]
      · rw [Nat.sub_eq_zero_of_le full, List.drop_zero]
  | succ fuel ih =>
      by_cases full : want ≤ filled.length
      · refine ⟨self, ?_, rfl, ?_⟩
        · rw [fill, if_pos full, Nat.sub_eq_zero_of_le full, List.take_zero, List.append_nil]
        · rw [Nat.sub_eq_zero_of_le full, List.drop_zero]
      · simp only [reads] at enough
        rcases self.read_cases positive (by omega : 0 < want - filled.length) with
          ⟨next, step, capacity, same, shorter⟩ |
          ⟨next, n, some_, most, step, capacity, rest, shorter⟩
        · obtain ⟨after, done, kept, left⟩ := ih next filled (by omega) (by
            simp only [reads]
            omega)
          refine ⟨after, ?_, kept.trans capacity, by rw [left, same]⟩
          rw [fill, if_neg full]
          simp only [step, done, same]
        · by_cases empty : self.pending = []
          · refine ⟨next, ?_, capacity, by simp [rest, empty]⟩
            rw [fill, if_neg full]
            simp [step, empty]
          · have arrived : (self.pending.take n).length = min n self.pending.length :=
              List.length_take
            have left := List.length_pos_iff.mpr empty
            obtain ⟨after, done, kept, rest'⟩ :=
              ih next (filled ++ self.pending.take n) (by omega) (by
                simp only [reads, List.length_append]
                omega)
            have more : (self.pending.take n).isEmpty = false := by
              rw [List.isEmpty_eq_false_iff, ne_eq, ← List.length_eq_zero_iff]
              omega
            refine ⟨after, ?_, kept.trans capacity, ?_⟩
            · rw [fill, if_neg full]
              simp only [step, more, done, rest, Bool.false_eq_true, if_false]
              rw [List.append_assoc, List.length_append, Nat.sub_add_eq,
                take_append_take_drop _ most]
            · rw [rest', rest, List.length_append, Nat.sub_add_eq, drop_drop_take _ most]

def Within (self : BufReader α) (capacity : Nat) : Prop :=
  self.capacity = capacity ∧ self.buf.length ≤ capacity

theorem within_withCapacity (capacity : Nat) (inner : Source α) :
    (withCapacity capacity inner).Within capacity := ⟨rfl, Nat.zero_le _⟩

theorem length_source_read {self after : Source α} {want : Nat} {items : List α}
    (done : self.read want = (.read items, after)) : items.length ≤ want := by
  unfold Source.read at done
  split at done
  · obtain ⟨rfl, -⟩ := Prod.mk.inj done |>.imp_left Outcome.read.inj
    exact List.length_take_le _ _
  · cases done
  · obtain ⟨rfl, -⟩ := Prod.mk.inj done |>.imp_left Outcome.read.inj
    exact Nat.le_trans (List.length_take_le _ _) (Nat.min_le_left _ _)

theorem Within.read {self after : BufReader α} {capacity want : Nat} {outcome : Outcome α}
    (within : self.Within capacity) (done : self.read want = (outcome, after)) :
    after.Within capacity ∧ ∀ items, outcome = .read items → items.length ≤ want := by
  obtain ⟨kept, fits⟩ := within
  unfold BufReader.read at done
  split at done
  · split at done
    · obtain ⟨same, rfl⟩ := Prod.mk.inj done
      refine ⟨⟨kept, fits⟩, fun items is => ?_⟩
      exact length_source_read (Prod.ext (same.trans is) rfl)
    · split at done
      · obtain ⟨rfl, rfl⟩ := Prod.mk.inj done
        exact ⟨⟨kept, fits⟩, fun items is => nomatch is⟩
      · rename_i items inner arrived
        obtain ⟨rfl, rfl⟩ := Prod.mk.inj done
        refine ⟨⟨kept, ?_⟩, fun items is => ?_⟩
        · rw [List.length_drop]
          exact Nat.le_trans (Nat.sub_le _ _) (kept ▸ length_source_read arrived)
        · rw [← Outcome.read.inj is]
          exact List.length_take_le _ _
  · obtain ⟨rfl, rfl⟩ := Prod.mk.inj done
    refine ⟨⟨kept, ?_⟩, fun items is => ?_⟩
    · rw [List.length_drop]
      exact Nat.le_trans (Nat.sub_le _ _) fits
    · rw [← Outcome.read.inj is]
      exact List.length_take_le _ _

theorem Within.fill {self after : BufReader α} {capacity want fuel : Nat} {filled got : List α}
    (within : self.Within capacity) (room : filled.length ≤ want)
    (done : BufReader.fill want fuel self filled = some (got, after)) :
    after.Within capacity ∧ got.length ≤ want := by
  induction fuel generalizing self filled with
  | zero =>
      unfold BufReader.fill at done
      split at done
      · obtain ⟨rfl, rfl⟩ := Prod.mk.inj (Option.some.inj done)
        exact ⟨within, room⟩
      · cases done
  | succ fuel ih =>
      unfold BufReader.fill at done
      split at done
      · obtain ⟨rfl, rfl⟩ := Prod.mk.inj (Option.some.inj done)
        exact ⟨within, room⟩
      · dsimp only at done
        split at done
        · rename_i next step
          exact ih (within.read step).1 room done
        · rename_i items next step
          obtain ⟨within', short⟩ := within.read step
          split at done
          · obtain ⟨rfl, rfl⟩ := Prod.mk.inj (Option.some.inj done)
            exact ⟨within', room⟩
          · refine ih within' ?_ done
            have := short items rfl
            rw [List.length_append]
            omega

end BufReader
end Delivery
