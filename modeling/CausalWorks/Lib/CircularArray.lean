import Mathlib.Data.List.Basic
import Mathlib.Tactic.SplitIfs

/-!
# Circular arrays

A fixed array of optional cells with a write position and a count holds the most recent values
pushed into it. The value pushed `i` steps before the newest sits `i + 1` cells behind the write
position.
-/

namespace CircularArray
variable {α : Type} {cap : Nat}

def position (cap head i : Nat) : Nat := (head + cap - 1 - i) % cap

theorem position_advance_zero {head : Nat} (bound : head < cap) :
    position cap ((head + 1) % cap) 0 = head := by
  unfold position
  rcases Nat.lt_or_ge (head + 1) cap with inside | wrap
  · rw [Nat.mod_eq_of_lt inside, show head + 1 + cap - 1 - 0 = head + cap by omega,
      Nat.add_mod_right, Nat.mod_eq_of_lt bound]
  · have last : head + 1 = cap := by omega
    rw [last, Nat.mod_self, show 0 + cap - 1 - 0 = head by omega, Nat.mod_eq_of_lt bound]

theorem position_advance_succ {head i : Nat} (bound : head < cap) (small : i + 1 < cap) :
    position cap ((head + 1) % cap) (i + 1) = position cap head i := by
  unfold position
  rcases Nat.lt_or_ge (head + 1) cap with inside | wrap
  · rw [Nat.mod_eq_of_lt inside]
    congr 1
    omega
  · have last : head + 1 = cap := by omega
    rw [last, Nat.mod_self, show head + cap - 1 - i = 0 + cap - 1 - (i + 1) + cap by omega,
      Nat.add_mod_right]

theorem position_ne_head {head i : Nat} (bound : head < cap) (small : i + 1 < cap) :
    position cap head i ≠ head := by
  unfold position
  rcases Nat.lt_or_ge i head with behind | wrap
  · rw [show head + cap - 1 - i = head - 1 - i + cap by omega, Nat.add_mod_right,
      Nat.mod_eq_of_lt (by omega)]
    omega
  · rw [Nat.mod_eq_of_lt (by omega)]
    omega

structure Holds (buf : Vector (Option α) cap) (head len : Nat) (recent : List α) : Prop where
  head_lt : head < cap
  len_eq : len = recent.length
  len_le : recent.length ≤ cap
  cell : ∀ i (inside : i < recent.length),
    buf[position cap head i]? = some (some recent[i])

theorem Holds.empty (positive : 0 < cap) :
    Holds (Vector.replicate cap (none : Option α)) 0 0 [] where
  head_lt := positive
  len_eq := rfl
  len_le := Nat.zero_le _
  cell := fun _ inside => absurd inside (Nat.not_lt_zero _)

theorem Holds.push {buf : Vector (Option α) cap} {head len : Nat} {recent : List α}
    (holds : Holds buf head len recent) (x : α) :
    Holds (buf.set head (some x) holds.head_lt) ((head + 1) % cap)
      (if len < cap then len + 1 else len) ((x :: recent).take cap) := by
  have bound := holds.head_lt
  have full := holds.len_le
  constructor
  · exact Nat.mod_lt _ (by omega)
  · rw [holds.len_eq, List.length_take, List.length_cons]
    split_ifs <;> omega
  · rw [List.length_take]
    omega
  · intro i inside
    rw [List.length_take, List.length_cons] at inside
    rw [List.getElem_take]
    cases i with
    | zero =>
        rw [position_advance_zero bound, Vector.getElem?_set_self]
        rfl
    | succ i =>
        have small : i + 1 < cap := by omega
        rw [position_advance_succ bound small,
          Vector.getElem?_set_ne _ (position_ne_head bound small).symm]
        exact holds.cell i (by omega)

end CircularArray
