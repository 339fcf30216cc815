import Mathlib.Data.Finset.Card
import Mathlib.Logic.Relation

/-!
# Numbering an acyclic relation

On a finite set an acyclic relation has a numbering that increases along every edge, and one that
puts a given element after everything it does not lead to.
-/

namespace Ranking
open Relation Classical
variable {α : Type} {r : α → α → Prop} {s : Finset α}

noncomputable def rank (r : α → α → Prop) (s : Finset α) (x : α) : ℕ :=
  (s.filter fun y => TransGen r y x).card

theorem rank_le (x : α) : rank r s x ≤ s.card := Finset.card_filter_le _ _

theorem rank_lt (acyclic : ∀ x, ¬ TransGen r x x) {x y : α} (member : x ∈ s) (edge : r x y) :
    rank r s x < rank r s y := by
  apply Finset.card_lt_card
  rw [Finset.ssubset_iff_of_subset]
  · refine ⟨x, ?_, ?_⟩
    · simp [member, TransGen.single edge]
    · simp [acyclic x]
  · intro z before
    rw [Finset.mem_filter] at before ⊢
    exact ⟨before.1, before.2.tail edge⟩

noncomputable def rankAfter (r : α → α → Prop) (s : Finset α) (pivot x : α) : ℕ :=
  rank r s x + if ReflTransGen r pivot x then s.card + 1 else 0

theorem rankAfter_le (pivot x : α) : rankAfter r s pivot x ≤ 2 * s.card + 1 := by
  have le := rank_le (r := r) (s := s) x
  unfold rankAfter
  split <;> omega

theorem rankAfter_lt (acyclic : ∀ x, ¬ TransGen r x x) (pivot : α) {x y : α} (member : x ∈ s)
    (edge : r x y) : rankAfter r s pivot x < rankAfter r s pivot y := by
  have lt := rank_lt acyclic member edge
  unfold rankAfter
  by_cases led : ReflTransGen r pivot x
  · rw [if_pos led, if_pos (led.tail edge)]
    omega
  · rw [if_neg led]
    omega

theorem rankAfter_lt_pivot {pivot x : α} (unled : ¬ ReflTransGen r pivot x) :
    rankAfter r s pivot x < rankAfter r s pivot pivot := by
  have le := rank_le (r := r) (s := s) x
  unfold rankAfter
  rw [if_neg unled, if_pos .refl]
  omega

end Ranking
