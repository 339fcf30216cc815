import CausalWorks.History
import CausalWorks.Lib.CircularArray

/-!
# The ring buffer holds the newest transitions
-/

namespace CausalWorks.Proof
open CircularArray

abbrev RingHolds {CAP : Nat} (ring : RingBuffer CAP) (recent : List StateTransition) : Prop :=
  Holds ring.buf ring.head ring.len recent

theorem ringHolds_new {CAP : Nat} (positive : 0 < CAP) :
    RingHolds (RingBuffer.new : RingBuffer CAP) [] :=
  Holds.empty positive

theorem push_ok {CAP : Nat} {ring : RingBuffer CAP} {recent : List StateTransition}
    (holds : RingHolds ring recent) (t : StateTransition) :
    ∃ after, ring.push t = .ok after ∧ RingHolds after ((t :: recent).take CAP) := by
  unfold RingBuffer.push
  rw [dif_pos holds.head_lt]
  exact ⟨_, rfl, holds.push t⟩

theorem take_cons_take {α : Type} (n : Nat) (x : α) (xs : List α) :
    (x :: xs.take n).take n = (x :: xs).take n := by
  cases n with
  | zero => rfl
  | succ n => simp [List.take_take]

theorem pushes_ok {CAP : Nat} {ring : RingBuffer CAP} {history : History}
    (holds : RingHolds ring (history.take CAP)) (pushed : List StateTransition) :
    ∃ after, pushed.foldlM RingBuffer.push ring = .ok after ∧
      RingHolds after ((pushed.reverse ++ history).take CAP) := by
  induction pushed generalizing ring history with
  | nil => exact ⟨ring, rfl, holds⟩
  | cons t pushed ih =>
      obtain ⟨next, push, holds'⟩ := push_ok holds t
      rw [take_cons_take] at holds'
      rw [List.foldlM_cons, push, List.reverse_cons, List.append_assoc, List.singleton_append]
      exact ih holds'

theorem pushes_new {CAP : Nat} (positive : 0 < CAP) (pushed : List StateTransition) :
    ∃ after : RingBuffer CAP, pushed.foldlM RingBuffer.push .new = .ok after ∧
      RingHolds after (pushed.reverse.take CAP) := by
  have empty : RingHolds (.new : RingBuffer CAP) (([] : History).take CAP) := by
    rw [List.take_nil]
    exact ringHolds_new positive
  obtain ⟨after, filled, holds⟩ := pushes_ok empty pushed
  rw [List.append_nil] at holds
  exact ⟨after, filled, holds⟩

theorem slot_ok {CAP : Nat} {ring : RingBuffer CAP} {recent : List StateTransition}
    (holds : RingHolds ring recent) (i : Nat) (inside : i < recent.length) :
    ring.slot ((ring.head + CAP - 1 - i) % CAP) = .ok recent[i] := by
  have cell := holds.cell i inside
  unfold position at cell
  simp only [RingBuffer.slot, cell]

theorem iterRev_ok {CAP : Nat} {ring : RingBuffer CAP} {recent : List StateTransition}
    (holds : RingHolds ring recent) : ring.iterRev = recent.map Except.ok := by
  apply List.ext_getElem
  · simp [RingBuffer.iterRev, holds.len_eq]
  · intro i _ inside
    rw [List.length_map] at inside
    simp [RingBuffer.iterRev, slot_ok holds i inside]

theorem findFirst_ok {α : Type} (p : α → Bool) (xs : List α) :
    findFirst p (xs.map Except.ok) = .ok (xs.find? p) := by
  induction xs with
  | nil => rfl
  | cons x xs ih =>
      simp only [List.map_cons, findFirst, List.find?_cons, bind, Except.bind, pure, Except.pure]
      cases p x with
      | true => rfl
      | false => exact ih

theorem lastForNodeBefore_ok {CAP : Nat} {ring : RingBuffer CAP} {recent : List StateTransition}
    (holds : RingHolds ring recent) :
    ring.lastForNodeBefore = fun node beforeTs => .ok (lastBefore recent node beforeTs) := by
  funext node beforeTs
  rw [RingBuffer.lastForNodeBefore, iterRev_ok holds, findFirst_ok]
  rfl

theorem lastBefore_some {window : History} {node : NodeId} {beforeTs : UInt64}
    {t : StateTransition} (found : lastBefore window node beforeTs = some t) :
    t ∈ window ∧ t.node = node ∧ t.tsNs < beforeTs := by
  have hit := List.find?_some found
  simp only [Bool.and_eq_true, beq_iff_eq, decide_eq_true_eq] at hit
  exact ⟨List.mem_of_find?_eq_some found, hit⟩

theorem lastBefore_none {window : History} {node : NodeId} {beforeTs : UInt64} :
    lastBefore window node beforeTs = none ↔
      ∀ t ∈ window, t.node = node → ¬ t.tsNs < beforeTs := by
  simp [lastBefore, List.find?_eq_none]

theorem lastBefore_again {window : History} {node : NodeId} {beforeTs bound : UInt64}
    {t : StateTransition} (found : lastBefore window node beforeTs = some t)
    (above : t.tsNs < bound) (below : bound ≤ beforeTs) :
    lastBefore window node bound = some t := by
  induction window with
  | nil => simp [lastBefore] at found
  | cons head window ih =>
      unfold lastBefore at found ih ⊢
      rw [List.find?_cons] at found ⊢
      by_cases sameNode : head.node = node
      · by_cases older : head.tsNs < beforeTs
        · simp only [sameNode, beq_self_eq_true, older, decide_true, Bool.and_self,
            Option.some.injEq] at found
          subst found
          simp [sameNode, above]
        · have notOlder : ¬ head.tsNs < bound := fun lt => older (UInt64.lt_of_lt_of_le lt below)
          simp only [sameNode, older, decide_false, Bool.and_false] at found
          simpa [sameNode, notOlder] using ih found
      · have differs : (head.node == node) = false := by simpa using sameNode
        simp only [differs, Bool.false_and] at found
        simpa only [differs, Bool.false_and] using ih found

theorem toNat_add_one {x y : UInt64} (lt : x < y) : (x + 1).toNat = x.toNat + 1 := by
  have bound := UInt64.toNat_lt y
  rw [UInt64.lt_iff_toNat_lt] at lt
  rw [UInt64.toNat_add, UInt64.toNat_one, Nat.mod_eq_of_lt (by omega)]

theorem lastBefore_self {window : History} {node : NodeId} {beforeTs : UInt64}
    {t : StateTransition} (found : lastBefore window node beforeTs = some t) :
    lastBefore window t.node (t.tsNs + 1) = some t := by
  obtain ⟨-, sameNode, older⟩ := lastBefore_some found
  rw [sameNode]
  apply lastBefore_again found
  · rw [UInt64.lt_iff_toNat_lt, toNat_add_one older]
    omega
  · rw [UInt64.le_iff_toNat_le, toNat_add_one older]
    exact UInt64.lt_iff_toNat_lt.mp older

end CausalWorks.Proof
