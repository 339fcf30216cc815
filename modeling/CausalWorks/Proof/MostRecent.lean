import CausalWorks.Proof.Refinement

/-!
# The trigger lookup goes by arrival

The lookup takes the instance that was pushed last. It is the most recent one by its timestamp
unless the instances of the node arrived out of order, and the later ones have not caught up.
-/

namespace CausalWorks

/-- The last `min(count, CAP)` transitions of a sequence of pushes, oldest first. -/
def newest (CAP : Nat) (pushed : List StateTransition) : List StateTransition :=
  pushed.drop (pushed.length - CAP)

def StateTransition.InstanceBefore (self : StateTransition) (node : NodeId) (beforeTs : UInt64) :
    Prop :=
  self.node = node ∧ self.tsNs < beforeTs

/-- The instance with the greatest timestamp below the bound, the latest pushed among equals. -/
structure MostRecent (recent : List StateTransition) (node : NodeId) (beforeTs : UInt64)
    (found : Option StateTransition) : Prop where
  none_iff : found = none ↔ ∀ t ∈ recent, ¬ t.InstanceBefore node beforeTs
  greatest : ∀ t, found = some t → t.InstanceBefore node beforeTs ∧ ∃ earlier later,
    recent = earlier ++ t :: later ∧
    (∀ u ∈ earlier, u.InstanceBefore node beforeTs → u.tsNs ≤ t.tsNs) ∧
    ∀ u ∈ later, u.InstanceBefore node beforeTs → u.tsNs < t.tsNs

/-- An instance that is older than one pushed before it is followed by one that is not. -/
def CaughtUp (recent : List StateTransition) (node : NodeId) (beforeTs : UInt64) : Prop :=
  ∀ earlier u later, recent = earlier ++ u :: later → u.InstanceBefore node beforeTs →
    ∀ t ∈ earlier, t.InstanceBefore node beforeTs → u.tsNs < t.tsNs →
      ∃ v ∈ later, v.InstanceBefore node beforeTs ∧ t.tsNs ≤ v.tsNs

namespace Proof

theorem pushes_newest {CAP : Nat} (positive : 0 < CAP) (pushed : List StateTransition) :
    ∃ ring : RingBuffer CAP, pushed.foldlM RingBuffer.push .new = .ok ring ∧
      ring.lastForNodeBefore = fun node beforeTs =>
        .ok (lastBefore (newest CAP pushed).reverse node beforeTs) := by
  obtain ⟨ring, filled, holds⟩ := pushes_new positive pushed
  rw [List.take_reverse] at holds
  exact ⟨ring, filled, lastForNodeBefore_ok holds⟩

section
variable {recent : List StateTransition} {node : NodeId} {beforeTs : UInt64} {t : StateTransition}

theorem lastBefore_last (found : lastBefore recent.reverse node beforeTs = some t) :
    t.InstanceBefore node beforeTs ∧ ∃ earlier later, recent = earlier ++ t :: later ∧
      ∀ u ∈ later, ¬ u.InstanceBefore node beforeTs := by
  obtain ⟨-, isInstance⟩ := lastBefore_some found
  obtain ⟨-, newer, older, reversed, others⟩ := List.find?_eq_some_iff_append.mp found
  refine ⟨isInstance, older.reverse, newer.reverse, ?_, fun u member hit => ?_⟩
  · rw [← List.reverse_reverse recent, reversed, List.reverse_append, List.reverse_cons,
      List.append_assoc, List.singleton_append]
  · have other := others u (List.mem_reverse.mp member)
    simp [hit.1, hit.2] at other

theorem lastBefore_absent : lastBefore recent.reverse node beforeTs = none ↔
    ∀ t ∈ recent, ¬ t.InstanceBefore node beforeTs := by
  rw [lastBefore_none]
  simp only [List.mem_reverse, StateTransition.InstanceBefore, not_and]

theorem places {α : Type} {xs ys xs' ys' : List α} {x y : α}
    (same : xs ++ x :: ys = xs' ++ y :: ys') : x = y ∨ y ∈ ys ∧ x ∈ xs' ∨ y ∈ xs ∧ x ∈ ys' := by
  rcases List.append_eq_append_iff.mp same with ⟨middle, rfl, rest⟩ | ⟨middle, rfl, rest⟩
  · cases middle with
    | nil => exact Or.inl (List.cons.inj rest).1
    | cons z middle =>
        obtain ⟨rfl, rfl⟩ := List.cons.inj rest
        have later : y ∈ middle ++ y :: ys' := List.mem_append_right _ List.mem_cons_self
        have earlier : x ∈ xs ++ x :: middle := List.mem_append_right _ List.mem_cons_self
        exact Or.inr (Or.inl ⟨later, earlier⟩)
  · cases middle with
    | nil => exact Or.inl (List.cons.inj rest).1.symm
    | cons z middle =>
        obtain ⟨rfl, rfl⟩ := List.cons.inj rest
        have earlier : y ∈ xs' ++ y :: middle := List.mem_append_right _ List.mem_cons_self
        have later : x ∈ middle ++ x :: ys := List.mem_append_right _ List.mem_cons_self
        exact Or.inr (Or.inr ⟨earlier, later⟩)

theorem mostRecent_of_caughtUp (caughtUp : CaughtUp recent node beforeTs) :
    MostRecent recent node beforeTs (lastBefore recent.reverse node beforeTs) where
  none_iff := lastBefore_absent
  greatest t found := by
    obtain ⟨isInstance, earlier, later, split, last⟩ := lastBefore_last found
    refine ⟨isInstance, earlier, later, split, fun u member hit => ?_,
      fun u member hit => absurd hit (last u member)⟩
    by_contra older
    obtain ⟨v, member', hit', -⟩ := caughtUp earlier t later split isInstance u member hit
      (UInt64.not_le.mp older)
    exact last v member' hit'

theorem caughtUp_of_mostRecent
    (greatest : MostRecent recent node beforeTs (lastBefore recent.reverse node beforeTs)) :
    CaughtUp recent node beforeTs := by
  intro earlier u later split isInstance t member hit less
  cases found : lastBefore recent.reverse node beforeTs with
  | none =>
      have inside : u ∈ recent := split ▸ List.mem_append_right _ List.mem_cons_self
      exact absurd isInstance (lastBefore_absent.mp found u inside)
  | some v =>
      obtain ⟨isInstance', earlier', later', split', last⟩ := lastBefore_last found
      have above : t.tsNs ≤ v.tsNs := by
        have inside : t ∈ recent := split ▸ List.mem_append_left _ member
        obtain ⟨-, before, after, parts, before_le, after_lt⟩ := greatest.greatest v found
        rw [parts] at inside
        rcases List.mem_append.mp inside with first | rest
        · exact before_le t first hit
        · rcases List.mem_cons.mp rest with rfl | second
          · exact UInt64.le_refl _
          · exact UInt64.le_of_lt (after_lt t second hit)
      rcases places (split.symm.trans split') with rfl | ⟨inLater, -⟩ | ⟨-, inLater⟩
      · exact absurd less (UInt64.not_lt.mpr above)
      · exact ⟨v, inLater, isInstance', above⟩
      · exact absurd isInstance (last u inLater)

theorem caughtUp_of_ordered (ordered : recent.Pairwise fun a b => a.node = b.node → a.tsNs ≤ b.tsNs)
    (node : NodeId) (beforeTs : UInt64) : CaughtUp recent node beforeTs := by
  intro earlier u later split isInstance t member hit less
  rw [split] at ordered
  have before := (List.pairwise_append.mp ordered).2.2 t member u List.mem_cons_self
  exact absurd less (UInt64.not_lt.mpr (before (hit.1.trans isInstance.1.symm)))

end

/-- The trigger lookup returns the most recent instance exactly if every instance that arrived late
has been caught up with. -/
theorem most_recent_iff {CAP : Nat} (positive : 0 < CAP) (pushed : List StateTransition) :
    ∃ ring : RingBuffer CAP, pushed.foldlM RingBuffer.push .new = .ok ring ∧
      ∀ node beforeTs, ∃ found, ring.lastForNodeBefore node beforeTs = .ok found ∧
        (MostRecent (newest CAP pushed) node beforeTs found ↔
          CaughtUp (newest CAP pushed) node beforeTs) := by
  obtain ⟨ring, filled, lookup⟩ := pushes_newest positive pushed
  refine ⟨ring, filled, fun node beforeTs => ⟨_, congrFun (congrFun lookup node) beforeTs, ?_⟩⟩
  exact ⟨caughtUp_of_mostRecent, mostRecent_of_caughtUp⟩

theorem most_recent_iff_cell : ∃ ring : RingBuffer 2,
    [⟨0, Cell.amr, 10, none⟩, ⟨1, Cell.fanuc, 30, none⟩, ⟨2, Cell.amr, 20, none⟩].foldlM
      RingBuffer.push .new = .ok ring ∧
    ∃ found, ring.lastForNodeBefore Cell.amr 25 = .ok found ∧
      MostRecent [⟨1, Cell.fanuc, 30, none⟩, ⟨2, Cell.amr, 20, none⟩] Cell.amr 25 found := by
  obtain ⟨ring, filled, lookup⟩ := @most_recent_iff 2 (by decide)
    [⟨0, Cell.amr, 10, none⟩, ⟨1, Cell.fanuc, 30, none⟩, ⟨2, Cell.amr, 20, none⟩]
  obtain ⟨found, done, iff_⟩ := lookup Cell.amr 25
  exact ⟨ring, filled, found, done, iff_.mpr (caughtUp_of_ordered (by decide) _ _)⟩

theorem reordered_finds_older : ∃ ring : RingBuffer 4,
    [⟨0, Cell.amr, 20, none⟩, ⟨1, Cell.amr, 10, none⟩].foldlM RingBuffer.push .new = .ok ring ∧
    ring.lastForNodeBefore Cell.amr 30 = .ok (some ⟨1, Cell.amr, 10, none⟩) ∧
    ¬ MostRecent [⟨0, Cell.amr, 20, none⟩, ⟨1, Cell.amr, 10, none⟩] Cell.amr 30
      (some ⟨1, Cell.amr, 10, none⟩) := by
  refine ⟨_, rfl, rfl, fun recent => ?_⟩
  have caughtUp := @caughtUp_of_mostRecent [⟨0, Cell.amr, 20, none⟩, ⟨1, Cell.amr, 10, none⟩]
    Cell.amr 30 recent
  obtain ⟨v, member, -⟩ := caughtUp [⟨0, Cell.amr, 20, none⟩] ⟨1, Cell.amr, 10, none⟩ [] rfl
    ⟨rfl, by decide⟩ ⟨0, Cell.amr, 20, none⟩ List.mem_cons_self ⟨rfl, by decide⟩ (by decide)
  exact absurd member List.not_mem_nil

end Proof
end CausalWorks
