import Mathlib.Data.List.Basic
import Mathlib.Data.List.Nodup

/-!
# Interleavings of dependent and independent events

Two sequences of events are interleavings of each other when neighbours that do not depend on each
other have changed places, any number of times. It is enough that the events of every dependent pair
come in the same order. A system in whose states independent events commute emits the same for both.
-/

namespace Interleaving
variable {α : Type} (Dep : α → α → Prop)

inductive Equivalent : List α → List α → Prop
  | nil : Equivalent [] []
  | cons (a : α) {u v : List α} (rest : Equivalent u v) : Equivalent (a :: u) (a :: v)
  | swap {a b : α} (free : ¬ Dep a b) (u : List α) : Equivalent (a :: b :: u) (b :: a :: u)
  | trans {u v w : List α} (first : Equivalent u v) (then_ : Equivalent v w) : Equivalent u w

variable {Dep}

theorem Equivalent.refl (u : List α) : Equivalent Dep u u := by
  induction u with
  | nil => exact .nil
  | cons a u ih => exact .cons a ih

theorem Equivalent.perm {u v : List α} (equivalent : Equivalent Dep u v) : u.Perm v := by
  induction equivalent with
  | nil => exact .nil
  | cons a _ ih => exact ih.cons a
  | swap _ u => exact .swap _ _ u
  | trans _ _ first then_ => exact first.trans then_

theorem equivalent_front {a : α} {front : List α} (free : ∀ b ∈ front, ¬ Dep a b)
    (back : List α) : Equivalent Dep (a :: (front ++ back)) (front ++ a :: back) := by
  induction front with
  | nil => exact .refl _
  | cons b front ih =>
      have later := ih fun c member => free c (List.mem_cons_of_mem _ member)
      exact (Equivalent.swap (free b List.mem_cons_self) _).trans (.cons b later)

variable [DecidableEq α]

def pair (a b : α) (u : List α) : List α := u.filter fun x => decide (x = a ∨ x = b)

theorem front_free {a : α} {u front back : List α} (first : a ∉ front)
    (same : ∀ b, Dep a b → pair a b (a :: u) = pair a b (front ++ a :: back)) :
    ∀ b ∈ front, ¬ Dep a b := by
  intro b member dep
  have heads := same b dep
  rw [pair, pair, List.filter_cons_of_pos (by simp), List.filter_append] at heads
  -- The pair starts with `a` on one side, and with an event of the front on the other.
  cases kept : front.filter fun x => decide (x = a ∨ x = b) with
  | nil => exact absurd (List.filter_eq_nil_iff.mp kept b member) (by simp)
  | cons c rest =>
      have inside : c ∈ front := List.mem_of_mem_filter (kept ▸ List.mem_cons_self)
      rw [kept, List.cons_append] at heads
      exact first ((List.cons.inj heads).1 ▸ inside)

theorem equivalent_of_pairs {u v : List α} (self : ∀ a ∈ u ++ v, Dep a a)
    (symm : ∀ a b, Dep a b → Dep b a) (same : ∀ a b, Dep a b → pair a b u = pair a b v) :
    Equivalent Dep u v := by
  induction u generalizing v with
  | nil =>
      cases v with
      | nil => exact .nil
      | cons b v =>
          have alone := same b b (self b List.mem_cons_self)
          rw [pair, pair, List.filter_cons_of_pos (by simp)] at alone
          cases alone
  | cons a u ih =>
      have present : a ∈ v := by
        have alone := same a a (self a List.mem_cons_self)
        rw [pair, List.filter_cons_of_pos (by simp)] at alone
        have member : a ∈ pair a a v := alone ▸ List.mem_cons_self
        exact List.mem_of_mem_filter member
      obtain ⟨front, back, rfl, first⟩ := List.eq_append_cons_of_mem present
      have free := front_free first fun b => same a b
      refine .trans (.cons a (ih ?_ fun c d dep => ?_)) (equivalent_front free back)
      · intro b member
        refine self b ?_
        simp only [List.mem_append, List.mem_cons] at member ⊢
        rcases member with left | left | right
        · exact Or.inl (Or.inr left)
        · exact Or.inr (Or.inl left)
        · exact Or.inr (Or.inr (Or.inr right))
      · have whole := same c d dep
        unfold pair at whole ⊢
        rw [List.filter_append]
        by_cases here : a = c ∨ a = d
        · -- The front has nothing of the pair, since it is free of `a`.
          have none_ : front.filter (fun x => decide (x = c ∨ x = d)) = [] := by
            refine List.filter_eq_nil_iff.mpr fun x member listed => ?_
            have dep' : Dep a x := by
              rcases of_decide_eq_true listed with rfl | rfl
              · rcases here with rfl | rfl
                · exact absurd member first
                · exact symm _ _ dep
              · rcases here with rfl | rfl
                · exact dep
                · exact absurd member first
            exact free x member dep'
          rw [List.filter_cons_of_pos (by simpa using here), List.filter_append, none_,
            List.nil_append, List.filter_cons_of_pos (by simpa using here)] at whole
          rw [none_, List.nil_append]
          exact (List.cons.inj whole).2
        · rwa [List.filter_cons_of_neg (by simpa using here), List.filter_append,
            List.filter_cons_of_neg (by simpa using here)] at whole

section
omit [DecidableEq α]
variable {σ β : Type} (step : σ → α → σ × Option β)

def emitted : σ → List α → List β
  | _, [] => []
  | s, a :: u => (step s a).2.toList ++ emitted (step s a).1 u

/-- `Alike` states cannot be told apart, and do not tell the order of independent events. -/
structure Commutes (Dep : α → α → Prop) (Alike : σ → σ → Prop) : Prop where
  congr : ∀ s s' a, Alike s s' →
    Alike (step s a).1 (step s' a).1 ∧ (step s a).2 = (step s' a).2
  swap : ∀ s a b, ¬ Dep a b → Alike (step (step s a).1 b).1 (step (step s b).1 a).1 ∧
    (step s a).2.toList ++ (step (step s a).1 b).2.toList =
      (step s b).2.toList ++ (step (step s b).1 a).2.toList

variable {step} {Alike : σ → σ → Prop}

theorem Commutes.emitted_alike (commutes : Commutes step Dep Alike) {s s' : σ}
    (alike : Alike s s') (u : List α) : emitted step s u = emitted step s' u := by
  induction u generalizing s s' with
  | nil => rfl
  | cons a u ih =>
      obtain ⟨after, same⟩ := commutes.congr s s' a alike
      rw [emitted, emitted, same, ih after]

theorem Equivalent.emitted_eq (commutes : Commutes step Dep Alike) {u v : List α}
    (equivalent : Equivalent Dep u v) (s : σ) : emitted step s u = emitted step s v := by
  induction equivalent generalizing s with
  | nil => rfl
  | cons a _ ih => rw [emitted, emitted, ih]
  | @swap a b free u =>
      obtain ⟨after, same⟩ := commutes.swap s a b free
      simp only [emitted, ← List.append_assoc]
      rw [same, commutes.emitted_alike after u]
  | trans _ _ first then_ => exact (first s).trans (then_ s)

end

end Interleaving
