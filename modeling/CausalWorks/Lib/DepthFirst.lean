import Mathlib.Algebra.BigOperators.Group.List.Basic
import Mathlib.Algebra.Order.Ring.Nat
import Mathlib.Data.List.Nodup
import Mathlib.Logic.Function.Basic
import Mathlib.Logic.Relation

/-!
# Three-colour depth-first search

The invariant of an iterative search whose stack holds a node and the index of its next child.
White nodes are new, gray nodes are on the stack, black nodes are finished: no cycle goes through
them.
-/

namespace DepthFirst
open Relation

inductive Color where
  | white
  | gray
  | black
  deriving DecidableEq, Repr

variable {κ : Type} (succ : κ → List κ)

def Child (parent child : κ) : Prop := child ∈ succ parent

/-- The children before the index are black, but for the node just above on the stack. -/
def Explored (color : κ → Color) : Option κ → List (κ × ℕ) → Prop
  | _, [] => True
  | above, (node, i) :: below =>
      (∀ child ∈ above, Child succ node child) ∧
      (∀ child ∈ (succ node).take i, color child = .black ∨ some child = above) ∧
      Explored color (some node) below

structure Invariant (color : κ → Color) (stack : List (κ × ℕ)) : Prop where
  gray_iff : ∀ node, color node = .gray ↔ node ∈ stack.map Prod.fst
  distinct : (stack.map Prod.fst).Nodup
  explored : Explored succ color none stack
  finished : ∀ node, color node = .black → Acc (fun child parent => Child succ parent child) node

variable {succ} {color : κ → Color} {stack : List (κ × ℕ)} {node child : κ} {i : ℕ}

theorem Explored.update [DecidableEq κ] (notBlack : color node ≠ .black) (c : Color)
    {above : Option κ}    (explored : Explored succ color above stack) :
    Explored succ (Function.update color node c) above stack := by
  induction stack generalizing above with
  | nil => trivial
  | cons top below ih =>
      obtain ⟨link, done, rest⟩ := explored
      refine ⟨link, ?_, ih rest⟩
      intro other member
      rcases done other member with black | same
      · have differs : other ≠ node := by
          rintro rfl
          exact notBlack black
        left
        rwa [Function.update_of_ne differs]
      · exact Or.inr same

theorem Explored.forget (black : color node = .black)
    (explored : Explored succ color (some node) stack) : Explored succ color none stack := by
  cases stack with
  | nil => trivial
  | cons top below =>
      obtain ⟨-, done, rest⟩ := explored
      refine ⟨by simp, ?_, rest⟩
      intro other member
      rcases done other member with old | same
      · exact Or.inl old
      · rw [Option.some.inj same]
        exact Or.inl black

theorem Explored.path {above : κ} (explored : Explored succ color (some above) stack) :
    ∀ other ∈ stack.map Prod.fst, TransGen (Child succ) other above := by
  induction stack generalizing above with
  | nil => simp
  | cons top below ih =>
      obtain ⟨link, -, rest⟩ := explored
      have last : Child succ top.1 above := link above rfl
      intro other member
      rcases List.mem_cons.mp member with rfl | deeper
      · exact .single last
      · exact (ih rest other deeper).tail last

namespace Invariant

theorem empty : Invariant succ (fun _ : κ => .white) [] where
  gray_iff := by simp
  distinct := List.nodup_nil
  explored := trivial
  finished := by simp

theorem start [DecidableEq κ] (inv : Invariant succ color []) (node : κ) :
    Invariant succ (Function.update color node .gray) [(node, 0)] where
  gray_iff := by
    intro other
    by_cases same : other = node
    · simp [same]
    · simpa [same] using inv.gray_iff other
  distinct := List.nodup_singleton _
  explored := ⟨by simp, by simp, trivial⟩
  finished := by
    intro other black
    by_cases same : other = node
    · simp [same] at black
    · exact inv.finished other (by simpa [same] using black)

theorem white_not_mem (inv : Invariant succ color stack) (white : color node = .white) :
    node ∉ stack.map Prod.fst := by
  intro member
  rw [← inv.gray_iff, white] at member
  cases member

theorem skip (inv : Invariant succ color ((node, i) :: stack))
    (next : (succ node)[i]? = some child) (black : color child = .black) :
    Invariant succ color ((node, i + 1) :: stack) where
  gray_iff := inv.gray_iff
  distinct := inv.distinct
  finished := inv.finished
  explored := by
    obtain ⟨link, done, rest⟩ := inv.explored
    refine ⟨link, ?_, rest⟩
    intro other member
    rw [List.take_add_one, next] at member
    rcases List.mem_append.mp member with old | new
    · exact done other old
    · rw [Option.toList_some, List.mem_singleton] at new
      exact Or.inl (new ▸ black)

theorem descend [DecidableEq κ] (inv : Invariant succ color ((node, i) :: stack))
    (next : (succ node)[i]? = some child) (white : color child = .white) :
    Invariant succ (Function.update color child .gray)
      ((child, 0) :: (node, i + 1) :: stack) where
  gray_iff := by
    intro other
    by_cases same : other = child
    · simp [same]
    · simpa [same] using inv.gray_iff other
  distinct := List.nodup_cons.mpr ⟨inv.white_not_mem white, inv.distinct⟩
  finished := by
    intro other black
    by_cases same : other = child
    · simp [same] at black
    · exact inv.finished other (by simpa [same] using black)
  explored := by
    have notBlack : color child ≠ .black := by simp [white]
    obtain ⟨-, done, rest⟩ := Explored.update notBlack .gray inv.explored
    refine ⟨by simp, by simp, ?_, ?_, rest⟩
    · intro above same
      rw [← Option.some.inj same]
      exact List.mem_of_getElem? next
    · intro other member
      rw [List.take_add_one, next] at member
      rcases List.mem_append.mp member with old | new
      · rcases done other old with black | none_
        · exact Or.inl black
        · cases none_
      · rw [Option.toList_some, List.mem_singleton] at new
        exact Or.inr (new ▸ rfl)

theorem finish [DecidableEq κ] (inv : Invariant succ color ((node, i) :: stack))
    (last : (succ node)[i]? = none) :
    Invariant succ (Function.update color node .black) stack := by
  obtain ⟨fresh, distinct⟩ := List.nodup_cons.mp inv.distinct
  have gray : color node = .gray := (inv.gray_iff node).mpr List.mem_cons_self
  have notBlack : color node ≠ .black := by simp [gray]
  obtain ⟨-, done, rest⟩ := inv.explored
  constructor
  · intro other
    by_cases same : other = node
    · simp [same, fresh]
    · simpa [same] using inv.gray_iff other
  · exact distinct
  · exact (rest.update notBlack .black).forget (Function.update_self node _ color)
  · intro other black
    by_cases same : other = node
    · rw [same]
      constructor
      intro other member
      have all : (succ node).take i = succ node :=
        List.take_of_length_le (List.getElem?_eq_none_iff.mp last)
      rcases done other (all.symm ▸ member) with black | none_
      · exact inv.finished other black
      · cases none_
    · exact inv.finished other (by simpa [same] using black)

theorem cycle (inv : Invariant succ color ((node, i) :: stack))
    (next : (succ node)[i]? = some child) (gray : color child = .gray) :
    TransGen (Child succ) child child := by
  have last : Child succ node child := List.mem_of_getElem? next
  rcases List.mem_cons.mp ((inv.gray_iff child).mp gray) with same | deeper
  · exact .single (same ▸ last)
  · exact (inv.explored.2.2.path child deeper).tail last

theorem acyclic (inv : Invariant succ color []) (visited : color node ≠ .white) :
    ¬ TransGen (Child succ) node node := by
  have black : color node = .black := by
    cases known : color node with
    | white => exact absurd known visited
    | gray => simpa using (inv.gray_iff node).mp known
    | black => rfl
  have loopless : ∀ {n}, Acc (TransGen fun child parent => Child succ parent child) n →
      ¬ TransGen (fun child parent => Child succ parent child) n n := by
    intro n acc
    induction acc with
    | intro n _ ih => exact fun loop => ih n loop loop
  exact fun cycle => loopless (inv.finished node black).transGen (transGen_swap.mpr cycle)

end Invariant

variable (succ)

def potential (nodes : List κ) (color : κ → Color) (stack : List (κ × ℕ)) : ℕ :=
  ((nodes.filter fun n => color n = .white).map fun n => (succ n).length + 1).sum +
    (stack.map fun entry => (succ entry.1).length - entry.2 + 1).sum

variable {succ} {nodes : List κ}

theorem potential_skip (nodes : List κ) (color : κ → Color) (stack : List (κ × ℕ))
    (next : (succ node)[i]? = some child) :
    potential succ nodes color ((node, i + 1) :: stack) + 1 =
      potential succ nodes color ((node, i) :: stack) := by
  have inside : i < (succ node).length := (List.getElem?_eq_some_iff.mp next).1
  simp only [potential, List.map_cons, List.sum_cons]
  omega

theorem white_share [DecidableEq κ] (succ : κ → List κ) (member : node ∈ nodes)
    (white : color node = .white) {c : Color} (other : c ≠ .white) :
    ((nodes.filter fun n => Function.update color node c n = .white).map
        fun n => (succ n).length + 1).sum + ((succ node).length + 1) ≤
      ((nodes.filter fun n => color n = .white).map fun n => (succ n).length + 1).sum := by
  have shrink : ∀ list : List κ,
      ((list.filter fun n => Function.update color node c n = .white).map
          fun n => (succ n).length + 1).sum ≤
        ((list.filter fun n => color n = .white).map fun n => (succ n).length + 1).sum := by
    intro list
    induction list with
    | nil => simp
    | cons n list ih =>
        by_cases same : n = node
        · subst same
          rw [List.filter_cons_of_neg (by simpa using other), List.filter_cons_of_pos (by simpa)]
          simp only [List.map_cons, List.sum_cons]
          omega
        · by_cases here : color n = .white
          · rw [List.filter_cons_of_pos (by simpa [same]), List.filter_cons_of_pos (by simpa)]
            simp only [List.map_cons, List.sum_cons]
            omega
          · rw [List.filter_cons_of_neg (by simpa [same]), List.filter_cons_of_neg (by simpa)]
            exact ih
  induction nodes with
  | nil => cases member
  | cons n list ih =>
      by_cases same : n = node
      · subst same
        have rest := shrink list
        rw [List.filter_cons_of_neg (by simpa using other), List.filter_cons_of_pos (by simpa)]
        simp only [List.map_cons, List.sum_cons]
        omega
      · have rest := ih ((List.mem_cons.mp member).resolve_left (Ne.symm same))
        by_cases here : color n = .white
        · rw [List.filter_cons_of_pos (by simpa [same]), List.filter_cons_of_pos (by simpa)]
          simp only [List.map_cons, List.sum_cons]
          omega
        · rw [List.filter_cons_of_neg (by simpa [same]), List.filter_cons_of_neg (by simpa)]
          exact rest

theorem potential_start [DecidableEq κ] (succ : κ → List κ) (stack : List (κ × ℕ))
    (member : node ∈ nodes) (white : color node = .white) :
    potential succ nodes (Function.update color node .gray) ((node, 0) :: stack) ≤
      potential succ nodes color stack := by
  have share := white_share succ member white (c := .gray) (by decide)
  simp only [potential, List.map_cons, List.sum_cons]
  omega

theorem potential_descend [DecidableEq κ] (stack : List (κ × ℕ))
    (next : (succ node)[i]? = some child) (member : child ∈ nodes) (white : color child = .white) :
    potential succ nodes (Function.update color child .gray)
        ((child, 0) :: (node, i + 1) :: stack) + 1 ≤
      potential succ nodes color ((node, i) :: stack) := by
  have skipped := potential_skip nodes color stack next
  have started := potential_start succ ((node, i + 1) :: stack) member white
  omega

theorem potential_finish [DecidableEq κ] (succ : κ → List κ) (nodes : List κ)
    (stack : List (κ × ℕ)) (i : ℕ) (visited : color node ≠ .white) :
    potential succ nodes (Function.update color node .black) stack + 1 ≤
      potential succ nodes color ((node, i) :: stack) := by
  have same : (fun n => decide (Function.update color node .black n = .white)) =
      fun n => decide (color n = .white) := by
    funext n
    by_cases here : n = node <;> simp [here, visited]
  simp only [potential, same, List.map_cons, List.sum_cons]
  omega

theorem potential_le (nodes : List κ) (color : κ → Color) : potential succ nodes color [] ≤
    nodes.length + (nodes.map fun n => (succ n).length).sum := by
  simp only [potential, List.map_nil, List.sum_nil, Nat.add_zero]
  induction nodes with
  | nil => simp
  | cons n nodes ih =>
      by_cases white : color n = .white
      · rw [List.filter_cons_of_pos (by simpa)]
        simp only [List.map_cons, List.sum_cons, List.length_cons]
        omega
      · rw [List.filter_cons_of_neg (by simpa)]
        simp only [List.map_cons, List.sum_cons, List.length_cons]
        omega

end DepthFirst
