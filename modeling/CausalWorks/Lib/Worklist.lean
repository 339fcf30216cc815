import Mathlib.Data.List.Basic
import Mathlib.Data.List.Chain
import Mathlib.Data.List.Count
import Mathlib.Data.List.Nodup

/-!
# Stack-driven search that marks keys as visited

Items are popped from a stack. An item whose key has been seen is dropped; any other is expanded,
its key is marked, and its successors are pushed in order. Several items may share a key, and then
only the first one popped is expanded.
-/

namespace Worklist
variable {ι κ : Type} [DecidableEq κ] (key : ι → κ) (succ : ι → List ι)

/-- The items expanded within `fuel` pops, in order. The top of the stack is its head. -/
def expansions : Nat → List κ → List ι → List ι
  | 0, _, _ => []
  | _ + 1, _, [] => []
  | fuel + 1, visited, x :: stack =>
      if key x ∈ visited then expansions fuel visited stack
      else x :: expansions fuel (key x :: visited) ((succ x).reverse ++ stack)

variable {key succ}

@[simp] theorem expansions_nil (fuel : Nat) (visited : List κ) :
    expansions key succ fuel visited [] = [] := by
  cases fuel <;> rfl

theorem expansions_induction {P : ι → Prop} (handed : ∀ x, P x → ∀ y ∈ succ x, P y)
    (fuel : Nat) (visited : List κ) (stack : List ι) (start : ∀ x ∈ stack, P x) :
    ∀ x ∈ expansions key succ fuel visited stack, P x := by
  induction fuel generalizing visited stack with
  | zero => simp [expansions]
  | succ fuel ih =>
      cases stack with
      | nil => simp [expansions]
      | cons top stack =>
          have rest : ∀ x ∈ stack, P x := fun x member => start x (List.mem_cons_of_mem _ member)
          have holds : P top := start top List.mem_cons_self
          by_cases seen : key top ∈ visited
          · simpa [expansions, seen] using ih visited stack rest
          · have pushed : ∀ x ∈ (succ top).reverse ++ stack, P x := by
              intro x member
              rcases List.mem_append.mp member with fresh | old
              · exact handed top holds x (List.mem_reverse.mp fresh)
              · exact rest x old
            intro x member
            rw [expansions, if_neg seen] at member
            rcases List.mem_cons.mp member with rfl | later
            · exact holds
            · exact ih _ _ pushed x later

theorem expansions_rename {ι' κ' : Type} [DecidableEq κ'] {key' : ι' → κ'} {succ' : ι' → List ι'}
    (f : ι → ι') {g : κ → κ'} (injective : Function.Injective g) {P : ι → Prop}
    (handed : ∀ x, P x → ∀ y ∈ succ x, P y) (keys : ∀ x, P x → key' (f x) = g (key x))
    (same : ∀ x, P x → succ' (f x) = (succ x).map f) (fuel : Nat) (visited : List κ)
    (stack : List ι) (start : ∀ x ∈ stack, P x) :
    expansions key' succ' fuel (visited.map g) (stack.map f) =
      (expansions key succ fuel visited stack).map f := by
  induction fuel generalizing visited stack with
  | zero => rfl
  | succ fuel ih =>
      cases stack with
      | nil => rfl
      | cons top stack =>
          have rest : ∀ x ∈ stack, P x := fun x member => start x (List.mem_cons_of_mem _ member)
          have holds : P top := start top List.mem_cons_self
          rw [List.map_cons, expansions, expansions, keys top holds]
          by_cases seen : key top ∈ visited
          · rw [if_pos (List.mem_map_of_mem seen), if_pos seen]
            exact ih visited stack rest
          · have pushed : ∀ x ∈ (succ top).reverse ++ stack, P x := by
              intro x member
              rcases List.mem_append.mp member with fresh | old
              · exact handed top holds x (List.mem_reverse.mp fresh)
              · exact rest x old
            rw [if_neg (by rwa [List.mem_map_of_injective injective]), if_neg seen, List.map_cons,
              ← ih _ _ pushed, same top holds, List.map_append, List.map_reverse, List.map_cons]

theorem expansions_map {ι' : Type} {key' : ι' → κ} {succ' : ι' → List ι'} (f : ι → ι')
    {P : ι → Prop} (handed : ∀ x, P x → ∀ y ∈ succ x, P y) (keys : ∀ x, P x → key' (f x) = key x)
    (same : ∀ x, P x → succ' (f x) = (succ x).map f) (fuel : Nat) (visited : List κ)
    (stack : List ι) (start : ∀ x ∈ stack, P x) :
    expansions key' succ' fuel visited (stack.map f) =
      (expansions key succ fuel visited stack).map f := by
  have renamed :=
    expansions_rename f Function.injective_id handed keys same fuel visited stack start
  rwa [List.map_id] at renamed

theorem expansions_congr {succ' : ι → List ι} {P : ι → Prop}
    (handed : ∀ x, P x → ∀ y ∈ succ x, P y) (same : ∀ x, P x → succ x = succ' x) (fuel : Nat)
    (visited : List κ) (stack : List ι) (start : ∀ x ∈ stack, P x) :
    expansions key succ fuel visited stack = expansions key succ' fuel visited stack := by
  have mapped : expansions key succ' fuel visited (stack.map id) =
      (expansions key succ fuel visited stack).map id :=
    expansions_map id handed (fun _ _ => rfl)
      (fun x holds => (same x holds).symm.trans (List.map_id _).symm) fuel visited stack start
  rw [List.map_id, List.map_id] at mapped
  exact mapped.symm

theorem expansions_unvisited (fuel : Nat) (visited : List κ) (stack : List ι) :
    ∀ x ∈ expansions key succ fuel visited stack, key x ∉ visited := by
  induction fuel generalizing visited stack with
  | zero => simp [expansions]
  | succ fuel ih =>
      cases stack with
      | nil => simp [expansions]
      | cons top stack =>
          by_cases seen : key top ∈ visited
          · simpa [expansions, seen] using ih visited stack
          · intro x member
            rw [expansions, if_neg seen] at member
            rcases List.mem_cons.mp member with rfl | later
            · exact seen
            · exact fun old => ih _ _ x later (List.mem_cons_of_mem _ old)

theorem expansions_nodup (fuel : Nat) (visited : List κ) (stack : List ι) :
    ((expansions key succ fuel visited stack).map key).Nodup := by
  induction fuel generalizing visited stack with
  | zero => simp [expansions]
  | succ fuel ih =>
      cases stack with
      | nil => simp [expansions]
      | cons top stack =>
          by_cases seen : key top ∈ visited
          · simpa [expansions, seen] using ih visited stack
          · rw [expansions, if_neg seen, List.map_cons, List.nodup_cons]
            refine ⟨?_, ih _ _⟩
            intro again
            obtain ⟨x, member, equal⟩ := List.mem_map.mp again
            exact expansions_unvisited _ _ _ x member (by simp [equal])

theorem expansions_key_injective {fuel : Nat} {visited : List κ} {stack : List ι} {x y : ι}
    (hx : x ∈ expansions key succ fuel visited stack)
    (hy : y ∈ expansions key succ fuel visited stack) (same : key x = key y) : x = y :=
  List.inj_on_of_nodup_map (expansions_nodup fuel visited stack) hx hy same

/-! ## Enough pops

The successors of an item are pushed along links into its key, so a search makes at most one pop
for each item of the initial stack and each link. -/

variable {ℓ : Type} (target : ℓ → κ) (links : List ℓ)

def pending (visited : List κ) (stack : List ι) : Nat :=
  stack.length + links.countP (fun l => decide (target l ∉ visited))

variable {target links}

theorem pending_expand {visited : List κ} (stack : List ι) {x : ι}
    (bounded : (succ x).length ≤ links.countP (fun l => decide (target l = key x)))
    (fresh : key x ∉ visited) :
    pending target links (key x :: visited) ((succ x).reverse ++ stack) + 1 ≤
      pending target links visited (x :: stack) := by
  have split : links.countP (fun l => decide (target l ∉ visited)) =
      links.countP (fun l => decide (target l = key x)) +
        links.countP (fun l => decide (target l ∉ key x :: visited)) := by
    clear bounded
    induction links with
    | nil => rfl
    | cons l links ih =>
        simp only [List.countP_cons, ih]
        by_cases here : target l = key x
        · simp [here, fresh]
          omega
        · by_cases old : target l ∈ visited <;> simp [here, old]
          omega
  simp only [pending, List.length_append, List.length_reverse, List.length_cons]
  omega

variable (key) in
theorem expansions_closed
    (bounded : ∀ x, (succ x).length ≤ links.countP (fun l => decide (target l = key x)))
    (fuel : Nat) (visited : List κ) (stack : List ι)
    (enough : pending target links visited stack ≤ fuel) :
    (∀ x ∈ stack, key x ∈ visited ∨
      key x ∈ (expansions key succ fuel visited stack).map key) ∧
    ∀ x ∈ expansions key succ fuel visited stack, ∀ y ∈ succ x, key y ∈ visited ∨
      key y ∈ (expansions key succ fuel visited stack).map key := by
  induction fuel generalizing visited stack with
  | zero =>
      have empty : stack = [] := by
        apply List.eq_nil_of_length_eq_zero
        simp only [pending] at enough
        omega
      simp [empty]
  | succ fuel ih =>
      cases stack with
      | nil => simp
      | cons top stack =>
          by_cases seen : key top ∈ visited
          · have enough' : pending target links visited stack ≤ fuel := by
              simp only [pending, List.length_cons] at enough ⊢
              omega
            obtain ⟨covered, closed⟩ := ih visited stack enough'
            rw [expansions, if_pos seen]
            refine ⟨?_, closed⟩
            intro x member
            rcases List.mem_cons.mp member with rfl | old
            · exact Or.inl seen
            · exact covered x old
          · have step := pending_expand stack (bounded top) seen
            obtain ⟨covered, closed⟩ := ih (key top :: visited) ((succ top).reverse ++ stack)
              (by omega)
            rw [expansions, if_neg seen]
            have lift : ∀ k : κ, k ∈ key top :: visited ∨
                k ∈ (expansions key succ fuel (key top :: visited)
                  ((succ top).reverse ++ stack)).map key →
                k ∈ visited ∨ k ∈ (top :: expansions key succ fuel (key top :: visited)
                  ((succ top).reverse ++ stack)).map key := by
              intro k reached
              simp only [List.map_cons, List.mem_cons] at reached ⊢
              tauto
            constructor
            · intro x member
              rcases List.mem_cons.mp member with rfl | old
              · exact Or.inr (by simp)
              · exact lift _ (covered x (List.mem_append_right _ old))
            · intro x member y pushed
              rcases List.mem_cons.mp member with rfl | later
              · exact lift _ (covered y (List.mem_append_left _ (List.mem_reverse.mpr pushed)))
              · exact lift _ (closed x later y pushed)

theorem expansions_descend (path : List ι) (x : ι)
    (chain : List.IsChain (fun a b => (succ a).getLast? = some b) (x :: path))
    (fuel : Nat) (visited : List κ) (stack : List ι) (enough : path.length < fuel)
    (distinct : ((x :: path).map key).Nodup) (fresh : ∀ y ∈ x :: path, key y ∉ visited) :
    ∀ y ∈ x :: path, y ∈ expansions key succ fuel visited (x :: stack) := by
  induction path generalizing x fuel visited stack with
  | nil =>
      cases fuel with
      | zero => simp at enough
      | succ fuel =>
          intro y member
          rw [List.mem_singleton] at member
          rw [expansions, if_neg (fresh x List.mem_cons_self), member]
          exact List.mem_cons_self
  | cons next path ih =>
      cases fuel with
      | zero => simp at enough
      | succ fuel =>
          rw [List.isChain_cons_cons] at chain
          rw [List.map_cons, List.nodup_cons] at distinct
          obtain ⟨front, pushes⟩ : ∃ front, succ x = front ++ [next] :=
            List.getLast?_eq_some_iff.mp chain.1
          have fresh' : ∀ y ∈ next :: path, key y ∉ key x :: visited := by
            intro y member seen
            rcases List.mem_cons.mp seen with same | old
            · exact distinct.1 (same ▸ List.mem_map_of_mem member)
            · exact fresh y (List.mem_cons_of_mem _ member) old
          have later := ih next chain.2 fuel (key x :: visited) (front.reverse ++ stack)
            (by simpa using enough) distinct.2 fresh'
          intro y member
          rw [expansions, if_neg (fresh x List.mem_cons_self)]
          rcases List.mem_cons.mp member with rfl | member
          · exact List.mem_cons_self
          · refine List.mem_cons_of_mem _ ?_
            simpa [pushes] using later y member

end Worklist
