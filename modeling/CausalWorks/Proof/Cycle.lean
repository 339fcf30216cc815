import CausalWorks.Manifest

/-!
# Cycle detection is exact

The loop of `detectCycle` keeps the invariant of depth-first search, so it finds a cycle if and only
if there is one, within one iteration for each node and each edge.
-/

namespace CausalWorks
open DepthFirst Relation

def DependsOn (edges : List DependencyEdge) (a b : NodeId) : Prop :=
  ∃ e ∈ edges, e.edgeFrom = a ∧ e.edgeTo = b

structure DetectsCycles (order : IterationOrder) (edges : List DependencyEdge) : Prop where
  terminates : ∀ fault, ManifestCfg.detectCycle order edges ≠ .error (.fault fault)
  exact : ManifestCfg.detectCycle order edges = .ok () ↔ ∀ n, ¬ TransGen (DependsOn edges) n n
  genuine : ∀ error, ManifestCfg.detectCycle order edges = .error (.err error) →
    ∃ n, error = .dependencyCycle n ∧ TransGen (DependsOn edges) n n

namespace Proof
open ManifestCfg

def children (edges : List DependencyEdge) (node : NodeId) : List NodeId :=
  (edges.filter fun e => e.edgeFrom = node).map DependencyEdge.edgeTo

theorem child_iff {edges : List DependencyEdge} {a b : NodeId} :
    Child (children edges) a b ↔ DependsOn edges a b := by
  simp [Child, children, DependsOn, and_assoc]

theorem transGen_child {edges : List DependencyEdge} :
    TransGen (Child (children edges)) = TransGen (DependsOn edges) := by
  congr
  funext a b
  exact propext child_iff

theorem foldl_pushChild (edges : List DependencyEdge) (adj : NodeId → Option (List NodeId))
    (node : NodeId) : ((edges.foldl pushChild adj) node).getD [] =
      (adj node).getD [] ++ children edges node := by
  induction edges generalizing adj with
  | nil => simp [children]
  | cons e edges ih =>
      rw [List.foldl_cons, ih]
      by_cases here : node = e.edgeFrom
      · subst here
        simp [pushChild, children]
      · simp [pushChild, children, here, Ne.symm here]

theorem adjacency_getElem? (edges : List DependencyEdge) (node : NodeId) (idx : Nat) :
    ((adjacency edges) node).bind (·[idx]?) = (children edges node)[idx]? := by
  have list := foldl_pushChild edges (fun _ => none) node
  simp only [Option.getD_none, List.nil_append] at list
  rw [← list, adjacency]
  cases (edges.foldl pushChild fun _ => none) node <;> simp

theorem mem_foldl_insert {edges : List DependencyEdge} {all : List NodeId} {node : NodeId} :
    node ∈ edges.foldl (fun all e => (all.insert e.edgeFrom).insert e.edgeTo) all ↔
      node ∈ all ∨ ∃ e ∈ edges, e.edgeFrom = node ∨ e.edgeTo = node := by
  induction edges generalizing all with
  | nil => simp
  | cons e edges ih =>
      rw [List.foldl_cons, ih]
      simp only [List.mem_insert_iff, List.exists_mem_cons_iff]
      grind

theorem mem_endpoints {edges : List DependencyEdge} {node : NodeId} :
    node ∈ endpoints edges ↔ ∃ e ∈ edges, e.edgeFrom = node ∨ e.edgeTo = node := by
  simp [endpoints, mem_foldl_insert]

theorem nodup_endpoints (edges : List DependencyEdge) : (endpoints edges).Nodup := by
  have insert : ∀ (edges : List DependencyEdge) (all : List NodeId), all.Nodup →
      (edges.foldl (fun all e => (all.insert e.edgeFrom).insert e.edgeTo) all).Nodup := by
    intro edges
    induction edges with
    | nil => exact fun _ distinct => distinct
    | cons e edges ih => exact fun all distinct => ih _ (distinct.insert.insert)
  exact insert edges [] List.nodup_nil

theorem child_mem_endpoints {edges : List DependencyEdge} {node child : NodeId} {idx : Nat}
    (next : (children edges node)[idx]? = some child) : child ∈ endpoints edges := by
  obtain ⟨e, member, -, into⟩ := child_iff.mp (List.mem_of_getElem? next)
  exact mem_endpoints.mpr ⟨e, member, Or.inr into⟩

theorem sum_indicator (a : NodeId) (nodes : List NodeId) :
    (nodes.map fun n => if a = n then 1 else 0).sum = nodes.count a := by
  induction nodes with
  | nil => rfl
  | cons n nodes ih =>
      by_cases here : a = n
      · subst here
        simp [ih, Nat.add_comm]
      · simp [here, Ne.symm here, ih]

theorem sum_children_le (edges : List DependencyEdge) {nodes : List NodeId}
    (distinct : nodes.Nodup) :
    (nodes.map fun n => (children edges n).length).sum ≤ edges.length := by
  induction edges with
  | nil => simp [children]
  | cons e edges ih =>
      have split : (fun n => (children (e :: edges) n).length) =
          fun n => (if e.edgeFrom = n then 1 else 0) + (children edges n).length := by
        funext n
        by_cases here : e.edgeFrom = n <;> simp [children, here, Nat.add_comm]
      have one := List.nodup_iff_count_le_one.mp distinct e.edgeFrom
      rw [split, List.sum_map_add, sum_indicator, List.length_cons]
      omega

theorem enough_iterations (edges : List DependencyEdge) (color : NodeId → Color) :
    potential (children edges) (endpoints edges) color [] ≤
      (endpoints edges).length + edges.length :=
  (potential_le _ _).trans (Nat.add_le_add_left (sum_children_le edges (nodup_endpoints edges)) _)

theorem search_cases (edges : List DependencyEdge) (fuel : Nat) (color : NodeId → Color)
    (stack : List (NodeId × Nat)) (inv : Invariant (children edges) color stack)
    (enough : potential (children edges) (endpoints edges) color stack ≤ fuel) :
    (∃ after, search (adjacency edges) fuel color stack = .ok after ∧
      Invariant (children edges) after [] ∧ ∀ n, color n ≠ .white → after n ≠ .white) ∨
    ∃ n, search (adjacency edges) fuel color stack = reject (.dependencyCycle n) ∧
      TransGen (DependsOn edges) n n := by
  induction fuel generalizing color stack with
  | zero =>
      cases stack with
      | nil => exact Or.inl ⟨color, rfl, inv, fun _ kept => kept⟩
      | cons top stack =>
          simp only [potential, List.map_cons, List.sum_cons] at enough
          omega
  | succ fuel ih =>
      rcases stack with _ | ⟨⟨node, idx⟩, stack⟩
      · exact Or.inl ⟨color, rfl, inv, fun _ kept => kept⟩
      rw [search, adjacency_getElem?]
      cases next : (children edges node)[idx]? with
      | none =>
          have gray : color node = .gray := (inv.gray_iff node).mpr List.mem_cons_self
          have step := potential_finish (children edges) (endpoints edges) stack idx
            (by simp [gray] : color node ≠ .white)
          rcases ih _ _ (inv.finish next) (by omega) with ⟨after, done, inv', kept⟩ | cyclic
          · refine Or.inl ⟨after, done, inv', fun n visited => kept n ?_⟩
            by_cases here : n = node <;> simp [here, visited]
          · exact Or.inr cyclic
      | some child =>
          cases known : color child with
          | gray =>
              refine Or.inr ⟨child, by simp [known], ?_⟩
              rw [← transGen_child]
              exact inv.cycle next known
          | black =>
              have step := potential_skip (endpoints edges) color stack next
              simpa [known] using ih _ _ (inv.skip next known) (by omega)
          | white =>
              have step := potential_descend stack next (child_mem_endpoints next) known
              rcases ih _ _ (inv.descend next known) (by omega) with
                ⟨after, done, inv', kept⟩ | cyclic
              · refine Or.inl ⟨after, by simpa [known] using done, inv', fun n visited => kept n ?_⟩
                by_cases here : n = child <;> simp [here, visited]
              · exact Or.inr (by simpa [known] using cyclic)

theorem searchFrom_cases (edges : List DependencyEdge) (color : NodeId → Color) {start : NodeId}
    (inv : Invariant (children edges) color []) (member : start ∈ endpoints edges) :
    (∃ after, searchFrom edges color start = .ok after ∧ Invariant (children edges) after [] ∧
      (∀ n, color n ≠ .white → after n ≠ .white) ∧ after start ≠ .white) ∨
    ∃ n, searchFrom edges color start = reject (.dependencyCycle n) ∧
      TransGen (DependsOn edges) n n := by
  unfold searchFrom
  by_cases white : color start = .white
  · have enough := (potential_start (children edges) [] member white).trans
      (enough_iterations edges color)
    simp only [white, ne_eq, not_true_eq_false, if_false]
    rcases search_cases edges _ _ _ (inv.start start) enough with ⟨after, done, inv', kept⟩ | cyclic
    · refine Or.inl ⟨after, done, inv', fun n visited => kept n ?_, kept start (by simp)⟩
      by_cases here : n = start <;> simp [here, visited]
    · exact Or.inr cyclic
  · simp only [ne_eq, white, not_false_eq_true, if_true]
    exact Or.inl ⟨color, rfl, inv, fun _ kept => kept, white⟩

theorem searchAll_cases (edges : List DependencyEdge) (starts : List NodeId)
    (color : NodeId → Color) (inv : Invariant (children edges) color [])
    (inside : ∀ n ∈ starts, n ∈ endpoints edges) :
    (∃ after, starts.foldlM (searchFrom edges) color = .ok after ∧
      Invariant (children edges) after [] ∧ (∀ n, color n ≠ .white → after n ≠ .white) ∧
      ∀ n ∈ starts, after n ≠ .white) ∨
    ∃ n, starts.foldlM (searchFrom edges) color = reject (.dependencyCycle n) ∧
      TransGen (DependsOn edges) n n := by
  induction starts generalizing color with
  | nil => exact Or.inl ⟨color, rfl, inv, fun _ kept => kept, by simp⟩
  | cons start starts ih =>
      rw [List.foldlM_cons]
      rcases searchFrom_cases edges color inv (inside start List.mem_cons_self) with
        ⟨next, step, inv', kept, visited⟩ | ⟨n, step, cyclic⟩
      · rw [step]
        rcases ih next inv' fun n member => inside n (List.mem_cons_of_mem _ member) with
          ⟨after, done, inv'', kept', all⟩ | cyclic
        · refine Or.inl ⟨after, done, inv'', fun n old => kept' n (kept n old), ?_⟩
          intro n member
          rcases List.mem_cons.mp member with rfl | later
          · exact kept' n visited
          · exact all n later
        · exact Or.inr cyclic
      · rw [step]
        exact Or.inr ⟨n, rfl, cyclic⟩

theorem detectCycle_cases (order : IterationOrder) (edges : List DependencyEdge) :
    (detectCycle order edges = .ok () ∧ ∀ n, ¬ TransGen (DependsOn edges) n n) ∨
    ∃ n, detectCycle order edges = reject (.dependencyCycle n) ∧
      TransGen (DependsOn edges) n n := by
  unfold detectCycle
  have starts := order.starts_perm (endpoints edges)
  rcases searchAll_cases edges (order.starts (endpoints edges)) _ .empty
      fun n member => starts.mem_iff.mp member with
    ⟨after, done, inv, -, all⟩ | ⟨n, done, cyclic⟩
  · refine Or.inl ⟨by rw [done]; rfl, fun n cyclic => ?_⟩
    have endpoint : n ∈ endpoints edges := by
      obtain ⟨next, ⟨e, member, leaves, -⟩, -⟩ := TransGen.head'_iff.mp cyclic
      exact mem_endpoints.mpr ⟨e, member, Or.inl leaves⟩
    rw [← transGen_child] at cyclic
    exact inv.acyclic (all n (starts.mem_iff.mpr endpoint)) cyclic
  · exact Or.inr ⟨n, by rw [done]; rfl, cyclic⟩

theorem cycle_detected (order : IterationOrder) (edges : List DependencyEdge) :
    DetectsCycles order edges := by
  rcases detectCycle_cases order edges with ⟨done, acyclic⟩ | ⟨n, done, cyclic⟩
  · constructor
    case terminates =>
      intro fault failed
      cases done.symm.trans failed
    case exact => exact ⟨fun _ => acyclic, fun _ => done⟩
    case genuine =>
      intro error failed
      cases done.symm.trans failed
  · constructor
    case terminates =>
      intro fault failed
      cases done.symm.trans failed
    case exact =>
      refine ⟨fun accepted => ?_, fun acyclic => absurd cyclic (acyclic n)⟩
      cases done.symm.trans accepted
    case genuine =>
      intro error failed
      cases done.symm.trans failed
      exact ⟨n, rfl, cyclic⟩

end Proof
end CausalWorks
