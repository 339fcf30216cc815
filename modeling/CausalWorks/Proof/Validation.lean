import CausalWorks.Proof.Cycle
import CausalWorks.Proof.Walk

/-!
# Validation accepts exactly the well-formed manifests

Each loop of `build` either runs to its end, and then every element has passed its check, or stops
at an element that has the reported defect.
-/

namespace CausalWorks
open Relation

def EdgeCfg.into (e : EdgeCfg) : DependencyEdge :=
  { edgeFrom := e.edgeFrom, edgeTo := e.edgeTo, wcetNs := e.wcetNs }

def NodeMatcherCfg.isProfinet : NodeMatcherCfg → Prop
  | .profinet _ _ => True
  | _ => False

namespace ManifestCfg
variable (cfg : ManifestCfg)

def ids : List NodeId := cfg.nodes.map NodeCfg.id

def Depends (a b : NodeId) : Prop := ∃ e ∈ cfg.edges, e.edgeFrom = a ∧ e.edgeTo = b

structure WellFormed : Prop where
  nonempty : cfg.nodes ≠ []
  distinct : cfg.ids.Nodup
  trip : ∃ n ∈ cfg.nodes, n.id = cfg.tripNode ∧ n.matcher.isProfinet
  declared : ∀ e ∈ cfg.edges, e.edgeFrom ∈ cfg.ids ∧ e.edgeTo ∈ cfg.ids
  budgets : ∀ e ∈ cfg.edges, 1 ≤ e.wcetNs.toNat ∧ e.wcetNs.toNat ≤ 60000000000
  acyclic : ∀ n, ¬ TransGen cfg.Depends n n

def HasDefect : ManifestError → Prop
  | .empty => cfg.nodes = []
  | .duplicateNode id => 2 ≤ cfg.ids.count id
  | .tripNodeUndeclared id => id = cfg.tripNode ∧ id ∉ cfg.ids
  | .tripNodeNotInterlock id =>
      id = cfg.tripNode ∧ ∃ n ∈ cfg.nodes, n.id = id ∧ ¬ n.matcher.isProfinet
  | .danglingNode id => id ∉ cfg.ids ∧ ∃ e ∈ cfg.edges, e.edgeFrom = id ∨ e.edgeTo = id
  | .badBudget edgeFrom edgeTo wcetNs => ⟨edgeFrom, edgeTo, wcetNs⟩ ∈ cfg.edges ∧
      ¬ (1 ≤ wcetNs.toNat ∧ wcetNs.toNat ≤ 60000000000)
  | .dependencyCycle id => TransGen cfg.Depends id id

structure Built (m : DependencyManifest) : Prop where
  nodes : ∀ id matcher, m.nodes.lookup id = some matcher ↔
    ∃ n ∈ cfg.nodes, n.id = id ∧ n.matcher.into = matcher
  edges : m.edges = cfg.edges.map EdgeCfg.into
  tripNode : m.tripNode = cfg.tripNode
  revAdj : ∀ n, (m.revAdj n).getD [] = m.edges.filter fun e => e.edgeTo = n

end ManifestCfg

namespace Proof
open ManifestCfg

theorem mem_iff_lookup {table : NodeTable} {id : NodeId} :
    id ∈ table ↔ ∃ m, table.lookup id = some m := by
  rw [← AList.lookup_isSome, Option.isSome_iff_exists]

theorem declareNodes_cases (nodes : List NodeCfg) (table : NodeTable) :
    (∃ after, nodes.foldlM declareNode table = .ok after ∧ (nodes.map NodeCfg.id).Nodup ∧
      (∀ n ∈ nodes, n.id ∉ table) ∧ ∀ id matcher, after.lookup id = some matcher ↔
        table.lookup id = some matcher ∨ ∃ n ∈ nodes, n.id = id ∧ n.matcher.into = matcher) ∨
    ∃ id, nodes.foldlM declareNode table = reject (.duplicateNode id) ∧
      (id ∈ table ∧ id ∈ nodes.map NodeCfg.id ∨ 2 ≤ (nodes.map NodeCfg.id).count id) := by
  induction nodes generalizing table with
  | nil => exact Or.inl ⟨table, rfl, by simp, by simp, by simp⟩
  | cons n nodes ih =>
      rw [List.foldlM_cons, declareNode]
      by_cases taken : n.id ∈ table
      · rw [if_pos taken]
        exact Or.inr ⟨n.id, rfl, Or.inl ⟨taken, by simp⟩⟩
      · rw [if_neg taken]
        rcases ih (table.insert n.id n.matcher.into) with
          ⟨after, done, distinct, fresh, lookup⟩ | ⟨id, done, defect⟩
        · have new : n.id ∉ nodes.map NodeCfg.id := by
            intro member
            obtain ⟨other, inside, same⟩ := List.mem_map.mp member
            exact fresh other inside (by simp [AList.mem_insert, same])
          refine Or.inl ⟨after, done, by simp [new, distinct], ?_, ?_⟩
          · intro other member
            rcases List.mem_cons.mp member with rfl | later
            · exact taken
            · exact fun old => fresh other later (by simp [AList.mem_insert, old])
          · intro id matcher
            rw [lookup]
            by_cases here : id = n.id
            · subst here
              have unknown : table.lookup n.id = none := AList.lookup_eq_none.mpr taken
              have unique : ¬ ∃ other ∈ nodes, other.id = n.id ∧ other.matcher.into = matcher := by
                rintro ⟨other, inside, same, -⟩
                exact new (List.mem_map.mpr ⟨other, inside, same⟩)
              simp [AList.lookup_insert, unknown, unique]
            · simp [AList.lookup_insert_ne here, Ne.symm here]
        · refine Or.inr ⟨id, done, ?_⟩
          rw [List.map_cons, List.count_cons]
          rcases defect with ⟨old, later⟩ | twice
          · by_cases here : id = n.id
            · right
              have := List.count_pos_iff.mpr later
              simp [here] at this ⊢
              omega
            · left
              rw [AList.mem_insert] at old
              exact ⟨old.resolve_left here, by simp [later]⟩
          · right
            omega

def Holds (cfg : ManifestCfg) (table : NodeTable) : Prop :=
  ∀ id matcher, table.lookup id = some matcher ↔
    ∃ n ∈ cfg.nodes, n.id = id ∧ n.matcher.into = matcher

theorem declareAll_cases (cfg : ManifestCfg) :
    (∃ table, cfg.nodes.foldlM declareNode ∅ = .ok table ∧ cfg.ids.Nodup ∧ Holds cfg table) ∨
    ∃ id, cfg.nodes.foldlM declareNode ∅ = reject (.duplicateNode id) ∧ 2 ≤ cfg.ids.count id := by
  rcases declareNodes_cases cfg.nodes ∅ with ⟨table, done, distinct, -, lookup⟩ |
    ⟨id, done, ⟨old, -⟩ | twice⟩
  · exact Or.inl ⟨table, done, distinct, fun id matcher => by simp [lookup]⟩
  · exact absurd old (AList.notMem_empty id)
  · exact Or.inr ⟨id, done, twice⟩

theorem Holds.mem_iff {cfg : ManifestCfg} {table : NodeTable} (holds : Holds cfg table)
    (id : NodeId) : id ∈ table ↔ id ∈ cfg.ids := by
  rw [mem_iff_lookup, ids, List.mem_map]
  constructor
  · rintro ⟨matcher, found⟩
    obtain ⟨n, member, same, -⟩ := (holds id matcher).mp found
    exact ⟨n, member, same⟩
  · rintro ⟨n, member, same⟩
    exact ⟨n.matcher.into, (holds id _).mpr ⟨n, member, same, rfl⟩⟩

theorem checkTripNode_cases {cfg : ManifestCfg} {table : NodeTable} (distinct : cfg.ids.Nodup)
    (holds : Holds cfg table) :
    (checkTripNode table cfg.tripNode = .ok () ∧
      ∃ n ∈ cfg.nodes, n.id = cfg.tripNode ∧ n.matcher.isProfinet) ∨
    ∃ error, checkTripNode table cfg.tripNode = reject error ∧ cfg.HasDefect error ∧
      ¬ ∃ n ∈ cfg.nodes, n.id = cfg.tripNode ∧ n.matcher.isProfinet := by
  unfold checkTripNode
  cases found : table.lookup cfg.tripNode with
  | none =>
      have undeclared : cfg.tripNode ∉ cfg.ids := by
        rw [← holds.mem_iff]
        exact AList.lookup_eq_none.mp found
      refine Or.inr ⟨_, rfl, ⟨rfl, undeclared⟩, ?_⟩
      rintro ⟨n, member, same, -⟩
      exact undeclared (List.mem_map.mpr ⟨n, member, same⟩)
  | some matcher =>
      obtain ⟨n, member, same, into⟩ := (holds _ _).mp found
      have only : ∀ other ∈ cfg.nodes, other.id = cfg.tripNode → other = n :=
        fun other inside at_ =>
        List.inj_on_of_nodup_map distinct inside member (at_.trans same.symm)
      cases kind : n.matcher with
      | profinet frameId bitIndex =>
          left
          rw [← into, kind]
          exact ⟨rfl, n, member, same, by simp [kind, NodeMatcherCfg.isProfinet]⟩
      | ros2Port | fanucPose =>
          right
          rw [← into, kind]
          refine ⟨_, rfl, ⟨rfl, n, member, same, by simp [kind, NodeMatcherCfg.isProfinet]⟩, ?_⟩
          rintro ⟨other, inside, at_, profinet⟩
          rw [only other inside at_, kind] at profinet
          exact profinet

def EdgeValid (cfg : ManifestCfg) (e : EdgeCfg) : Prop :=
  (e.edgeFrom ∈ cfg.ids ∧ e.edgeTo ∈ cfg.ids) ∧
    1 ≤ e.wcetNs.toNat ∧ e.wcetNs.toNat ≤ 60000000000

theorem budget_iff (w : UInt64) : ¬ (w = 0 ∨ maxSaneWcetNs < w) ↔
    1 ≤ w.toNat ∧ w.toNat ≤ 60000000000 := by
  rw [not_or, ← UInt64.toNat_inj, UInt64.lt_iff_toNat_lt, maxSaneWcetNs]
  simp only [UInt64.reduceToNat]
  omega

theorem declareEdge_cases {cfg : ManifestCfg} {table : NodeTable} (holds : Holds cfg table)
    (edges : List DependencyEdge) {e : EdgeCfg} (member : e ∈ cfg.edges) :
    (declareEdge table edges e = .ok (edges ++ [e.into]) ∧ EdgeValid cfg e) ∨
    ∃ error, declareEdge table edges e = reject error ∧ cfg.HasDefect error ∧
      ¬ EdgeValid cfg e := by
  unfold declareEdge
  by_cases leaves : e.edgeFrom ∈ cfg.ids
  · rw [if_neg (not_not.mpr ((holds.mem_iff _).mpr leaves))]
    by_cases enters : e.edgeTo ∈ cfg.ids
    · rw [if_neg (not_not.mpr ((holds.mem_iff _).mpr enters))]
      by_cases bad : e.wcetNs = 0 ∨ maxSaneWcetNs < e.wcetNs
      · have budget := mt (budget_iff e.wcetNs).mpr (not_not.mpr bad)
        rw [if_pos bad]
        exact Or.inr ⟨_, rfl, ⟨member, budget⟩, fun valid => budget valid.2⟩
      · rw [if_neg bad]
        exact Or.inl ⟨rfl, ⟨leaves, enters⟩, (budget_iff e.wcetNs).mp bad⟩
    · rw [if_pos (mt (holds.mem_iff _).mp enters)]
      exact Or.inr ⟨_, rfl, ⟨enters, e, member, Or.inr rfl⟩, fun valid => enters valid.1.2⟩
  · rw [if_pos (mt (holds.mem_iff _).mp leaves)]
    exact Or.inr ⟨_, rfl, ⟨leaves, e, member, Or.inl rfl⟩, fun valid => leaves valid.1.1⟩

theorem declareEdges_cases {cfg : ManifestCfg} {table : NodeTable} (holds : Holds cfg table)
    (rest : List EdgeCfg) (edges : List DependencyEdge) (inside : ∀ e ∈ rest, e ∈ cfg.edges) :
    (rest.foldlM (declareEdge table) edges = .ok (edges ++ rest.map EdgeCfg.into) ∧
      ∀ e ∈ rest, EdgeValid cfg e) ∨
    ∃ error, rest.foldlM (declareEdge table) edges = reject error ∧ cfg.HasDefect error ∧
      ∃ e ∈ rest, ¬ EdgeValid cfg e := by
  induction rest generalizing edges with
  | nil => exact Or.inl ⟨by simp [pure, Except.pure], by simp⟩
  | cons e rest ih =>
      rw [List.foldlM_cons]
      rcases declareEdge_cases holds edges (inside e List.mem_cons_self) with
        ⟨step, valid⟩ | ⟨error, step, defect, invalid⟩
      · rw [step]
        rcases ih (edges ++ [e.into]) fun e member => inside e (List.mem_cons_of_mem _ member) with
          ⟨done, all⟩ | ⟨error, done, defect, bad, member, invalid⟩
        · refine Or.inl ⟨by simpa [bind, Except.bind] using done, ?_⟩
          intro other member
          rcases List.mem_cons.mp member with rfl | later
          · exact valid
          · exact all other later
        · exact Or.inr ⟨error, done, defect, bad, List.mem_cons_of_mem _ member, invalid⟩
      · rw [step]
        exact Or.inr ⟨error, rfl, defect, e, List.mem_cons_self, invalid⟩

theorem dependsOn_into (cfg : ManifestCfg) :
    DependsOn (cfg.edges.map EdgeCfg.into) = cfg.Depends := by
  funext a b
  simp [DependsOn, Depends, EdgeCfg.into]

theorem build_cases (order : IterationOrder) (cfg : ManifestCfg) :
    (cfg.WellFormed ∧ ∃ table, cfg.nodes.foldlM declareNode ∅ = .ok table ∧ Holds cfg table ∧
      cfg.build order =
        .ok (.new (order.arrange table) (cfg.edges.map EdgeCfg.into) cfg.tripNode)) ∨
    ¬ cfg.WellFormed ∧ ∃ error, cfg.build order = reject error ∧ cfg.HasDefect error := by
  unfold build
  by_cases empty : cfg.nodes = []
  · rw [if_pos empty]
    exact Or.inr ⟨fun wellFormed => wellFormed.nonempty empty, _, rfl, empty⟩
  rw [if_neg empty]
  rcases declareAll_cases cfg with ⟨table, nodes, distinct, holds⟩ | ⟨id, nodes, twice⟩
  · rw [nodes]
    rcases checkTripNode_cases distinct holds with ⟨trip, profinet⟩ | ⟨error, trip, defect, none_⟩
    · simp only [bind, Except.bind, trip]
      rcases declareEdges_cases holds cfg.edges [] (fun _ member => member) with
        ⟨edges, valid⟩ | ⟨error, edges, defect, e, member, invalid⟩
      · rw [edges, List.nil_append]
        rcases detectCycle_cases order (cfg.edges.map EdgeCfg.into) with
          ⟨search, acyclic⟩ | ⟨n, search, cyclic⟩
        · simp only [search, pure, Except.pure]
          rw [dependsOn_into] at acyclic
          exact Or.inl ⟨⟨empty, distinct, profinet, fun e member => (valid e member).1,
            fun e member => (valid e member).2, acyclic⟩, table, rfl, holds, rfl⟩
        · simp only [search, reject]
          rw [dependsOn_into] at cyclic
          exact Or.inr ⟨fun wellFormed => wellFormed.acyclic n cyclic, _, rfl, cyclic⟩
      · simp only [edges, reject]
        exact Or.inr ⟨fun wellFormed => invalid ⟨wellFormed.declared e member,
          wellFormed.budgets e member⟩, _, rfl, defect⟩
    · simp only [bind, Except.bind, trip, reject]
      exact Or.inr ⟨fun wellFormed => none_ wellFormed.trip, _, rfl, defect⟩
  · rw [nodes]
    refine Or.inr ⟨fun wellFormed => ?_, _, rfl, twice⟩
    have once := List.nodup_iff_count_le_one.mp wellFormed.distinct id
    omega

def BuildsExactly (order : IterationOrder) (cfg : ManifestCfg) : Prop :=
  match cfg.build order with
  | .ok m => cfg.WellFormed ∧ cfg.Built m
  | .error (.err error) => ¬ cfg.WellFormed ∧ cfg.HasDefect error
  | .error (.fault _) => False

theorem lookup_arrange (order : IterationOrder) (nodes : NodeTable) (id : NodeId) :
    (order.arrange nodes).lookup id = nodes.lookup id :=
  AList.perm_lookup (order.nodes_perm nodes.entries)

theorem built_new (order : IterationOrder) {cfg : ManifestCfg} {table : NodeTable}
    (holds : Holds cfg table) :
    cfg.Built (.new (order.arrange table) (cfg.edges.map EdgeCfg.into) cfg.tripNode) where
  nodes := fun id matcher => by
    rw [← holds]
    exact Eq.congr_left (lookup_arrange order table id)
  edges := rfl
  tripNode := rfl
  revAdj := fun n => by
    rw [new_indexed]
    by_cases none_ : (DependencyManifest.new (order.arrange table) (cfg.edges.map EdgeCfg.into)
        cfg.tripNode).incoming n = []
    · rw [if_pos none_]
      exact none_.symm
    · rw [if_neg none_]
      rfl

theorem builds_exactly (order : IterationOrder) (cfg : ManifestCfg) :
    BuildsExactly order cfg := by
  unfold BuildsExactly
  rcases build_cases order cfg with ⟨wellFormed, table, -, holds, built⟩ |
    ⟨malformed, error, rejected, defect⟩
  · rw [built]
    exact ⟨wellFormed, built_new order holds⟩
  · rw [rejected]
    exact ⟨malformed, defect⟩

theorem build_ok {order : IterationOrder} {cfg : ManifestCfg} {m : DependencyManifest}
    (accepted : cfg.build order = .ok m) : cfg.WellFormed ∧ ∃ table,
      cfg.nodes.foldlM declareNode ∅ = .ok table ∧ Holds cfg table ∧
      m = .new (order.arrange table) (cfg.edges.map EdgeCfg.into) cfg.tripNode := by
  rcases build_cases order cfg with ⟨wellFormed, table, done, holds, built⟩ |
    ⟨malformed, error, rejected, defect⟩
  · rw [built, Except.ok.injEq] at accepted
    exact ⟨wellFormed, table, done, holds, accepted.symm⟩
  · rw [rejected] at accepted
    cases accepted

theorem indexed_of_build {order : IterationOrder} {cfg : ManifestCfg} {m : DependencyManifest}
    (accepted : cfg.build order = .ok m) : m.Indexed := by
  obtain ⟨-, table, -, -, rfl⟩ := build_ok accepted
  exact new_indexed _ _ _

end Proof
end CausalWorks
