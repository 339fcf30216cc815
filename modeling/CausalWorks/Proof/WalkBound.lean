import CausalWorks.Proof.Overrun
import CausalWorks.Proof.Walk

/-!
# The walk is bounded by the declared edges

A node is expanded once, so its incoming edges are evaluated once, and each evaluation pushes at
most one entry. The bound needs no validation: the edges may form cycles.
-/

namespace CausalWorks

/-- What the loop of `backtrack` has done: `lost` are the entries that the re-lookup of the effect
did not find. -/
structure WalkTrace where
  walk : Walk
  pops : Nat
  expanded : List NodeId
  evaluated : List DependencyEdge
  lost : List (NodeId × UInt64)

section Trace
variable (profile : Profile) (lookup : NodeId → UInt64 → Except Fault (Option StateTransition))
  (revAdj : NodeId → Option (List DependencyEdge)) (trip : StateTransition)

def traceEdge (effectNode : NodeId) (effectTs : UInt64) (t : WalkTrace) (edge : DependencyEdge) :
    Except Fault WalkTrace := do
  let effect ← effectInstance profile lookup trip effectNode effectTs
  let walk ← visitEdge profile lookup trip effectNode effectTs t.walk edge
  let lost := if effect = none then t.lost ++ [(effectNode, effectTs)] else t.lost
  return { t with walk, evaluated := t.evaluated ++ [edge], lost }

def traceWalk : Nat → WalkTrace → Except Fault WalkTrace
  | fuel, t =>
    match t.walk.frontier with
    | [] => .ok t
    | (effectNode, effectTs) :: frontier =>
      match fuel with
      | 0 => .error .loopBound
      | fuel + 1 =>
        if effectNode ∈ t.walk.visited then
          traceWalk fuel { t with walk := { t.walk with frontier }, pops := t.pops + 1 }
        else
          let walk := { t.walk with visited := effectNode :: t.walk.visited, frontier }
          let t := { t with walk, pops := t.pops + 1, expanded := t.expanded ++ [effectNode] }
          match revAdj effectNode with
          | none => traceWalk fuel t
          | some incoming => do
              let t ← incoming.foldlM (traceEdge profile lookup trip effectNode effectTs) t
              traceWalk fuel t

def WalkTrace.start (trip : StateTransition) : WalkTrace :=
  { walk := { candidates := [], visited := [], frontier := [(trip.node, trip.tsNs)] }
    pops := 0, expanded := [], evaluated := [], lost := [] }

end Trace

structure BoundedWalk {CAP : Nat} (profile : Profile) (ring : RingBuffer CAP)
    (manifest : DependencyManifest) (trip : StateTransition) : Prop where
  loop : ∀ fuel ≥ 1 + manifest.edges.length, ∃ trace,
    traceWalk profile ring.lastForNodeBefore manifest.revAdj trip fuel (.start trip) = .ok trace ∧
      walk profile ring.lastForNodeBefore manifest.revAdj trip fuel (WalkTrace.start trip).walk =
        .ok trace.walk ∧
      trace.pops ≤ 1 + manifest.edges.length ∧ trace.expanded.Nodup ∧
      trace.evaluated.Subperm manifest.edges ∧ trace.lost = []
  ranked : ∃ analysis, backtrackWith profile ring.lastForNodeBefore manifest trip = .ok analysis ∧
    (analysis.rankedCatalysts.map CandidateCatalyst.edge).Subperm manifest.edges ∧
      analysis.rankedCatalysts.length ≤ manifest.edges.length

namespace Proof

section Erase
variable {profile : Profile} {lookup : NodeId → UInt64 → Except Fault (Option StateTransition)}
  {revAdj : NodeId → Option (List DependencyEdge)} {trip : StateTransition}

theorem traceEdge_walk {effectNode : NodeId} {effectTs : UInt64} {edge : DependencyEdge}
    {t after : WalkTrace}
    (traced : traceEdge profile lookup trip effectNode effectTs t edge = .ok after) :
    visitEdge profile lookup trip effectNode effectTs t.walk edge = .ok after.walk := by
  obtain ⟨effect, -, visits⟩ := bind_ok traced
  obtain ⟨w, visit, recorded⟩ := bind_ok visits
  cases recorded
  exact visit

theorem traceEdges_walk {effectNode : NodeId} {effectTs : UInt64} {incoming : List DependencyEdge}
    {t after : WalkTrace}
    (traced : incoming.foldlM (traceEdge profile lookup trip effectNode effectTs) t = .ok after) :
    incoming.foldlM (visitEdge profile lookup trip effectNode effectTs) t.walk =
      .ok after.walk := by
  induction incoming generalizing t with
  | nil =>
      cases traced
      rfl
  | cons edge incoming ih =>
      rw [List.foldlM_cons] at traced ⊢
      obtain ⟨next, visit, rest⟩ := bind_ok traced
      rw [traceEdge_walk visit]
      exact ih rest

theorem traceWalk_walk {fuel : Nat} {t after : WalkTrace}
    (traced : traceWalk profile lookup revAdj trip fuel t = .ok after) :
    walk profile lookup revAdj trip fuel t.walk = .ok after.walk := by
  induction fuel generalizing t with
  | zero =>
      rcases t with ⟨⟨candidates, visited, frontier⟩, pops, expanded, evaluated, lost⟩
      cases frontier with
      | nil =>
          cases traced
          exact walk_nil profile lookup revAdj trip 0
      | cons top frontier => cases traced
  | succ fuel ih =>
      rcases t with ⟨⟨candidates, visited, frontier⟩, pops, expanded, evaluated, lost⟩
      rcases frontier with _ | ⟨⟨node, ts⟩, frontier⟩
      · cases traced
        exact walk_nil profile lookup revAdj trip _
      rw [traceWalk] at traced
      by_cases old : node ∈ visited
      · rw [walk_seen profile lookup revAdj trip fuel old]
        exact ih ((if_pos old).symm.trans traced)
      · rw [walk_fresh profile lookup revAdj trip fuel old]
        replace traced := (if_neg old).symm.trans traced
        dsimp only at traced ⊢
        cases into : revAdj node with
        | none =>
            rw [into] at traced
            exact ih traced
        | some incoming =>
            rw [into] at traced
            dsimp only at traced ⊢
            obtain ⟨t, edges, rest⟩ := bind_ok traced
            rw [traceEdges_walk edges]
            exact ih rest

end Erase

section
variable {profile : Profile} {manifest : DependencyManifest} {window : History}
  {trip effect : StateTransition} {effectNode : NodeId} {effectTs : UInt64}

theorem traceEdges_ok (looked : effectInstance profile
      (fun node beforeTs => .ok (lastBefore window node beforeTs)) trip effectNode effectTs =
        .ok (some effect))
    (incoming : List DependencyEdge) (t : WalkTrace) :
    incoming.foldlM (traceEdge profile (fun node beforeTs => .ok (lastBefore window node beforeTs))
        trip effectNode effectTs) t =
      (incoming.foldlM (visitEdge profile
        (fun node beforeTs => .ok (lastBefore window node beforeTs)) trip effectNode effectTs)
          t.walk).map fun walk => { t with walk, evaluated := t.evaluated ++ incoming } := by
  induction incoming generalizing t with
  | nil => simp [pure, Except.pure, Except.map]
  | cons edge incoming ih =>
      rw [List.foldlM_cons, List.foldlM_cons, traceEdge, looked]
      cases visitEdge profile _ trip effectNode effectTs t.walk edge with
      | error fault => rfl
      | ok w =>
          have rest := ih { t with walk := w, evaluated := t.evaluated ++ [edge] }
          rw [List.append_assoc, List.singleton_append] at rest
          exact rest

theorem count_incoming (manifest : DependencyManifest) (e : DependencyEdge) (nodes : List NodeId) :
    (nodes.flatMap manifest.incoming).count e =
      nodes.count e.edgeTo * manifest.edges.count e := by
  induction nodes with
  | nil => simp
  | cons node nodes ih =>
      rw [List.flatMap_cons, List.count_append, ih, List.count_cons, Nat.add_mul, Nat.add_comm]
      congr 1
      by_cases here : e.edgeTo = node
      · simp [DependencyManifest.incoming, here, List.count_filter]
      · have absent : e ∉ manifest.incoming node := fun member =>
          here (of_decide_eq_true (List.mem_filter.mp member).2)
        simp [List.count_eq_zero_of_not_mem absent, Ne.symm here]

theorem incoming_subperm (manifest : DependencyManifest) {nodes : List NodeId}
    (distinct : nodes.Nodup) : (nodes.flatMap manifest.incoming).Subperm manifest.edges := by
  rw [List.subperm_ext_iff]
  intro e _
  have once := List.nodup_iff_count_le_one.mp distinct e.edgeTo
  rw [count_incoming]
  exact (Nat.mul_le_mul_right _ once).trans (Nat.one_mul _).le

theorem traceWalk_expand (indexed : manifest.Indexed) (fuel : Nat) {top : StateTransition}
    {visited : List NodeId} {stack : List StateTransition} (candidates : List CandidateCatalyst)
    (pops : Nat) (expanded : List NodeId) (evaluated : List DependencyEdge)
    (lost : List (NodeId × UInt64)) (fresh : top.node ∉ visited)
    (started : Started window trip visited (top :: stack)) :
    traceWalk profile (fun node beforeTs => .ok (lastBefore window node beforeTs)) manifest.revAdj
        trip (fuel + 1)
        ⟨⟨candidates, visited, (top :: stack).map entryOf⟩, pops, expanded, evaluated, lost⟩ =
      traceWalk profile (fun node beforeTs => .ok (lastBefore window node beforeTs)) manifest.revAdj
        trip fuel
        ⟨⟨candidates ++ ((linksInto manifest window top).filter
          CausalLink.violated).map CausalLink.catalyst, top.node :: visited,
            ((triggers manifest window top).reverse ++ stack).map entryOf⟩, pops + 1,
          expanded ++ [top.node], evaluated ++ manifest.incoming top.node, lost⟩ := by
  have looked := effectInstance_popped profile fresh started
  rw [List.map_cons, entryOf, traceWalk]
  refine (if_neg fresh).trans ?_
  dsimp only
  rw [indexed top.node]
  by_cases none_ : manifest.incoming top.node = []
  · simp [triggers, linksInto, none_]
  · rw [if_neg none_]
    dsimp only
    rw [traceEdges_ok looked, visitEdges_ok profile looked]
    simp [triggers, linksInto, List.map_reverse, Function.comp_def, bind, Except.bind, Except.map]

theorem traceWalk_ok (indexed : manifest.Indexed) (fuel : Nat) {visited : List NodeId}
    {stack : List StateTransition} (candidates : List CandidateCatalyst) (pops : Nat)
    (expanded : List NodeId) (evaluated : List DependencyEdge) (lost : List (NodeId × UInt64))
    (started : Started window trip visited stack)
    (enough : Worklist.pending DependencyEdge.edgeTo manifest.edges visited stack ≤ fuel) :
    let order := (Worklist.expansions StateTransition.node (triggers manifest window) fuel visited
      stack).map StateTransition.node
    ∃ after total, traceWalk profile (fun node beforeTs => .ok (lastBefore window node beforeTs))
        manifest.revAdj trip fuel
        ⟨⟨candidates, visited, stack.map entryOf⟩, pops, expanded, evaluated, lost⟩ =
      .ok ⟨after, total, expanded ++ order, evaluated ++ order.flatMap manifest.incoming, lost⟩ ∧
      total ≤ pops + Worklist.pending DependencyEdge.edgeTo manifest.edges visited stack := by
  induction fuel generalizing candidates visited stack pops expanded evaluated with
  | zero =>
      have empty : stack = [] := by
        apply List.eq_nil_of_length_eq_zero
        simp only [Worklist.pending] at enough
        omega
      subst empty
      exact ⟨⟨candidates, visited, []⟩, pops, by simp [traceWalk], Nat.le_add_right _ _⟩
  | succ fuel ih =>
      cases stack with
      | nil => exact ⟨⟨candidates, visited, []⟩, pops, by simp [traceWalk], Nat.le_add_right _ _⟩
      | cons top stack =>
          by_cases old : top.node ∈ visited
          · have popped : Worklist.pending DependencyEdge.edgeTo manifest.edges visited stack + 1 =
                Worklist.pending DependencyEdge.edgeTo manifest.edges visited (top :: stack) := by
              simp only [Worklist.pending, List.length_cons]
              omega
            obtain ⟨after, total, done, few⟩ := ih candidates (pops + 1) expanded evaluated
              (started_skip old started) (by omega)
            refine ⟨after, total, ?_, by omega⟩
            rw [Worklist.expansions, if_pos old, ← done, List.map_cons, entryOf, traceWalk]
            exact if_pos old
          · have step : Worklist.pending DependencyEdge.edgeTo manifest.edges (top.node :: visited)
                  ((triggers manifest window top).reverse ++ stack) + 1 ≤
                Worklist.pending DependencyEdge.edgeTo manifest.edges visited (top :: stack) :=
              Worklist.pending_expand stack (triggers_bounded top) old
            have started' : Started window trip (top.node :: visited)
                ((triggers manifest window top).reverse ++ stack) := started_expand started
            obtain ⟨after, total, done, few⟩ := ih
              (candidates ++ ((linksInto manifest window top).filter
                CausalLink.violated).map CausalLink.catalyst) (pops + 1)
              (expanded ++ [top.node]) (evaluated ++ manifest.incoming top.node) started' (by omega)
            refine ⟨after, total, ?_, by omega⟩
            rw [traceWalk_expand indexed fuel candidates _ _ _ _ old started, done,
              Worklist.expansions, if_neg old]
            simp only [List.map_cons, List.flatMap_cons, List.append_assoc, List.singleton_append]

end

theorem pushes_lookup {CAP : Nat} {pushed : List StateTransition} {ring : RingBuffer CAP}
    (filled : pushed.foldlM RingBuffer.push .new = .ok ring) : ∃ window : History,
      ring.lastForNodeBefore = fun node beforeTs => .ok (lastBefore window node beforeTs) := by
  by_cases positive : 0 < CAP
  · obtain ⟨after, filled', holds⟩ := pushes_new positive pushed
    obtain rfl := Except.ok.inj (filled.symm.trans filled')
    exact ⟨_, lastForNodeBefore_ok holds⟩
  · obtain rfl : CAP = 0 := by omega
    cases pushed with
    | nil =>
        cases filled
        exact ⟨[], rfl⟩
    | cons t pushed => cases filled

theorem violations_edges (manifest : DependencyManifest) (window : History)
    (trip : StateTransition) : ((violations manifest window trip).map CausalLink.edge).Sublist
      (((examined manifest window trip).map StateTransition.node).flatMap manifest.incoming) := by
  refine (List.filter_sublist.map _).trans ?_
  unfold linksInto
  generalize examined manifest window trip = effects
  induction effects with
  | nil => simp
  | cons effect effects ih =>
      rw [List.flatMap_cons, List.map_append, List.map_cons, List.flatMap_cons]
      refine List.Sublist.append ?_ ih
      generalize manifest.incoming effect.node = incoming
      induction incoming with
      | nil => exact List.nil_sublist _
      | cons edge incoming ih =>
          cases found : lastBefore window edge.edgeFrom effect.tsNs with
          | none =>
              rw [List.filterMap_cons_none (by simp [found])]
              exact ih.cons edge
          | some trigger =>
              rw [List.filterMap_cons_some (by simp [found]; rfl)]
              exact ih.cons_cons edge

theorem walk_bounded {CAP : Nat} (profile : Profile) (nodes : NodeTable)
    (edges : List DependencyEdge) (tripNode : NodeId) (pushed : List StateTransition)
    {ring : RingBuffer CAP} (filled : pushed.foldlM RingBuffer.push .new = .ok ring)
    (trip : StateTransition) :
    BoundedWalk profile ring (.new nodes edges tripNode) trip := by
  obtain ⟨window, lookup⟩ := pushes_lookup filled
  have indexed := new_indexed nodes edges tripNode
  generalize DependencyManifest.new nodes edges tripNode = manifest at indexed ⊢
  constructor
  case loop =>
    intro fuel enough
    have bound : Worklist.pending DependencyEdge.edgeTo manifest.edges [] [trip] ≤
        1 + manifest.edges.length := by
      simp only [Worklist.pending, List.length_singleton]
      exact Nat.add_le_add_left List.countP_le_length _
    obtain ⟨after, total, done, few⟩ := @traceWalk_ok profile manifest window trip indexed fuel []
      [trip] [] 0 [] [] [] (Or.inl ⟨rfl, rfl⟩) (bound.trans enough)
    have distinct : ((Worklist.expansions StateTransition.node (triggers manifest window) fuel []
        [trip]).map StateTransition.node).Nodup := Worklist.expansions_nodup _ _ _
    rw [← lookup] at done
    refine ⟨_, done, traceWalk_walk done, few.trans (by omega), ?_, ?_, rfl⟩
    · rwa [List.nil_append]
    · rw [List.nil_append]
      exact incoming_subperm manifest distinct
  case ranked =>
    have covers : ((attribution manifest window trip).rankedCatalysts.map
        CandidateCatalyst.edge).Subperm manifest.edges := by
      have distinct : ((examined manifest window trip).map StateTransition.node).Nodup :=
        Worklist.expansions_nodup _ _ _
      have ranked : ((attribution manifest window trip).rankedCatalysts.map
          CandidateCatalyst.edge).Perm ((violations manifest window trip).map CausalLink.edge) := by
        have sorted := (rank_perm ((violations manifest window trip).map
          CausalLink.catalyst)).map CandidateCatalyst.edge
        rwa [List.map_map] at sorted
      exact ranked.subperm.trans ((violations_edges manifest window trip).subperm.trans
        (incoming_subperm manifest distinct))
    refine ⟨attribution manifest window trip, ?_, covers, ?_⟩
    · rw [lookup]
      exact backtrackWith_ok profile indexed window trip
    · simpa using covers.length_le

theorem walk_bounded_cyclic : ∃ ring : RingBuffer 2,
    [⟨0, Cell.amr, 5, none⟩, ⟨1, Cell.fanuc, 7, none⟩].foldlM RingBuffer.push .new = .ok ring ∧
      BoundedWalk .dev ring (.new Cell.nodes [⟨Cell.amr, Cell.fanuc, 1⟩, ⟨Cell.fanuc, Cell.amr, 1⟩,
        ⟨Cell.fanuc, Cell.fanuc, 1⟩, ⟨Cell.fanuc, Cell.amr, 1⟩] Cell.plc)
        ⟨2, Cell.fanuc, 9, none⟩ :=
  ⟨_, rfl, walk_bounded .dev Cell.nodes _ Cell.plc
    [⟨0, Cell.amr, 5, none⟩, ⟨1, Cell.fanuc, 7, none⟩] rfl _⟩

end Proof
end CausalWorks
