import CausalWorks.Proof.Ring

/-!
# The walk of the engine examines the instances of the history model

The engine carries `(node, timestamp)` pairs and looks every effect up again. The lookup returns
the trigger that was pushed, so the walk is the search over transitions.
-/

namespace CausalWorks
open Proof

def DependencyManifest.Indexed (self : DependencyManifest) : Prop :=
  ∀ node, self.revAdj node = if self.incoming node = [] then none else some (self.incoming node)

namespace Proof

theorem foldl_pushEdge (edges before : List DependencyEdge)
    (revAdj : NodeId → Option (List DependencyEdge))
    (indexed : ∀ node, revAdj node = let into := before.filter fun e => e.edgeTo = node
      if into = [] then none else some into) (node : NodeId) :
    edges.foldl pushEdge revAdj node = let into := (before ++ edges).filter fun e => e.edgeTo = node
      if into = [] then none else some into := by
  induction edges generalizing before revAdj with
  | nil => simpa using indexed node
  | cons e edges ih =>
      rw [List.foldl_cons, show before ++ e :: edges = before ++ [e] ++ edges by simp]
      apply ih
      intro n
      simp only [pushEdge, Function.update_apply, indexed, List.filter_append]
      by_cases here : n = e.edgeTo
      · subst here
        by_cases none_ : before.filter (fun x => x.edgeTo = e.edgeTo) = [] <;> simp [none_]
      · simp [here, Ne.symm here]

theorem new_indexed (nodes : NodeTable) (edges : List DependencyEdge) (tripNode : NodeId) :
    (DependencyManifest.new nodes edges tripNode).Indexed := by
  intro node
  exact foldl_pushEdge edges [] (fun _ => none) (fun _ => by simp) node

variable {manifest : DependencyManifest} {window : History}

theorem mem_linksInto {effect : StateTransition} {l : CausalLink} :
    l ∈ linksInto manifest window effect ↔
      l.edge ∈ manifest.edges ∧ l.edge.edgeTo = effect.node ∧ l.effect = effect ∧
        lastBefore window l.edge.edgeFrom effect.tsNs = some l.trigger := by
  simp only [linksInto, List.mem_filterMap, Option.map_eq_some_iff, DependencyManifest.incoming,
    List.mem_filter, decide_eq_true_eq]
  constructor
  · rintro ⟨edge, ⟨declared, into⟩, trigger, found, rfl⟩
    exact ⟨declared, into, rfl, found⟩
  · rintro ⟨declared, into, rfl, found⟩
    exact ⟨l.edge, ⟨declared, into⟩, l.trigger, found, rfl⟩

theorem triggers_bounded (effect : StateTransition) :
    (triggers manifest window effect).length ≤
      manifest.edges.countP fun e => decide (e.edgeTo = effect.node) := by
  rw [triggers, List.length_map, List.countP_eq_length_filter]
  exact List.length_filterMap_le _ _

section Expand
variable (profile : Profile) {trip effect : StateTransition} {effectNode : NodeId}
  {effectTs : UInt64}

def entryOf (t : StateTransition) : NodeId × UInt64 := (t.node, t.tsNs)

theorem visitEdges_ok (looked : effectInstance profile
      (fun node beforeTs => .ok (lastBefore window node beforeTs)) trip effectNode effectTs =
        .ok (some effect))
    (incoming : List DependencyEdge) (w : Walk) :
    incoming.foldlM (visitEdge profile
      (fun node beforeTs => .ok (lastBefore window node beforeTs)) trip effectNode effectTs) w =
    let links : List CausalLink := incoming.filterMap fun edge =>
      (lastBefore window edge.edgeFrom effect.tsNs).map fun trigger => ⟨edge, trigger, effect⟩
    .ok { w with
      candidates := w.candidates ++ (links.filter CausalLink.violated).map CausalLink.catalyst
      frontier := (links.map fun l => entryOf l.trigger).reverse ++ w.frontier } := by
  induction incoming generalizing w with
  | nil => simp [pure, Except.pure]
  | cons edge incoming ih =>
      simp only [List.foldlM_cons, visitEdge, looked, bind, Except.bind, pure, Except.pure]
      cases found : lastBefore window edge.edgeFrom effect.tsNs with
      | none =>
          rw [List.filterMap_cons_none (by simp [found])]
          exact ih w
      | some trigger =>
          have node := (lastBefore_some found).2.1
          rw [List.filterMap_cons_some (by simp [found]; rfl)]
          simp only [ih]
          congr 1
          simp only [Walk.mk.injEq, true_and]
          constructor
          · by_cases late : edge.wcetNs < saturatingSub effect.tsNs trigger.tsNs <;>
              simp [CausalLink.violated, CausalLink.dt, CausalLink.catalyst, late]
          · simp [entryOf, node]

end Expand

section Equations
variable (profile : Profile) (lookup : NodeId → UInt64 → Except Fault (Option StateTransition))
  (revAdj : NodeId → Option (List DependencyEdge)) (trip : StateTransition)
  {candidates : List CandidateCatalyst} {visited : List NodeId} {node : NodeId} {ts : UInt64}
  {frontier : List (NodeId × UInt64)}

theorem walk_nil (fuel : Nat) :
    walk profile lookup revAdj trip fuel ⟨candidates, visited, []⟩ =
      .ok ⟨candidates, visited, []⟩ := by
  unfold walk
  rfl

theorem walk_seen (fuel : Nat) (old : node ∈ visited) :
    walk profile lookup revAdj trip (fuel + 1) ⟨candidates, visited, (node, ts) :: frontier⟩ =
      walk profile lookup revAdj trip fuel ⟨candidates, visited, frontier⟩ := by
  rw [walk]
  exact if_pos old

theorem walk_fresh (fuel : Nat) (fresh : node ∉ visited) :
    walk profile lookup revAdj trip (fuel + 1) ⟨candidates, visited, (node, ts) :: frontier⟩ =
      match revAdj node with
      | none => walk profile lookup revAdj trip fuel ⟨candidates, node :: visited, frontier⟩
      | some incoming =>
          incoming.foldlM (visitEdge profile lookup trip node ts)
            ⟨candidates, node :: visited, frontier⟩ >>= walk profile lookup revAdj trip fuel := by
  rw [walk]
  exact if_neg fresh

end Equations

/-- What the engine needs of a pending transition: it is the trip, or the lookup finds it again. -/
def FoundAgain (window : History) (t : StateTransition) : Prop :=
  lastBefore window t.node (t.tsNs + 1) = some t ∧ t.tsNs.toNat + 1 < 2 ^ 64

theorem foundAgain_trigger {effect : StateTransition} {l : CausalLink}
    (member : l ∈ linksInto manifest window effect) : FoundAgain window l.trigger := by
  obtain ⟨-, -, -, found⟩ := mem_linksInto.mp member
  refine ⟨lastBefore_self found, ?_⟩
  have older := (lastBefore_some found).2.2
  rw [← toNat_add_one older]
  exact UInt64.toNat_lt _

theorem effectInstance_trip (profile : Profile) (trip : StateTransition)
    (lookup : NodeId → UInt64 → Except Fault (Option StateTransition)) :
    effectInstance profile lookup trip trip.node trip.tsNs = .ok (some trip) := by
  simp [effectInstance]

theorem effectInstance_again (profile : Profile) {trip t : StateTransition}
    (other : t.node ≠ trip.node) (again : FoundAgain window t) :
    effectInstance profile (fun node beforeTs => .ok (lastBefore window node beforeTs)) trip
      t.node t.tsNs = .ok (some t) := by
  have noOverflow : t.tsNs.toNat + (1 : UInt64).toNat < 2 ^ 64 := by
    rw [UInt64.toNat_one]
    exact again.2
  simp only [effectInstance, other, false_and, if_false, addU64_of_lt profile _ _ noOverflow, bind,
    Except.bind, again.1]

/-- The search state: either the walk is about to pop the trip, or the trip has been visited. -/
def Started (window : History) (trip : StateTransition) (visited : List NodeId)
    (stack : List StateTransition) : Prop :=
  (visited = [] ∧ stack = [trip]) ∨
    (trip.node ∈ visited ∧ ∀ t ∈ stack, FoundAgain window t)

section
variable {trip top : StateTransition} {visited : List NodeId} {stack : List StateTransition}

theorem started_skip (old : top.node ∈ visited)
    (started : Started window trip visited (top :: stack)) : Started window trip visited stack := by
  rcases started with ⟨rfl, -⟩ | ⟨seen, again⟩
  · cases old
  · exact Or.inr ⟨seen, fun t member => again t (List.mem_cons_of_mem _ member)⟩

theorem started_expand (started : Started window trip visited (top :: stack)) :
    Started window trip (top.node :: visited)
      ((triggers manifest window top).reverse ++ stack) := by
  right
  rcases started with ⟨-, isTrip⟩ | ⟨seen, again⟩
  · obtain ⟨rfl, rfl⟩ := List.cons.inj isTrip
    refine ⟨List.mem_cons_self, fun t member => ?_⟩
    rw [List.append_nil] at member
    obtain ⟨l, link, rfl⟩ := List.mem_map.mp (List.mem_reverse.mp member)
    exact foundAgain_trigger link
  · refine ⟨List.mem_cons_of_mem _ seen, fun t member => ?_⟩
    rcases List.mem_append.mp member with pushed | waiting
    · obtain ⟨l, link, rfl⟩ := List.mem_map.mp (List.mem_reverse.mp pushed)
      exact foundAgain_trigger link
    · exact again t (List.mem_cons_of_mem _ waiting)

theorem effectInstance_popped (profile : Profile) (fresh : top.node ∉ visited)
    (started : Started window trip visited (top :: stack)) :
    effectInstance profile (fun node beforeTs => .ok (lastBefore window node beforeTs)) trip
      top.node top.tsNs = .ok (some top) := by
  rcases started with ⟨-, isTrip⟩ | ⟨seen, again⟩
  · obtain ⟨rfl, -⟩ := List.cons.inj isTrip
    exact effectInstance_trip profile top _
  · refine effectInstance_again profile ?_ (again top List.mem_cons_self)
    exact fun same => fresh (same ▸ seen)

theorem walk_expand (profile : Profile) (indexed : manifest.Indexed) (fuel : Nat)
    (candidates : List CandidateCatalyst) (fresh : top.node ∉ visited)
    (started : Started window trip visited (top :: stack)) :
    walk profile (fun node beforeTs => .ok (lastBefore window node beforeTs)) manifest.revAdj trip
        (fuel + 1) ⟨candidates, visited, (top :: stack).map entryOf⟩ =
      walk profile (fun node beforeTs => .ok (lastBefore window node beforeTs)) manifest.revAdj trip
        fuel ⟨candidates ++ ((linksInto manifest window top).filter
          CausalLink.violated).map CausalLink.catalyst, top.node :: visited,
            ((triggers manifest window top).reverse ++ stack).map entryOf⟩ := by
  have edges := visitEdges_ok profile (effectInstance_popped profile fresh started)
    (manifest.incoming top.node) ⟨candidates, top.node :: visited, stack.map entryOf⟩
  rw [List.map_cons, entryOf, walk_fresh profile _ _ _ fuel fresh, indexed top.node]
  by_cases none_ : manifest.incoming top.node = []
  · simp [triggers, linksInto, none_]
  · rw [if_neg none_]
    simp only [edges, bind, Except.bind]
    simp [triggers, linksInto, List.map_reverse, Function.comp_def]

end

theorem walk_ok (profile : Profile) (indexed : manifest.Indexed) (window : History)
    (trip : StateTransition)
    (fuel : Nat) (candidates : List CandidateCatalyst) (visited : List NodeId)
    (stack : List StateTransition) (started : Started window trip visited stack)
    (enough : Worklist.pending DependencyEdge.edgeTo manifest.edges visited stack ≤ fuel) :
    ∃ seen, walk profile (fun node beforeTs => .ok (lastBefore window node beforeTs))
        manifest.revAdj trip fuel ⟨candidates, visited, stack.map entryOf⟩ =
      .ok ⟨candidates ++ (((Worklist.expansions StateTransition.node
          (triggers manifest window) fuel visited stack).flatMap (linksInto manifest window)).filter
            CausalLink.violated).map CausalLink.catalyst, seen, []⟩ := by
  induction fuel generalizing candidates visited stack with
  | zero =>
      have empty : stack = [] := by
        apply List.eq_nil_of_length_eq_zero
        simp only [Worklist.pending] at enough
        omega
      subst empty
      exact ⟨visited, by simp [walk_nil]⟩
  | succ fuel ih =>
      cases stack with
      | nil => exact ⟨visited, by simp [walk_nil]⟩
      | cons top stack =>
          by_cases old : top.node ∈ visited
          · have enough' : Worklist.pending DependencyEdge.edgeTo manifest.edges visited stack ≤
                fuel := by
              simp only [Worklist.pending, List.length_cons] at enough ⊢
              omega
            obtain ⟨seen, done⟩ := ih candidates visited stack (started_skip old started) enough'
            refine ⟨seen, ?_⟩
            rw [Worklist.expansions, if_pos old, ← done, List.map_cons]
            exact walk_seen profile _ _ _ fuel old
          · have step : Worklist.pending DependencyEdge.edgeTo manifest.edges (top.node :: visited)
                  ((triggers manifest window top).reverse ++ stack) + 1 ≤
                Worklist.pending DependencyEdge.edgeTo manifest.edges visited (top :: stack) :=
              Worklist.pending_expand stack (triggers_bounded top) old
            have started' : Started window trip (top.node :: visited)
                ((triggers manifest window top).reverse ++ stack) := started_expand started
            obtain ⟨seen, done⟩ := ih
              (candidates ++ ((linksInto manifest window top).filter
                CausalLink.violated).map CausalLink.catalyst)
              (top.node :: visited) _ started' (by omega)
            refine ⟨seen, ?_⟩
            rw [walk_expand profile indexed fuel candidates old started, done, Worklist.expansions,
              if_neg old]
            simp only [List.flatMap_cons, List.filter_append, List.map_append, List.append_assoc]

theorem backtrackWith_ok (profile : Profile) (indexed : manifest.Indexed) (window : History)
    (trip : StateTransition) :
    backtrackWith profile (fun node beforeTs => .ok (lastBefore window node beforeTs)) manifest
      trip = .ok (attribution manifest window trip) := by
  have enough : Worklist.pending DependencyEdge.edgeTo manifest.edges [] [trip] ≤
      1 + manifest.edges.length := by
    simp only [Worklist.pending, List.length_singleton]
    exact Nat.add_le_add_left List.countP_le_length _
  obtain ⟨seen, done⟩ := walk_ok profile indexed window trip _ [] [] [trip]
    (Or.inl ⟨rfl, rfl⟩) enough
  simp only [List.map_cons, List.map_nil, entryOf, List.nil_append] at done
  simp only [backtrackWith, done, bind, Except.bind, pure, Except.pure, attribution, violations,
    examined]

end Proof
end CausalWorks
