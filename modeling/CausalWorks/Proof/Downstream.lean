import CausalWorks.Lib.Ranking
import CausalWorks.Proof.Staging

/-!
# Runs through everything downstream of a node

After a prefix that is free to choose, every node that the given one leads to is sighted once, in
the order of the declared edges, and the trip node goes down.
-/

namespace CausalWorks
open Relation

structure StagedBelow (profile : Profile) (manifest : DependencyManifest)
    (times : NodeId → UInt64) (node : NodeId) (front : History) : Prop where
  below : ∀ t ∈ front, TransGen (DependsOn manifest.edges) node t.node ∧
    t.node ≠ manifest.tripNode
  once : ∀ t ∈ front, ∀ u ∈ front, u.node = t.node → u = t
  stamped : ∀ t ∈ front, t.tsNs = times t.node
  complete : ∀ x, TransGen (DependsOn manifest.edges) node x → manifest.Feeds profile x →
    x ≠ manifest.tripNode → ∃ t ∈ front, t.node = x

namespace Proof
variable {profile : Profile} {manifest : DependencyManifest} {window front older : History}
  {trip down q : StateTransition} {order : IterationOrder} {cfg : ManifestCfg}
  {times : NodeId → UInt64} {node x : NodeId}

theorem feeds_leads {x : NodeId} (feeds : manifest.Feeds profile x) :
    ReflTransGen (DependsOn manifest.edges) x manifest.tripNode := by
  induction feeds with
  | trip => exact .refl
  | step _ edge _ ih => exact .head edge ih

theorem feeds_trip {x : NodeId} (feeds : manifest.Feeds profile x) :
    manifest.Observable profile manifest.tripNode := by
  induction feeds with
  | trip observable => exact observable
  | step _ _ _ ih => exact ih

theorem feeds_observable {x : NodeId} (feeds : manifest.Feeds profile x) :
    manifest.Observable profile x := by
  cases feeds with
  | trip observable => exact observable
  | step observable => exact observable

theorem declared_of_dependsOn (accepted : cfg.build order = .ok manifest) {a b : NodeId}
    (edge : DependsOn manifest.edges a b) : a ∈ cfg.ids := by
  obtain ⟨e, member, rfl, -⟩ := edge
  rw [(built_of_build accepted).edges] at member
  obtain ⟨e', inside, rfl⟩ := List.mem_map.mp member
  exact ((wellFormed_of_build accepted).declared e' inside).1

theorem length_ids_le (accepted : cfg.build order = .ok manifest) : cfg.ids.length ≤ 2 ^ 32 := by
  have distinct := (wellFormed_of_build accepted).distinct
  have numbers : (cfg.ids.map UInt32.toNat).Nodup :=
    distinct.map fun a b same => UInt32.toNat_inj.mp same
  have bounded : cfg.ids.map UInt32.toNat ⊆ List.range (2 ^ 32) := by
    intro n member
    obtain ⟨id, -, rfl⟩ := List.mem_map.mp member
    exact List.mem_range.mpr (UInt32.toNat_lt id)
  have le := (numbers.subperm bounded).length_le
  rwa [List.length_map, List.length_range] at le

noncomputable def sightedAt (manifest : DependencyManifest) (cfg : ManifestCfg)
    (pivot x : NodeId) : UInt64 :=
  UInt64.ofNat (60000000003 +
    Ranking.rankAfter (DependsOn manifest.edges) cfg.ids.toFinset pivot x)

theorem sightedAt_toNat (accepted : cfg.build order = .ok manifest) (pivot x : NodeId) :
    (sightedAt manifest cfg pivot x).toNat = 60000000003 +
      Ranking.rankAfter (DependsOn manifest.edges) cfg.ids.toFinset pivot x := by
  have bound := Ranking.rankAfter_le (r := DependsOn manifest.edges) (s := cfg.ids.toFinset) pivot x
  have few := (List.toFinset_card_le cfg.ids).trans (length_ids_le accepted)
  exact Nat.mod_eq_of_lt (by omega)

theorem sightedAt_lt (accepted : cfg.build order = .ok manifest) (pivot : NodeId) {x y : NodeId}
    (edge : DependsOn manifest.edges x y) :
    sightedAt manifest cfg pivot x < sightedAt manifest cfg pivot y := by
  rw [UInt64.lt_iff_toNat_lt, sightedAt_toNat accepted, sightedAt_toNat accepted]
  exact Nat.add_lt_add_left (Ranking.rankAfter_lt (acyclic_of_build accepted) pivot
    (List.mem_toFinset.mpr (declared_of_dependsOn accepted edge)) edge) _

theorem lastBefore_only {t : StateTransition} {bound : UInt64} (member : t ∈ window)
    (older : t.tsNs < bound)
    (only : ∀ u ∈ window, u.node = t.node → u.tsNs < bound → u = t) :
    lastBefore window t.node bound = some t := by
  cases found : lastBefore window t.node bound with
  | none => exact absurd older (lastBefore_none.mp found t member rfl)
  | some u =>
      obtain ⟨inside, node, older⟩ := lastBefore_some found
      rw [only u inside node older]

theorem lastBefore_append {newer older : History} {node : NodeId} {bound : UInt64}
    (absent : ∀ u ∈ newer, u.node ≠ node) :
    lastBefore (newer ++ older) node bound = lastBefore older node bound := by
  have none_ : lastBefore newer node bound = none :=
    lastBefore_none.mpr fun u member same => absurd same (absent u member)
  unfold lastBefore at none_ ⊢
  rw [List.find?_append, none_, Option.none_or]

theorem lastBefore_head {t : StateTransition} {node : NodeId} {bound : UInt64}
    (same : t.node = node) (older : t.tsNs < bound) :
    lastBefore (t :: window) node bound = some t := by
  unfold lastBefore
  rw [List.find?_cons_of_pos]
  simp [same, older]

theorem lastBefore_skip {t : StateTransition} {bound : UInt64}
    (skipped : t.node ≠ node ∨ ¬ t.tsNs < bound) :
    lastBefore (t :: window) node bound = lastBefore window node bound := by
  unfold lastBefore
  rw [List.find?_cons_of_neg]
  rcases skipped with other | newer
  · simp [other]
  · simp [UInt64.not_lt.mp newer]

theorem mem_linksInto_mk {effect trigger : StateTransition} {a : NodeId}
    (edge : DependsOn manifest.edges a effect.node)
    (found : lastBefore window a effect.tsNs = some trigger) :
    ∃ l ∈ linksInto manifest window effect, l.trigger = trigger ∧ l.effect = effect := by
  obtain ⟨e, member, rfl, into⟩ := edge
  exact ⟨⟨e, trigger, effect⟩, mem_linksInto.mpr ⟨member, into, rfl, found⟩, rfl, rfl⟩

theorem reached_of_feeds {P : NodeId → Prop} {times : NodeId → UInt64}
    (ordered : ∀ x y, DependsOn manifest.edges x y → times x < times y)
    (closed : ∀ x y, P x → DependsOn manifest.edges x y → P y)
    (tripNode : trip.node = manifest.tripNode) (tripTime : trip.tsNs = times manifest.tripNode)
    (sighted : ∀ x, P x → manifest.Feeds profile x → x ≠ manifest.tripNode →
      ∃ t, t.node = x ∧ t.tsNs = times x ∧ ∀ bound, times x < bound →
        lastBefore window x bound = some t)
    {x : NodeId} (feeds : manifest.Feeds profile x) (inside : P x) :
    ∃ t, Reached manifest window trip t ∧ t.node = x ∧ t.tsNs = times x := by
  induction feeds with
  | trip => exact ⟨trip, .trip, tripNode, tripTime⟩
  | @step a b observable edge feeds ih =>
      by_cases isTrip : a = manifest.tripNode
      · exact ⟨trip, .trip, tripNode.trans isTrip.symm, by rw [tripTime, isTrip]⟩
      · obtain ⟨effect, reached, node, time⟩ := ih (closed a b inside edge)
        obtain ⟨t, tNode, tTime, found⟩ := sighted a inside (.step observable edge feeds) isTrip
        have older := found effect.tsNs (by rw [time]; exact ordered a b edge)
        rw [← node] at edge
        obtain ⟨l, link, rfl, -⟩ := mem_linksInto_mk edge older
        exact ⟨l.trigger, .trigger reached link, tNode, tTime⟩

theorem budget_le (accepted : cfg.build order = .ok manifest) {e : DependencyEdge}
    (member : e ∈ manifest.edges) : e.wcetNs.toNat ≤ 60000000000 := by
  rw [(built_of_build accepted).edges] at member
  obtain ⟨declared, inside, rfl⟩ := List.mem_map.mp member
  exact ((wellFormed_of_build accepted).budgets declared inside).2

theorem late_link (accepted : cfg.build order = .ok manifest) {effect trigger : StateTransition}
    {a : NodeId} (edge : DependsOn manifest.edges a effect.node)
    (found : lastBefore window a effect.tsNs = some trigger)
    (old : trigger.tsNs.toNat + 60000000000 < effect.tsNs.toNat) :
    ∃ l ∈ linksInto manifest window effect, l.trigger = trigger ∧ l.edge.wcetNs < l.dt := by
  obtain ⟨l, link, rfl, rfl⟩ := mem_linksInto_mk edge found
  refine ⟨l, link, rfl, ?_⟩
  have budget := budget_le accepted (mem_linksInto.mp link).1
  rw [UInt64.lt_iff_toNat_lt, CausalLink.dt, saturatingSub_toNat]
  omega

theorem staged_below (accepted : cfg.build order = .ok manifest)
    (seen : manifest.Observable profile manifest.tripNode) (node : NodeId)
    (pre : List DecodedFieldbusFrame) (known : ∀ f ∈ pre, ∃ n interlock,
      manifest.classify profile f = .ok (some (n, interlock)) ∧ n ≠ manifest.tripNode)
    (short : pre.length ≤ 2 ^ 32) (times : NodeId → UInt64) :
    ∃ frames up front down, ReportsAt profile manifest frames
        (down :: (front ++ historyOf manifest.record [up] pre)) down ∧
      up.node = manifest.tripNode ∧ down.node = manifest.tripNode ∧
      down.tsNs = times manifest.tripNode ∧ StagedBelow profile manifest times node front := by
  classical
  let xs := cfg.ids.filter fun x => decide (TransGen (DependsOn manifest.edges) node x ∧
    manifest.Feeds profile x ∧ x ≠ manifest.tripNode)
  have chosen : ∀ x ∈ xs, manifest.Observable profile x ∧ x ≠ manifest.tripNode := by
    intro x member
    obtain ⟨-, feeds, other⟩ := of_decide_eq_true (List.mem_filter.mp member).2
    exact ⟨feeds_observable feeds, other⟩
  have few := length_ids_le accepted
  have fewer : xs.length ≤ cfg.ids.length := List.length_filter_le _ _
  obtain ⟨frames, up, front, down, reports, upNode, downNode, downTime, nodes, stamped⟩ :=
    staged_run (indexed_of_build accepted) (tripNode_levels accepted seen) known chosen times
      (by omega)
  have members : ∀ x, x ∈ xs ↔ ∃ t ∈ front, t.node = x := by
    intro x
    rw [← List.mem_reverse, ← nodes, List.mem_map]
  refine ⟨frames, up, front, down, reports, upNode, downNode, downTime, ?_⟩
  constructor
  case below =>
      intro t member
      obtain ⟨leads, -, other⟩ := of_decide_eq_true
        (List.mem_filter.mp ((members t.node).mpr ⟨t, member, rfl⟩)).2
      exact ⟨leads, other⟩
  case once =>
      have distinct : (front.map StateTransition.node).Nodup := by
        rw [nodes, List.nodup_reverse]
        exact (wellFormed_of_build accepted).distinct.filter _
      exact fun t member u inside same => List.inj_on_of_nodup_map distinct inside member same
  case stamped => exact stamped
  case complete =>
      intro x leads feeds other
      have declared : x ∈ cfg.ids := by
        cases feeds with
        | trip => exact absurd rfl other
        | step _ edge => exact declared_of_dependsOn accepted edge
      exact (members x).mp (List.mem_filter.mpr ⟨declared, decide_eq_true ⟨leads, feeds, other⟩⟩)

def Upstream (manifest : DependencyManifest) (node : NodeId) (older : History) : Prop :=
  ∀ t ∈ older, TransGen (DependsOn manifest.edges) node t.node → t.node = manifest.tripNode

theorem upstream_trip {t : StateTransition} (is : t.node = manifest.tripNode) :
    Upstream manifest node [t] := by
  intro u member _
  rw [List.mem_singleton.mp member]
  exact is

theorem Upstream.cons (apart : Upstream manifest node older) {t : StateTransition}
    (unled : ¬ TransGen (DependsOn manifest.edges) node t.node) :
    Upstream manifest node (t :: older) := by
  intro u member leads
  rcases List.mem_cons.mp member with rfl | before
  · exact absurd leads unled
  · exact apart u before leads

theorem found_below (staged : StagedBelow profile manifest times node front)
    (downNode : down.node = manifest.tripNode) (apart : Upstream manifest node older)
    (leads : TransGen (DependsOn manifest.edges) node x) (feeds : manifest.Feeds profile x)
    (other : x ≠ manifest.tripNode) : ∃ t, t.node = x ∧ t.tsNs = times x ∧
      ∀ bound, times x < bound → lastBefore (down :: (front ++ older)) x bound = some t := by
  obtain ⟨t, member, rfl⟩ := staged.complete x leads feeds other
  refine ⟨t, rfl, staged.stamped t member, fun bound after => ?_⟩
  apply lastBefore_only (by simp [member]) (by rw [staged.stamped t member]; exact after)
  intro u inside same _
  rcases List.mem_cons.mp inside with rfl | inside
  · exact absurd (same.symm.trans downNode) other
  · rcases List.mem_append.mp inside with recent | before
    · exact staged.once t member u recent same
    · exact absurd (same ▸ apart u before (same ▸ leads)) other

theorem found_above (staged : StagedBelow profile manifest times node front)
    (downNode : down.node = manifest.tripNode)
    (unled : ¬ TransGen (DependsOn manifest.edges) node x) (other : x ≠ manifest.tripNode)
    (bound : UInt64) :
    lastBefore (down :: (front ++ older)) x bound = lastBefore older x bound := by
  rw [← List.cons_append]
  apply lastBefore_append
  intro u member same
  rcases List.mem_cons.mp member with rfl | inside
  · exact other (same.symm.trans downNode)
  · exact unled (same ▸ (staged.below u inside).1)

theorem unforked_of_once (acyclic : ∀ n, ¬ TransGen (DependsOn manifest.edges) n n)
    (inside : trip ∈ window) (once : ∀ t ∈ window, ∀ u ∈ window, u.node = t.node →
      t.node ≠ trip.node → u = t) : Unforked manifest window trip := by
  intro q reached _ q' reached' same
  by_cases atTrip : q.node = trip.node
  · rw [reached_trip_unique acyclic reached atTrip,
      reached_trip_unique acyclic reached' (same.trans atTrip)]
  · exact once q (Reached.recent inside reached) q' (Reached.recent inside reached') same atTrip

theorem blamed_run (accepted : cfg.build order = .ok manifest) {source : NodeId}
    (seen : manifest.Observable profile source) (edge : DependsOn manifest.edges source node)
    (feeds : manifest.Feeds profile node) :
    ∃ frames window down, ReportsAt profile manifest frames window down ∧
      ∃ c ∈ (attribution manifest window down).rankedCatalysts, c.trigger.node = source := by
  have acyclic := acyclic_of_build accepted
  have other : source ≠ manifest.tripNode := by
    rintro rfl
    exact acyclic _ (.head' edge (feeds_leads feeds))
  obtain ⟨sourceFrame, level, sourceIs⟩ := seen
  have known : ∀ f ∈ [sourceFrame.at 1], ∃ n interlock,
      manifest.classify profile f = .ok (some (n, interlock)) ∧ n ≠ manifest.tripNode := by
    intro f member
    rw [List.mem_singleton.mp member]
    exact ⟨source, level, (classify_at _ _).trans sourceIs, other⟩
  let times := sightedAt manifest cfg manifest.tripNode
  obtain ⟨frames, up, front, down, reports, upNode, downNode, downTime, staged⟩ :=
    staged_below accepted (feeds_trip feeds) source _ known (by simp) times
  let src := transitionOf [up] (sourceFrame.at 1) source level
  have past : historyOf manifest.record [up] [sourceFrame.at 1] = [src, up] := by
    rw [historyOf_assigned (assign_of_classify ((classify_at _ _).trans sourceIs))]
    rfl
  rw [past] at reports
  have upstream : Upstream manifest source [src, up] := (upstream_trip upNode).cons (acyclic _)
  obtain ⟨effect, reached, effectNode, effectTime⟩ := reached_of_feeds
    (fun x y => sightedAt_lt accepted manifest.tripNode) (fun _ _ leads next => leads.tail next)
    downNode downTime (fun x => found_below staged downNode upstream) feeds (.single edge)
  have minute : 1 + 60000000000 < effect.tsNs.toNat := by
    rw [effectTime, sightedAt_toNat accepted]
    exact Nat.lt_of_lt_of_le (by decide) (Nat.le_add_right _ _)
  have found : lastBefore (down :: (front ++ [src, up])) source effect.tsNs = some src := by
    rw [found_above staged downNode (acyclic _) other]
    have after : 1 < effect.tsNs.toNat := lt_trans (by decide) minute
    exact lastBefore_head rfl (UInt64.lt_iff_toNat_lt.mpr after)
  obtain ⟨l, link, trigger, late⟩ := late_link accepted (effectNode ▸ edge) found minute
  have once : ∀ t ∈ down :: (front ++ [src, up]), ∀ u ∈ down :: (front ++ [src, up]),
      u.node = t.node → t.node ≠ down.node → u = t := by
    have cases_ : ∀ t ∈ down :: (front ++ [src, up]), t.node ≠ down.node → t ∈ front ∨ t = src := by
      intro t member off
      simp only [List.mem_cons, List.mem_append, List.not_mem_nil, or_false] at member
      rcases member with rfl | inFront | rfl | rfl
      · exact absurd rfl off
      · exact .inl inFront
      · exact .inr rfl
      · exact absurd (upNode.trans downNode.symm) off
    intro t member u inside same off
    rcases cases_ t member off, cases_ u inside (same ▸ off) with ⟨here | rfl, there | rfl⟩
    · exact staged.once t here u there same
    · exact absurd (same ▸ (staged.below t here).1) (acyclic _)
    · exact absurd (same ▸ (staged.below u there).1) (acyclic _)
    · rfl
  refine ⟨frames, _, down, reports, l.catalyst, ?_, congrArg StateTransition.node trigger⟩
  exact reportsAll_of_unforked (unforked_of_once acyclic List.mem_cons_self once) effect reached l
    link late

end Proof
end CausalWorks
