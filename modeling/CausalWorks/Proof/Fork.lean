import CausalWorks.Proof.Downstream
import CausalWorks.Proof.Fabrication

/-!
# A fork loses violated links

Where a node feeds the trip through two successors, a run can make them react to two different
instances of it. Both are on a chain from the trip, and only one is examined.
-/

namespace CausalWorks
open Relation

structure ForkedAt (manifest : DependencyManifest) (window : History)
    (trip q q' : StateTransition) : Prop where
  reached : Reached manifest window trip q
  reached' : Reached manifest window trip q'
  node : q.node = q'.node
  distinct : q ≠ q'
  late : ∃ l ∈ linksInto manifest window q, l.edge.wcetNs < l.dt
  late' : ∃ l ∈ linksInto manifest window q', l.edge.wcetNs < l.dt

namespace Diamond

def cfg : ManifestCfg :=
  { nodes := [⟨1, .ros2Port 7400⟩, ⟨2, .ros2Port 7401⟩, ⟨3, .ros2Port 7402⟩, ⟨4, .ros2Port 7403⟩,
      ⟨5, .profinet 0x0002 0⟩]
    edges := [⟨1, 2, 1000000⟩, ⟨2, 3, 1000000⟩, ⟨2, 4, 1000000⟩, ⟨3, 5, 15000000⟩, ⟨4, 5, 15000000⟩]
    tripNode := 5 }

def manifest : DependencyManifest :=
  .new [⟨5, .profinetFrame 0x0002 0⟩, ⟨4, .ros2Port 7403⟩, ⟨3, .ros2Port 7402⟩, ⟨2, .ros2Port 7401⟩,
      ⟨1, .ros2Port 7400⟩].toAList
    [⟨1, 2, 1000000⟩, ⟨2, 3, 1000000⟩, ⟨2, 4, 1000000⟩, ⟨3, 5, 15000000⟩, ⟨4, 5, 15000000⟩] 5

theorem build_cfg : cfg.build .declared = .ok manifest := by rfl

def ros2At (port : UInt16) (ts : UInt64) : DecodedFieldbusFrame := ⟨ts, .ros2Udp port 32, []⟩

def frames : List DecodedFieldbusFrame :=
  [Cell.plcAt 0 true, ros2At 7400 1000000, ros2At 7401 11000000, ros2At 7402 11500000,
    ros2At 7400 20000000, ros2At 7401 20500000, ros2At 7403 21000000, Cell.plcAt 22000000 false]

def trip : StateTransition := ⟨7, 5, 22000000, some false⟩
def plan : StateTransition := ⟨3, 3, 11500000, none⟩
def map : StateTransition := ⟨2, 2, 11000000, none⟩
def scan : StateTransition := ⟨1, 1, 1000000, none⟩

def lost : CausalLink := ⟨⟨1, 2, 1000000⟩, scan, map⟩

end Diamond

namespace Proof
variable {profile : Profile} {manifest : DependencyManifest} {window : History}
  {trip q q' : StateTransition} {order : IterationOrder} {cfg : ManifestCfg}

theorem examined_of_ranked {t : StateTransition} {l : CausalLink}
    (link : l ∈ linksInto manifest window t)
    (ranked : l.catalyst ∈ (attribution manifest window trip).rankedCatalysts) :
    t ∈ examined manifest window trip := by
  obtain ⟨l', reported, same⟩ := mem_rankedCatalysts.mp ranked
  have effects : l'.effect = l.effect := congrArg CandidateCatalyst.effect same
  rw [← (mem_linksInto.mp link).2.2.1, ← effects]
  exact (mem_violations_iff.mp reported).1

theorem forkedAt_exclusive (forked : ForkedAt manifest window trip q q') {l l' : CausalLink}
    (link : l ∈ linksInto manifest window q) (link' : l' ∈ linksInto manifest window q')
    (ranked : l.catalyst ∈ (attribution manifest window trip).rankedCatalysts) :
    l'.catalyst ∉ (attribution manifest window trip).rankedCatalysts := fun ranked' =>
  forked.distinct (Worklist.expansions_key_injective (examined_of_ranked link ranked)
    (examined_of_ranked link' ranked') forked.node)

theorem not_reportsAll (forked : ForkedAt manifest window trip q q') :
    ¬ ReportsAll manifest window (attribution manifest window trip) := by
  intro all
  obtain ⟨l, link, late⟩ := forked.late
  obtain ⟨l', link', late'⟩ := forked.late'
  exact forkedAt_exclusive forked link link' (all q forked.reached l link late)
    (all q' forked.reached' l' link' late')

structure ForkStage (profile : Profile) (manifest : DependencyManifest) (times : NodeId → UInt64)
    (source node : NodeId) (between : UInt64) (window : History)
    (down src early late : StateTransition) : Prop where
  trip : down.node = manifest.tripNode
  tripTime : down.tsNs = times manifest.tripNode
  downstream : ∀ x, TransGen (DependsOn manifest.edges) node x → manifest.Feeds profile x →
    x ≠ manifest.tripNode → ∃ t, t.node = x ∧ t.tsNs = times x ∧
      ∀ bound, times x < bound → lastBefore window x bound = some t
  srcTime : src.tsNs = 1
  srcFound : ∀ bound, 1 < bound → lastBefore window source bound = some src
  earlyTime : early.tsNs = 60000000002
  earlyFound : ∀ bound, 60000000002 < bound → bound ≤ between →
    lastBefore window node bound = some early
  lateTime : late.tsNs = between
  lateFound : ∀ bound, between < bound → lastBefore window node bound = some late

theorem forkedAt_of_stage (accepted : cfg.build order = .ok manifest)
    {times : NodeId → UInt64} {source node left right : NodeId}
    {down src early late : StateTransition}
    (stage : ForkStage profile manifest times source node (times left) window down src early late)
    (ordered : ∀ x y, DependsOn manifest.edges x y → times x < times y)
    (afterMinute : 60000000002 < (times left).toNat) (between : times left < times right)
    (into : DependsOn manifest.edges source node)
    (toLeft : DependsOn manifest.edges node left) (leftFeeds : manifest.Feeds profile left)
    (toRight : DependsOn manifest.edges node right) (rightFeeds : manifest.Feeds profile right) :
    ForkedAt manifest window down early late := by
  have reach : ∀ x, DependsOn manifest.edges node x → manifest.Feeds profile x →
      ∃ t, Reached manifest window down t ∧ t.node = x ∧ t.tsNs = times x := by
    intro x edge feeds
    exact reached_of_feeds (P := TransGen (DependsOn manifest.edges) node) ordered
      (fun _ _ leads next => leads.tail next) stage.trip stage.tripTime stage.downstream feeds
      (.single edge)
  obtain ⟨atLeft, leftReached, leftNode, leftTime⟩ := reach left toLeft leftFeeds
  obtain ⟨atRight, rightReached, rightNode, rightTime⟩ := reach right toRight rightFeeds
  have minute : (60000000002 : UInt64) < times left := by
    rw [UInt64.lt_iff_toNat_lt]
    exact afterMinute
  rw [← leftNode] at toLeft
  rw [← rightNode] at toRight
  have earlyFound := stage.earlyFound atLeft.tsNs (by rw [leftTime]; exact minute)
    (by rw [leftTime]; exact UInt64.le_refl _)
  have lateFound := stage.lateFound atRight.tsNs (by rw [rightTime]; exact between)
  obtain ⟨l, earlyLink, earlyIs, -⟩ := mem_linksInto_mk toLeft earlyFound
  obtain ⟨l', lateLink, lateIs, -⟩ := mem_linksInto_mk toRight lateFound
  have earlyNode : early.node = node := (lastBefore_some earlyFound).2.1
  have lateNode : late.node = node := (lastBefore_some lateFound).2.1
  have starts : ∀ t : StateTransition, t.node = node → 60000000002 ≤ t.tsNs.toNat →
      ∃ l ∈ linksInto manifest window t, l.edge.wcetNs < l.dt := by
    intro t isNode older
    have found : lastBefore window source t.tsNs = some src := by
      apply stage.srcFound
      rw [UInt64.lt_iff_toNat_lt]
      exact lt_of_lt_of_le (by decide) older
    obtain ⟨l, link, -, late⟩ := late_link accepted (isNode ▸ into) found (by
      rw [stage.srcTime]
      exact lt_of_lt_of_le (by decide) older)
    exact ⟨l, link, late⟩
  constructor
  case reached => exact earlyIs ▸ Reached.trigger leftReached earlyLink
  case reached' => exact lateIs ▸ Reached.trigger rightReached lateLink
  case node => exact earlyNode.trans lateNode.symm
  case distinct =>
      intro same
      have times_ : (60000000002 : UInt64) = times left := by
        rw [← stage.earlyTime, ← stage.lateTime, same]
      exact absurd (times_ ▸ minute) (UInt64.lt_irrefl _)
  case late => exact starts early earlyNode (by rw [stage.earlyTime]; decide)
  case late' => exact starts late lateNode (by rw [stage.lateTime]; exact afterMinute.le)

theorem forkStage_run (accepted : cfg.build order = .ok manifest) {source node : NodeId}
    (sourceSeen : manifest.Observable profile source) (nodeSeen : manifest.Observable profile node)
    (into : DependsOn manifest.edges source node)
    (feeds : manifest.Feeds profile node) (other : node ≠ manifest.tripNode)
    (times : NodeId → UInt64) (between : UInt64) :
    ∃ frames window down src early late, ReportsAt profile manifest frames window down ∧
      ForkStage profile manifest times source node between window down src early late := by
  have acyclic := acyclic_of_build accepted
  have nodeLeads : TransGen (DependsOn manifest.edges) node manifest.tripNode :=
    (reflTransGen_iff_eq_or_transGen.mp (feeds_leads feeds)).resolve_left other.symm
  have unled : ¬ TransGen (DependsOn manifest.edges) node source :=
    fun leads => acyclic _ (leads.tail into)
  have sourceTrip : source ≠ manifest.tripNode := by
    rintro rfl
    exact unled nodeLeads
  have apart : source ≠ node := by
    rintro rfl
    exact acyclic _ (.single into)
  obtain ⟨sourceFrame, sourceLevel, sourceIs⟩ := sourceSeen
  obtain ⟨nodeFrame, nodeLevel, nodeIs⟩ := nodeSeen
  have known : ∀ f ∈ [sourceFrame.at 1, nodeFrame.at 60000000002, nodeFrame.at between],
      ∃ n interlock, manifest.classify profile f = .ok (some (n, interlock)) ∧
        n ≠ manifest.tripNode := by
    intro f member
    simp only [List.mem_cons, List.not_mem_nil, or_false] at member
    rcases member with rfl | rfl | rfl
    · exact ⟨source, sourceLevel, (classify_at _ _).trans sourceIs, sourceTrip⟩
    · exact ⟨node, nodeLevel, (classify_at _ _).trans nodeIs, other⟩
    · exact ⟨node, nodeLevel, (classify_at _ _).trans nodeIs, other⟩
  obtain ⟨frames, up, front, down, reports, upNode, downNode, downTime, staged⟩ :=
    staged_below accepted (feeds_trip feeds) node _ known (by simp) times
  let src := transitionOf [up] (sourceFrame.at 1) source sourceLevel
  let early := transitionOf [src, up] (nodeFrame.at 60000000002) node nodeLevel
  let late := transitionOf [early, src, up] (nodeFrame.at between) node nodeLevel
  have past : historyOf manifest.record [up] [sourceFrame.at 1, nodeFrame.at 60000000002,
      nodeFrame.at between] = [late, early, src, up] := by
    rw [historyOf_assigned (assign_of_classify ((classify_at _ _).trans sourceIs)),
      historyOf_assigned (assign_of_classify ((classify_at _ _).trans nodeIs)),
      historyOf_assigned (assign_of_classify ((classify_at _ _).trans nodeIs))]
    rfl
  rw [past] at reports
  have upstream : Upstream manifest node [late, early, src, up] :=
    (((upstream_trip upNode).cons unled).cons (acyclic _)).cons (acyclic _)
  refine ⟨frames, down :: (front ++ [late, early, src, up]), down, src, early, late, reports, ?_⟩
  constructor
  case trip => exact downNode
  case tripTime => exact downTime
  case downstream => exact fun x => found_below staged downNode upstream
  case srcTime => rfl
  case srcFound =>
      intro bound after
      rw [found_above staged downNode unled sourceTrip, lastBefore_skip (Or.inl apart.symm),
        lastBefore_skip (Or.inl apart.symm)]
      exact lastBefore_head rfl after
  case earlyTime => rfl
  case earlyFound =>
      intro bound after before
      rw [found_above staged downNode (acyclic _) other,
        lastBefore_skip (Or.inr (UInt64.not_lt.mpr before))]
      exact lastBefore_head rfl after
  case lateTime => rfl
  case lateFound =>
      intro bound after
      rw [found_above staged downNode (acyclic _) other]
      exact lastBefore_head rfl after

theorem forked_run (accepted : cfg.build order = .ok manifest) {source node left right : NodeId}
    (sourceSeen : manifest.Observable profile source) (nodeSeen : manifest.Observable profile node)
    (into : DependsOn manifest.edges source node)
    (toLeft : DependsOn manifest.edges node left) (leftFeeds : manifest.Feeds profile left)
    (toRight : DependsOn manifest.edges node right) (rightFeeds : manifest.Feeds profile right)
    (unled : ¬ ReflTransGen (DependsOn manifest.edges) right left) :
    ∃ frames window down q q', ReportsAt profile manifest frames window down ∧
      ForkedAt manifest window down q q' := by
  let times := sightedAt manifest cfg right
  have minute : 60000000002 < (times left).toNat := by
    rw [sightedAt_toNat accepted]
    exact Nat.lt_of_lt_of_le (by decide) (Nat.le_add_right _ _)
  have between : times left < times right := by
    rw [UInt64.lt_iff_toNat_lt, sightedAt_toNat accepted, sightedAt_toNat accepted]
    exact Nat.add_lt_add_left (Ranking.rankAfter_lt_pivot unled) _
  have other : node ≠ manifest.tripNode := by
    rintro rfl
    exact acyclic_of_build accepted _ (.head' toLeft (feeds_leads leftFeeds))
  obtain ⟨frames, window, down, src, early, late, reports, stage⟩ :=
    forkStage_run accepted sourceSeen nodeSeen into (.step nodeSeen toLeft leftFeeds) other times
      (times left)
  exact ⟨frames, window, down, early, late, reports,
    forkedAt_of_stage accepted stage (fun x y => sightedAt_lt accepted right) minute between into
      toLeft leftFeeds toRight rightFeeds⟩

theorem forkedAt_of_not_forkFree (accepted : cfg.build order = .ok manifest)
    (forks : ¬ manifest.ForkFree profile) :
    ∃ frames window down q q', ReportsAt profile manifest frames window down ∧
      ForkedAt manifest window down q q' := by
  unfold DependencyManifest.ForkFree at forks
  push Not at forks
  obtain ⟨source, node, left, right, sourceSeen, nodeSeen, into, toLeft, leftFeeds, toRight,
    rightFeeds, different⟩ := forks
  by_cases led : ReflTransGen (DependsOn manifest.edges) right left
  · refine forked_run accepted sourceSeen nodeSeen into toRight rightFeeds toLeft leftFeeds ?_
    -- The two successors cannot lead to each other.
    intro back
    rcases reflTransGen_iff_eq_or_transGen.mp led with same | leads
    · exact different same
    · exact acyclic_of_build accepted _ (leads.trans_left back)
  · exact forked_run accepted sourceSeen nodeSeen into toLeft leftFeeds toRight rightFeeds led

theorem attributes_completely_iff {order : IterationOrder} {cfg : ManifestCfg}
    {manifest : DependencyManifest} (accepted : cfg.build order = .ok manifest)
    (profile : Profile) : AttributesCompletely profile manifest ↔ manifest.ForkFree profile := by
  constructor
  · intro complete
    by_contra forks
    obtain ⟨frames, window, down, q, q',
      ⟨CAP, results, i, positive, done, here, reported⟩, forked⟩ :=
      forkedAt_of_not_forkFree accepted forks
    have all := complete CAP frames results positive done i _ reported
    rw [here] at all
    exact not_reportsAll forked all
  · exact completely_of_forkFree (indexed_of_build accepted) (acyclic_of_build accepted)

theorem cell_forkFree (profile : Profile) : Cell.manifest.ForkFree profile := by
  rintro source node left right - - - ⟨e, declared, from_, rfl⟩ - ⟨e', declared', from_', rfl⟩ -
  have single : ∀ e ∈ Cell.manifest.edges, ∀ e' ∈ Cell.manifest.edges,
      e.edgeFrom = e'.edgeFrom → e.edgeTo = e'.edgeTo := by decide
  exact single e declared e' declared' (from_.trans from_'.symm)

theorem attributes_completely_cell : AttributesCompletely .dev Cell.manifest :=
  (attributes_completely_iff Cell.build_cfg .dev).mpr (cell_forkFree .dev)

theorem diamond_evidence : (runResults 8 .release Diamond.manifest Diamond.frames).map
    (List.map (Option.map TripAnalysis.evidence)) =
      .ok [none, none, none, none, none, none, none, some (Diamond.trip, [])] := by
  decide +kernel

/-- The map of the monitor is visited first, and the late one of the planner never. -/
theorem diamond_loses : Diamond.cfg.build .declared = .ok Diamond.manifest ∧
    ∃ results analysis, runResults 8 .release Diamond.manifest Diamond.frames = .ok results ∧
      results[7]? = some (some analysis) ∧
      let window := windowAt 8 Diamond.manifest Diamond.frames 7
      Reached Diamond.manifest window analysis.tripEvent Diamond.lost.effect ∧
        Diamond.lost ∈ linksInto Diamond.manifest window Diamond.lost.effect ∧
        Diamond.lost.edge.wcetNs < Diamond.lost.dt ∧ analysis.rankedCatalysts = [] := by
  refine ⟨Diamond.build_cfg, ?_⟩
  obtain ⟨results, done, evidence⟩ := evidence_ok diamond_evidence
  obtain ⟨analysis, reported, trip, nothing⟩ := evidence_at evidence (i := 7) rfl
  refine ⟨results, analysis, done, reported, ?_, by decide +kernel, by decide,
    List.map_eq_nil_iff.mp nothing⟩
  rw [trip]
  have planLink : (⟨⟨3, 5, 15000000⟩, Diamond.plan, Diamond.trip⟩ : CausalLink) ∈
      linksInto Diamond.manifest (windowAt 8 Diamond.manifest Diamond.frames 7) Diamond.trip := by
    decide +kernel
  have mapLink : (⟨⟨2, 3, 1000000⟩, Diamond.map, Diamond.plan⟩ : CausalLink) ∈
      linksInto Diamond.manifest (windowAt 8 Diamond.manifest Diamond.frames 7) Diamond.plan := by
    decide +kernel
  exact .trigger (.trigger .trip planLink) mapLink

end Proof
end CausalWorks
