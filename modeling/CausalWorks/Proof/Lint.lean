import CausalWorks.Proof.Downstream
import CausalWorks.Proof.Sighting

/-!
# What lint catches

A trip is attributed through the declared edges into the trip node. Lint only counts those edges;
whether the engine can observe the nodes at their ends is decided by the matchers.
-/

namespace CausalWorks

namespace DependencyManifest
variable (self : DependencyManifest) (profile : Profile)

def AttributesSome : Prop :=
  ∃ packets, ∀ CAP, 2 ≤ CAP → ∃ analysis ∈
    (CausalGraphObserver.new self : CausalGraphObserver CAP).reports profile packets,
    analysis.rankedCatalysts ≠ []

def AttributesNone : Prop :=
  ∀ CAP packets, ∀ analysis ∈
    (CausalGraphObserver.new self : CausalGraphObserver CAP).reports profile packets,
    analysis.rankedCatalysts = []

end DependencyManifest

/-- Lint warns of an unreachable trip node exactly where no trip can be attributed. -/
structure ManifestCfg.LintCatches (self : ManifestCfg) (order : IterationOrder) (profile : Profile)
    (manifest : DependencyManifest) : Prop where
  clean : (∀ id, .tripNodeUnreachable id ∉ self.lint order) → manifest.AttributesSome profile
  flagged : ∀ id, .tripNodeUnreachable id ∈ self.lint order → manifest.AttributesNone profile

def Cell.deafCfg : ManifestCfg :=
  { nodes := [⟨amr, .ros2Port 60008⟩, ⟨plc, .profinet 0x0002 0⟩]
    edges := [⟨amr, plc, 3000000⟩]
    tripNode := plc }

def Cell.deaf : DependencyManifest :=
  .new [⟨plc, .profinetFrame 0x0002 0⟩, ⟨amr, .ros2Port 60008⟩].toAList [⟨amr, plc, 3000000⟩] plc

namespace Proof
open ManifestCfg
variable {profile : Profile} {order : IterationOrder} {cfg : ManifestCfg}
  {manifest : DependencyManifest} {window : History} {trip : StateTransition}

theorem countEnd_foldl (endOf : EdgeCfg → NodeId) (edges : List EdgeCfg)
    (degree : NodeId → Option Nat) (id : NodeId) :
    ((edges.foldl (fun degree e => countEnd degree (endOf e)) degree) id).getD 0 =
      (degree id).getD 0 + edges.countP fun e => endOf e = id := by
  induction edges generalizing degree with
  | nil => rfl
  | cons e edges ih =>
      rw [List.foldl_cons, ih, List.countP_cons]
      by_cases here : endOf e = id
      · subst here
        simp only [countEnd, Function.update_self, Option.getD_some, decide_true, if_true]
        omega
      · have other : (countEnd degree (endOf e)) id = degree id :=
          Function.update_of_ne (Ne.symm here) _ _
        rw [other, if_neg (by simpa using here), Nat.add_zero]

theorem unreachable_iff {id : NodeId} : .tripNodeUnreachable id ∈ cfg.lint order ↔
    id = cfg.tripNode ∧ ∀ e ∈ cfg.edges, e.edgeTo ≠ cfg.tripNode := by
  have degree := countEnd_foldl EdgeCfg.edgeTo cfg.edges (fun _ => none) cfg.tripNode
  unfold lint
  simp only [degree, Option.getD_none, Nat.zero_add, List.countP_eq_zero, decide_eq_true_eq]
  rw [List.mem_append, List.mem_append]
  constructor
  · rintro ((warned | orphan) | tight)
    · split at warned
      · rename_i none_
        have same := ManifestWarning.tripNodeUnreachable.inj (List.mem_singleton.mp warned)
        exact ⟨same, none_⟩
      · cases warned
    · obtain ⟨id', -, warned⟩ := List.mem_filterMap.mp orphan
      split at warned
      · cases Option.some.inj warned
      · cases warned
    · obtain ⟨e, -, warned⟩ := List.mem_filterMap.mp tight
      split at warned
      · cases Option.some.inj warned
      · cases warned
  · rintro ⟨rfl, none_⟩
    left
    left
    rw [if_pos none_]
    exact List.mem_singleton_self _

theorem reached_direct {q : StateTransition} (reached : Reached manifest window trip q) :
    q = trip ∨ linksInto manifest window trip ≠ [] := by
  induction reached with
  | trip => exact Or.inl rfl
  | trigger _ link ih =>
      right
      rcases ih with rfl | direct
      · exact List.ne_nil_of_mem link
      · exact direct

theorem attributed_direct
    (attributed : (attribution manifest window trip).rankedCatalysts ≠ []) :
    linksInto manifest window trip ≠ [] := by
  obtain ⟨c, member⟩ := List.exists_mem_of_ne_nil _ attributed
  obtain ⟨l, reported, -⟩ := mem_rankedCatalysts.mp member
  obtain ⟨effect, visited, link, -⟩ := mem_violations reported
  rcases reached_direct (examined_reached effect visited) with rfl | direct
  · exact List.ne_nil_of_mem link
  · exact direct

theorem reports_zero (s : CausalGraphObserver 0) (packets : List Packet) :
    s.reports profile packets = [] := by
  induction packets with
  | nil => rfl
  | cons packet packets ih =>
      rw [CausalGraphObserver.reports]
      cases fed : s.feed profile packet with
      | error fault => rfl
      | ok step =>
          obtain ⟨after, result⟩ := step
          unfold CausalGraphObserver.feed at fed
          split at fed
          · rcases observe_inv fed with ⟨-, rfl, rfl⟩ | ⟨_, _, _, _, -, -, pushed, -⟩
            · exact ih
            · simp [RingBuffer.push] at pushed
          · cases fed
            exact ih
          · cases fed

theorem sighted_record {CAP : Nat} {s after : CausalGraphObserver CAP} {history : History}
    {packet : Packet} {f : DecodedFieldbusFrame} {result : Option TripAnalysis}
    (seen : ∀ t ∈ history, s.manifest.Sighted profile t.node)
    (parsed : parseFrame packet.1 packet.2 = .ok f)
    (done : s.observe profile f = .ok (after, result)) :
    ∀ t ∈ (s.manifest.record history f).1, s.manifest.Sighted profile t.node := by
  rcases observe_inv done with ⟨classified, -⟩ | ⟨node, interlock, -, -, classified, -⟩
  · rw [DependencyManifest.record, assign_of_classify classified]
    exact seen
  · rw [record_assigned (assign_of_classify classified)]
    exact List.forall_mem_cons.mpr ⟨⟨_, _, f, interlock, parsed, classified⟩, seen⟩

theorem reports_attribution {CAP : Nat} {s : CausalGraphObserver CAP} {history : History}
    (indexed : manifest.Indexed) {packets : List Packet} (refines : Refines s manifest history)
    (seen : ∀ t ∈ history, manifest.Sighted profile t.node) :
    ∀ analysis ∈ s.reports profile packets, ∃ window trip,
      analysis = attribution manifest window trip ∧ trip.node = manifest.tripNode ∧
      manifest.Sighted profile trip.node ∧ ∀ t ∈ window, manifest.Sighted profile t.node := by
  induction packets generalizing s history with
  | nil => exact fun _ member => absurd member List.not_mem_nil
  | cons packet packets ih =>
      rw [CausalGraphObserver.reports]
      cases fed : s.feed profile packet with
      | error fault => exact fun _ member => absurd member List.not_mem_nil
      | ok step =>
          obtain ⟨after, result⟩ := step
          unfold CausalGraphObserver.feed at fed
          rcases parseFrame_cases packet.1 packet.2 with ⟨proto, parsed⟩ | ⟨error, failed⟩
          · simp only [parsed] at fed
            have same := refines.manifest_eq
            have seen' := sighted_record (same ▸ seen) parsed fed
            rw [same] at seen'
            rcases observe_cases profile refines indexed ⟨packet.1, proto, packet.2⟩ with
              ⟨after', done, refines'⟩ | ⟨fault, -, failed⟩
            · obtain ⟨rfl, rfl⟩ := Prod.mk.inj (Except.ok.inj (done.symm.trans fed))
              intro analysis member
              rcases List.mem_append.mp member with now | later
              · obtain ⟨trip, tripped, rfl⟩ :=
                  Option.map_eq_some_iff.mp (Option.mem_toList.mp now)
                have inside : trip ∈ (manifest.record history ⟨packet.1, proto, packet.2⟩).1 := by
                  rw [record_some manifest tripped]
                  exact List.mem_cons_self
                exact ⟨_, trip, rfl, record_trip_node tripped, seen' trip inside,
                  fun t member => seen' t (List.mem_of_mem_take member)⟩
              · exact ih refines' seen' analysis later
            · cases failed.symm.trans fed
          · simp only [failed, Except.ok.injEq, Prod.mk.injEq] at fed
            obtain ⟨rfl, rfl⟩ := fed
            exact ih refines seen

theorem attributed_source (accepted : cfg.build order = .ok manifest) {CAP : Nat}
    {packets : List Packet} {analysis : TripAnalysis}
    (reported : analysis ∈
      (CausalGraphObserver.new manifest : CausalGraphObserver CAP).reports profile packets)
    (attributed : analysis.rankedCatalysts ≠ []) :
    ∃ e ∈ cfg.edges, e.edgeTo = cfg.tripNode ∧ cfg.Sightable profile manifest e.edgeFrom ∧
      cfg.Sightable profile manifest cfg.tripNode := by
  have built := built_of_build accepted
  rcases Nat.eq_zero_or_pos CAP with rfl | positive
  · rw [reports_zero] at reported
    cases reported
  have indexed := indexed_of_build accepted
  obtain ⟨window, trip, rfl, node, tripSeen, seen⟩ := reports_attribution indexed
    (refines_new positive manifest) (fun _ member => absurd member List.not_mem_nil) _ reported
  obtain ⟨l, link⟩ := List.exists_mem_of_ne_nil _ (attributed_direct attributed)
  obtain ⟨declared, into, -, found⟩ := mem_linksInto.mp link
  obtain ⟨inside, source, -⟩ := lastBefore_some found
  rw [built.edges] at declared
  obtain ⟨e, member, same⟩ := List.mem_map.mp declared
  have sourceSeen := seen _ inside
  rw [source, sighted_iff accepted, ← same] at sourceSeen
  rw [node, built.tripNode, sighted_iff accepted] at tripSeen
  refine ⟨e, member, ?_, sourceSeen, tripSeen⟩
  rw [← same, node, built.tripNode] at into
  exact into

theorem feed_claimed {CAP : Nat} {s : CausalGraphObserver CAP} {history : History}
    (refines : Refines s manifest history) (indexed : manifest.Indexed)
    (few : history.length + 1 < 2 ^ 64) {ts : UInt64} {buf : List UInt8} {f : DecodedFieldbusFrame}
    {node : NodeId} {interlock : Option Bool} (parsed : parseFrame ts buf = .ok f)
    (classified : manifest.classify profile f = .ok (some (node, interlock))) :
    ∃ after, s.feed profile (ts, buf) = .ok (after, (manifest.record history f).2.map
        (attribution manifest ((manifest.record history f).1.take CAP))) ∧
      Refines after manifest (manifest.record history f).1 := by
  have assigned := assign_of_classify classified
  rw [CausalGraphObserver.feed, parsed]
  refine observe_ok refines indexed f (by rw [classified, assigned]) fun _ => ?_
  refine addU64_of_lt _ _ _ ?_
  have count : s.seq.toNat = history.length := by
    rw [refines.seq]
    exact Nat.mod_eq_of_lt (by omega)
  rw [count]
  exact few

theorem source_ne (accepted : cfg.build order = .ok manifest) {a b : NodeId}
    (edge : DependsOn manifest.edges a b) : a ≠ b := by
  rintro rfl
  exact acyclic_of_build accepted _ (.single edge)

theorem blamed_directly (accepted : cfg.build order = .ok manifest) {src : StateTransition}
    {rest : History} (edge : DependsOn manifest.edges src.node trip.node)
    (old : src.tsNs.toNat + 60000000000 < trip.tsNs.toNat) :
    (attribution manifest (trip :: src :: rest) trip).rankedCatalysts ≠ [] := by
  have other := Ne.symm (source_ne accepted edge)
  have found : lastBefore (trip :: src :: rest) src.node trip.tsNs = some src :=
    (lastBefore_skip (Or.inl other)).trans
      (lastBefore_head rfl (UInt64.lt_iff_toNat_lt.mpr (by omega)))
  obtain ⟨l, link, -, violated⟩ := late_link accepted edge found old
  obtain ⟨-, -, effect, -⟩ := mem_linksInto.mp link
  obtain ⟨q, visited, same⟩ := List.mem_map.mp
    (examined_closed manifest (trip :: src :: rest) trip).1
  rw [reached_trip_unique (acyclic_of_build accepted) (examined_reached q visited) same] at visited
  refine List.ne_nil_of_mem (mem_rankedCatalysts.mpr ⟨l, mem_violations_iff.mpr ?_, rfl⟩)
  rw [effect]
  exact ⟨visited, link, violated⟩

theorem trip_reading (accepted : cfg.build order = .ok manifest) {n : NodeCfg}
    (declared : n ∈ cfg.nodes) (id : n.id = cfg.tripNode) (level : Bool) :
    n.matcher.reading level = some level := by
  have wellFormed := wellFormed_of_build accepted
  obtain ⟨t, declared', id', profinet⟩ := wellFormed.trip
  obtain rfl := List.inj_on_of_nodup_map wellFormed.distinct declared declared'
    (id.trans id'.symm)
  cases kind : n.matcher with
  | profinet => rfl
  | ros2Port | fanucPose => simp [kind, NodeMatcherCfg.isProfinet] at profinet

theorem record_cycle {high src low : DecodedFieldbusFrame} {node : NodeId}
    {reading : Option Bool} (other : node ≠ manifest.tripNode)
    (highIs : manifest.classify profile high = .ok (some (manifest.tripNode, some true)))
    (srcIs : manifest.classify profile src = .ok (some (node, reading)))
    (lowIs : manifest.classify profile low = .ok (some (manifest.tripNode, some false))) :
    ∃ up mid down, manifest.record [] high = ([up], none) ∧
      manifest.record [up] src = ([mid, up], none) ∧
      manifest.record [mid, up] low = ([down, mid, up], some down) ∧
      mid.node = node ∧ mid.tsNs = src.tapTsNs ∧
      down.node = manifest.tripNode ∧ down.tsNs = low.tapTsNs := by
  let up := transitionOf [] high manifest.tripNode (some true)
  let mid := transitionOf [up] src node reading
  have level : levelOf [mid, up] manifest.tripNode = some true := by
    rw [levelOf_cons, levelOf_cons]
    exact (if_neg other).trans (if_pos rfl)
  exact ⟨up, mid, _, record_up (assign_of_classify highIs),
    record_other (assign_of_classify srcIs) other, record_down (assign_of_classify lowIs) level,
    rfl, rfl, rfl, rfl⟩

theorem attributesSome (accepted : cfg.build order = .ok manifest) {e : EdgeCfg}
    (member : e ∈ cfg.edges) (into : e.edgeTo = cfg.tripNode)
    (source : cfg.Sightable profile manifest e.edgeFrom)
    (trip : cfg.Sightable profile manifest cfg.tripNode) : manifest.AttributesSome profile := by
  have built := built_of_build accepted
  have indexed := indexed_of_build accepted
  have edge : DependsOn manifest.edges e.edgeFrom manifest.tripNode := by
    refine ⟨e.into, ?_, rfl, into.trans built.tripNode.symm⟩
    rw [built.edges]
    exact List.mem_map_of_mem member
  obtain ⟨n, declared, id, frames⟩ := wire_classified accepted trip
  obtain ⟨n', -, -, frames'⟩ := wire_classified accepted source
  obtain ⟨high, highParsed, -, highIs⟩ := frames 0 true
  obtain ⟨src, srcParsed, srcTime, srcIs⟩ := frames' 0 true
  -- Over a minute later, the source is late on any budget that is accepted.
  obtain ⟨low, lowParsed, lowTime, lowIs⟩ := frames 60000000001 false
  rw [trip_reading accepted declared id, ← built.tripNode] at highIs lowIs
  obtain ⟨up, mid, down, upIs, midIs, downIs, midNode, midTime, downNode, downTime⟩ :=
    record_cycle (source_ne accepted edge) highIs srcIs lowIs
  refine ⟨[(0, n.matcher.wire true), (0, n'.matcher.wire true),
    (60000000001, n.matcher.wire false)], fun CAP room => ?_⟩
  obtain ⟨s₁, fed, refines⟩ := feed_claimed (refines_new (by omega : 0 < CAP) manifest) indexed
    (by decide) highParsed highIs
  rw [upIs] at fed refines
  obtain ⟨s₂, fed', refines'⟩ := feed_claimed refines indexed (by simp) srcParsed srcIs
  rw [midIs] at fed' refines'
  obtain ⟨s₃, fed'', -⟩ := feed_claimed refines' indexed (by simp) lowParsed lowIs
  rw [downIs] at fed''
  refine ⟨attribution manifest ([down, mid, up].take CAP) down, ?_, ?_⟩
  · simp only [CausalGraphObserver.reports, fed, fed', fed'']
    simp
  · obtain ⟨CAP, rfl⟩ := Nat.exists_eq_add_of_le' room
    refine blamed_directly accepted ?_ ?_
    · rw [midNode, downNode]
      exact edge
    · rw [midTime, downTime, srcTime, lowTime]
      decide

theorem lint_catches_iff (accepted : cfg.build order = .ok manifest) :
    cfg.LintCatches order profile manifest ↔
      (∀ e ∈ cfg.edges, e.edgeTo ≠ cfg.tripNode) ∨
      ∃ e ∈ cfg.edges, e.edgeTo = cfg.tripNode ∧ cfg.Sightable profile manifest e.edgeFrom ∧
        cfg.Sightable profile manifest cfg.tripNode := by
  constructor
  · rintro ⟨clean, -⟩
    by_cases none_ : ∀ e ∈ cfg.edges, e.edgeTo ≠ cfg.tripNode
    · exact Or.inl none_
    · obtain ⟨packets, attributes⟩ := clean fun id warned => none_ (unreachable_iff.mp warned).2
      obtain ⟨analysis, reported, attributed⟩ := attributes 2 (Nat.le_refl 2)
      exact Or.inr (attributed_source accepted reported attributed)
  · intro condition
    constructor
    · intro silent
      rcases condition with none_ | ⟨e, member, into, source, trip⟩
      · exact absurd (unreachable_iff.mpr ⟨rfl, none_⟩) (silent cfg.tripNode)
      · exact attributesSome accepted member into source trip
    · intro id warned CAP packets analysis reported
      by_contra attributed
      obtain ⟨e, member, into, -⟩ := attributed_source accepted reported attributed
      exact (unreachable_iff.mp warned).2 e member into

theorem lint_catches_iff_deaf : Cell.deafCfg.LintCatches .declared .release Cell.deaf ↔
    (∀ e ∈ Cell.deafCfg.edges, e.edgeTo ≠ Cell.deafCfg.tripNode) ∨
    ∃ e ∈ Cell.deafCfg.edges, e.edgeTo = Cell.deafCfg.tripNode ∧
      Cell.deafCfg.Sightable .release Cell.deaf e.edgeFrom ∧
      Cell.deafCfg.Sightable .release Cell.deaf Cell.deafCfg.tripNode :=
  lint_catches_iff (by rfl)

theorem lint_misses_deaf : Cell.deafCfg.build .declared = .ok Cell.deaf ∧
    Cell.deafCfg.lint .declared = [] ∧ (∀ profile, Cell.deaf.AttributesNone profile) ∧
    ∀ profile, ¬ Cell.deafCfg.LintCatches .declared profile Cell.deaf := by
  have accepted : Cell.deafCfg.build .declared = .ok Cell.deaf := by rfl
  have unattributed : ∀ profile, Cell.deaf.AttributesNone profile := by
    intro profile CAP packets analysis reported
    by_contra attributed
    obtain ⟨e, member, -, ⟨n, declared, id, known, -⟩, -⟩ :=
      attributed_source accepted reported attributed
    obtain rfl := List.mem_singleton.mp member
    rcases List.mem_cons.mp declared with rfl | later
    · exact known rfl
    · obtain rfl := List.mem_singleton.mp later
      exact absurd id (by decide)
  refine ⟨accepted, by decide, unattributed, fun profile => ?_⟩
  rintro ⟨clean, -⟩
  obtain ⟨packets, attributes⟩ := clean (by
    intro id warned
    rw [show Cell.deafCfg.lint .declared = [] by decide] at warned
    cases warned)
  obtain ⟨analysis, reported, attributed⟩ := attributes 2 (Nat.le_refl 2)
  exact attributed (unattributed profile 2 packets analysis reported)

end Proof
end CausalWorks
