import CausalWorks.Proof.Overlap

/-!
# When two processes report the same

Two processes iterate the node map in different orders. What they report for a run differs when
nodes with overlapping matchers take part in an attribution, and only then.
-/

namespace CausalWorks
open Relation

namespace ManifestCfg
variable (self : ManifestCfg)

/-- Overlapping nodes do not lead to the trip node, and `dev` can read all of them or none. -/
def OverlapsHarmless : Prop :=
  ∀ n ∈ self.nodes, ∀ n' ∈ self.nodes, n ≠ n' → n.matcher.Overlaps n'.matcher →
    ¬ ReflTransGen self.Depends n.id self.tripNode ∧ (n.matcher.Readable ↔ n'.matcher.Readable)

/-- Whatever the orders in which two processes iterate, they report the same for every run. -/
def Reproducible : Prop :=
  ∀ order order' manifest manifest', self.build order = .ok manifest →
    self.build order' = .ok manifest' → ∀ CAP profile frames results, 0 < CAP →
      (runResults CAP profile manifest frames = .ok results ↔
        runResults CAP profile manifest' frames = .ok results)

end ManifestCfg

def Cell.sharedCfg : ManifestCfg :=
  { cfg with nodes := cfg.nodes ++ [⟨4, .ros2Port 7400⟩] }

def Cell.shadowFirst : DependencyManifest :=
  .new [⟨4, .ros2Port 7400⟩, ⟨plc, .profinetFrame 0x0002 0⟩, ⟨fanuc, .fanucPose⟩,
      ⟨amr, .ros2Port 7400⟩].toAList
    [⟨amr, fanuc, 3000000⟩, ⟨fanuc, plc, 4000000⟩] plc

def Cell.amrFirst : DependencyManifest :=
  .new [⟨amr, .ros2Port 7400⟩, ⟨4, .ros2Port 7400⟩, ⟨plc, .profinetFrame 0x0002 0⟩,
      ⟨fanuc, .fanucPose⟩].toAList
    [⟨amr, fanuc, 3000000⟩, ⟨fanuc, plc, 4000000⟩] plc

/-- The same transition, or two of nodes that do not lead to the trip. -/
def Alike (leads : NodeId → Prop) (t t' : StateTransition) : Prop :=
  t = t' ∨ ¬ leads t.node ∧ ¬ leads t'.node

namespace Proof
open ManifestCfg
variable {profile : Profile} {order order' : IterationOrder} {cfg : ManifestCfg}
  {m m' : DependencyManifest} {f : DecodedFieldbusFrame} {leads : NodeId → Prop}
  {history history' window window' : History} {node : NodeId}

theorem lastBefore_alike (alike : List.Forall₂ (Alike leads) window window') (inside : leads node)
    (bound : UInt64) : lastBefore window node bound = lastBefore window' node bound := by
  unfold lastBefore
  induction alike with
  | nil => rfl
  | @cons t t' _ _ same _ ih =>
      rcases same with rfl | ⟨off, off'⟩
      · rw [List.find?_cons, List.find?_cons, ih]
      · have other : t.node ≠ node := fun is => off (is ▸ inside)
        have other' : t'.node ≠ node := fun is => off' (is ▸ inside)
        simp [other, other', ih]

theorem levelOf_alike (alike : List.Forall₂ (Alike leads) history history') (inside : leads node) :
    levelOf history node = levelOf history' node := by
  induction alike with
  | nil => rfl
  | @cons t t' _ _ same _ ih =>
      rw [levelOf_cons, levelOf_cons, ih]
      rcases same with rfl | ⟨off, off'⟩
      · rfl
      · have other : t.node ≠ node := fun is => off (is ▸ inside)
        have other' : t'.node ≠ node := fun is => off' (is ▸ inside)
        rw [if_neg other, if_neg other']

section Attributions
variable (edges : m.edges = m'.edges)
  (upstream : ∀ a b, DependsOn m.edges a b → leads b → leads a)
  (alike : List.Forall₂ (Alike leads) window window')
include edges upstream alike

theorem linksInto_alike {effect : StateTransition} (inside : leads effect.node) :
    linksInto m window effect = linksInto m' window' effect := by
  unfold linksInto DependencyManifest.incoming
  rw [← edges]
  refine List.filterMap_congr fun e member => ?_
  obtain ⟨declared, into⟩ := List.mem_filter.mp member
  have into : e.edgeTo = effect.node := of_decide_eq_true into
  rw [lastBefore_alike alike (upstream e.edgeFrom e.edgeTo ⟨e, declared, rfl, rfl⟩ (into ▸ inside))]

theorem attribution_alike {trip : StateTransition} (inside : leads trip.node) :
    attribution m window trip = attribution m' window' trip := by
  have handed : ∀ x : StateTransition, leads x.node → ∀ y ∈ triggers m window x, leads y.node := by
    intro x holds y pushed
    obtain ⟨l, link, rfl⟩ := List.mem_map.mp pushed
    exact upstream _ _ (dependsOn_link link) holds
  have start : ∀ x ∈ [trip], leads x.node := by simpa using inside
  have visits : examined m window trip = examined m' window' trip := by
    unfold examined
    rw [← edges]
    exact Worklist.expansions_congr handed
      (fun x holds => by rw [triggers, triggers, linksInto_alike edges upstream alike holds]) _ _ _
      start
  have inside : ∀ x ∈ examined m window trip, leads x.node :=
    Worklist.expansions_induction handed _ _ _ start
  have links : violations m window trip = violations m' window' trip := by
    unfold violations
    rw [← visits]
    congr 1
    exact List.flatMap_congr fun x member => linksInto_alike edges upstream alike (inside x member)
  rw [attribution, attribution, links]

end Attributions

def AssignedAlike (leads : NodeId → Prop) (found found' : Option (NodeId × Option Bool)) : Prop :=
  found = found' ∨ ∃ x level x' level', found = some (x, level) ∧ found' = some (x', level') ∧
    ¬ leads x ∧ ¬ leads x'

theorem isTrip_alike (tripNode : m.tripNode = m'.tripNode) (trip : leads m.tripNode)
    (alike : List.Forall₂ (Alike leads) history history') (t : StateTransition) :
    m.isTrip history t = m'.isTrip history' t := by
  rw [DependencyManifest.isTrip, DependencyManifest.isTrip, decide_eq_decide, ← tripNode]
  by_cases here : t.node = m.tripNode
  · rw [levelOf_alike alike (here ▸ trip)]
  · simp [here]

section Runs
variable (tripNode : m.tripNode = m'.tripNode) (trip : leads m.tripNode)
  (assigned : ∀ f, AssignedAlike leads (m.assign f) (m'.assign f))
include tripNode trip assigned

theorem record_alike (alike : List.Forall₂ (Alike leads) history history')
    (f : DecodedFieldbusFrame) : (m.record history f).2 = (m'.record history' f).2 ∧
      List.Forall₂ (Alike leads) (m.record history f).1 (m'.record history' f).1 := by
  rcases assigned f with same | ⟨x, level, x', level', at_, at_', off, off'⟩
  · unfold DependencyManifest.record
    rw [← same]
    cases m.assign f with
    | none => exact ⟨rfl, alike⟩
    | some found =>
        obtain ⟨node, level⟩ := found
        have recorded : transitionOf history f node level = transitionOf history' f node level := by
          rw [transitionOf, transitionOf, alike.length_eq]
        simp only [recorded, isTrip_alike tripNode trip alike]
        exact ⟨trivial, .cons (.inl rfl) alike⟩
  · rw [record_assigned at_, record_assigned at_']
    have other : x ≠ m.tripNode := fun is => off (is ▸ trip)
    have other' : x' ≠ m'.tripNode := fun is => off' (is ▸ tripNode ▸ trip)
    refine ⟨by simp [DependencyManifest.isTrip, transitionOf, other, other'], .cons ?_ alike⟩
    exact .inr ⟨off, off'⟩

theorem analyses_alike (edges : m.edges = m'.edges)
    (upstream : ∀ a b, DependsOn m.edges a b → leads b → leads a) (CAP : Nat)
    (alike : List.Forall₂ (Alike leads) history history') (frames : List DecodedFieldbusFrame) :
    analyses m.record m (List.take CAP) history frames =
      analyses m'.record m' (List.take CAP) history' frames := by
  induction frames generalizing history history' with
  | nil => rfl
  | cons f frames ih =>
      obtain ⟨trips, alike'⟩ := record_alike tripNode trip assigned alike f
      simp only [analyses, ih alike', ← trips]
      congr 1
      cases tripped : (m.record history f).2 with
      | none => rfl
      | some t =>
          have isTrip : t.node = m.tripNode := record_trip_node tripped
          rw [Option.map_some, Option.map_some, attribution_alike edges upstream
            (List.forall₂_take CAP alike') (isTrip ▸ trip)]

end Runs

section Harmless
variable (accepted : cfg.build order = .ok m) (accepted' : cfg.build order' = .ok m')
  (harmless : cfg.OverlapsHarmless)
include accepted accepted' harmless

theorem assigned_cases (f : DecodedFieldbusFrame) :
    m.assign f = none ∧ m'.assign f = none ∨
    ∃ n ∈ cfg.nodes, ∃ n' ∈ cfg.nodes, ∃ level level', m.assign f = some (n.id, level) ∧
      m'.assign f = some (n'.id, level') ∧ (n = n' ∧ level = level' ∨
        (¬ ReflTransGen cfg.Depends n.id cfg.tripNode ∧
          ¬ ReflTransGen cfg.Depends n'.id cfg.tripNode) ∧
        (n.matcher.Readable ↔ n'.matcher.Readable)) := by
  have built := built_of_build accepted
  have built' := built_of_build accepted'
  have both : (m.assign f).isSome = (m'.assign f).isSome := by
    rw [assign_isSome built, assign_isSome built']
  cases assigned : m.assign f with
  | none =>
      rw [assigned, Option.isSome_none, eq_comm, Option.isSome_eq_false_iff,
        Option.isNone_iff_eq_none] at both
      exact .inl ⟨rfl, both⟩
  | some found =>
      obtain ⟨x, level⟩ := found
      rw [assigned, Option.isSome_some, eq_comm, Option.isSome_iff_exists] at both
      obtain ⟨⟨x', level'⟩, assigned'⟩ := both
      obtain ⟨n, declared, rfl, claims⟩ := assign_some built assigned
      obtain ⟨n', declared', rfl, claims'⟩ := assign_some built' assigned'
      refine .inr ⟨n, declared, n', declared', level, level', rfl, assigned', ?_⟩
      by_cases same : n = n'
      · subst same
        exact .inl ⟨rfl, Option.some.inj (claims.symm.trans claims')⟩
      · have overlap : n.matcher.Overlaps n'.matcher :=
          overlaps_of_claims (f := f) (by simp [claims]) (by simp [claims'])
        obtain ⟨off, readable⟩ := harmless n declared n' declared' same overlap
        obtain ⟨off', -⟩ := harmless n' declared' n declared (Ne.symm same) (overlaps_symm overlap)
        exact .inr ⟨⟨off, off'⟩, readable⟩

theorem completes_alike {CAP : Nat} (positive : 0 < CAP) {frames : List DecodedFieldbusFrame}
    {results : List (Option TripAnalysis)}
    (done : runResults CAP profile m frames = .ok results) :
    ∃ results', runResults CAP profile m' frames = .ok results' := by
  have indexed := indexed_of_build accepted
  refine (runResults_iff positive (indexed_of_build accepted') frames).mpr fun isDev => ?_
  subst isDev
  obtain ⟨classified, few⟩ := (runResults_iff positive indexed frames).mp ⟨results, done⟩ rfl
  constructor
  · intro f member
    rcases assigned_cases accepted accepted' harmless f with ⟨-, unassigned⟩ |
      ⟨n, declared, n', declared', level, level', assigned, assigned', same⟩
    · rw [unassigned]
      exact classify_dev_unassigned accepted' unassigned
    · rw [classify_dev_iff accepted' declared' assigned']
      have readable := (classify_dev_iff accepted declared assigned).mp (classified f member)
      rcases same with ⟨rfl, -⟩ | ⟨-, iff⟩
      · exact readable
      · exact iff.mp readable
  · have claims : (fun f => (m'.assign f).isSome) = fun f => (m.assign f).isSome := by
      funext f
      rw [assign_isSome (built_of_build accepted'), assign_isSome (built_of_build accepted)]
    rwa [claims]

theorem reports_alike {CAP : Nat} (positive : 0 < CAP) {frames : List DecodedFieldbusFrame}
    {results : List (Option TripAnalysis)}
    (done : runResults CAP profile m frames = .ok results) :
    runResults CAP profile m' frames = .ok results := by
  have built := built_of_build accepted
  have built' := built_of_build accepted'
  obtain ⟨results', done'⟩ := completes_alike accepted accepted' harmless positive done
  have depends : DependsOn m.edges = cfg.Depends := by rw [built.edges, dependsOn_into]
  let leads : NodeId → Prop := fun x => ReflTransGen cfg.Depends x cfg.tripNode
  have trip : leads m.tripNode := by
    rw [built.tripNode]
  have assigned : ∀ f, AssignedAlike leads (m.assign f) (m'.assign f) := by
    intro f
    rcases assigned_cases accepted accepted' harmless f with ⟨unassigned, unassigned'⟩ |
      ⟨n, -, n', -, level, level', assigned, assigned', ⟨rfl, rfl⟩ | ⟨⟨off, off'⟩, -⟩⟩
    · exact .inl (unassigned.trans unassigned'.symm)
    · exact .inl (assigned.trans assigned'.symm)
    · exact .inr ⟨_, _, _, _, assigned, assigned', off, off'⟩
  have same := analyses_alike (built.tripNode.trans built'.tripNode.symm) trip assigned
    (built.edges.trans built'.edges.symm) (fun a b edge leads => .head (depends ▸ edge) leads) CAP
    .nil frames
  rw [done', runResults_eq positive (indexed_of_build accepted') done', ← same,
    ← runResults_eq positive (indexed_of_build accepted) done]

end Harmless

theorem reproducible_of_harmless (harmless : cfg.OverlapsHarmless) : cfg.Reproducible :=
  fun _ _ _ _ accepted accepted' _ _ _ _ positive =>
    ⟨reports_alike accepted accepted' harmless positive,
      reports_alike accepted' accepted harmless positive⟩

def Shared (cfg : ManifestCfg) (n : NodeCfg) : Prop :=
  ∃ n' ∈ cfg.nodes, n ≠ n' ∧ n.matcher.Overlaps n'.matcher

theorem observable_of_unshared (accepted : cfg.build order = .ok m) {n : NodeCfg}
    (declared : n ∈ cfg.nodes) (unshared : ¬ Shared cfg n) : m.Observable .release n.id := by
  have built := built_of_build accepted
  have claims := claim_sample n.matcher true
  have assigned : (m.assign (n.matcher.sample true)).isSome := by
    rw [assign_isSome built, ManifestCfg.claims, List.any_eq_true]
    exact ⟨n, declared, claims⟩
  obtain ⟨⟨id, level⟩, assigned⟩ := Option.isSome_iff_exists.mp assigned
  obtain ⟨n', declared', rfl, claims'⟩ := assign_some built assigned
  have same : n = n' := by
    by_contra different
    exact unshared ⟨n', declared', different,
      overlaps_of_claims claims (by rw [claims']; rfl)⟩
  refine ⟨n.matcher.sample true, level, ?_⟩
  rw [classify_release, assigned, same]

theorem observable_headed {n : NodeCfg} (declared : n ∈ cfg.nodes)
    (accepted : cfg.build (.headed n.id) = .ok m) : m.Observable .release n.id := by
  obtain ⟨level, claims⟩ := Option.isSome_iff_exists.mp (claim_sample n.matcher true)
  exact ⟨n.matcher.sample true, level, by
    rw [classify_release, assign_headed declared accepted claims]⟩

theorem hidden_by_headed {n n' : NodeCfg} (declared : n ∈ cfg.nodes) (declared' : n' ∈ cfg.nodes)
    (different : n ≠ n') (overlap : n.matcher.Overlaps n'.matcher)
    (accepted : cfg.build (.headed n'.id) = .ok m) : ¬ m.Observable .release n.id := by
  rintro ⟨f, level, classified⟩
  have ids := List.inj_on_of_nodup_map (wellFormed_of_build accepted).distinct
  rw [classify_release, Except.ok.injEq] at classified
  obtain ⟨n₁, declared₁, same, claims⟩ := assign_some (built_of_build accepted) classified
  obtain rfl := ids declared₁ declared same
  have claims' : (n'.matcher.into.claim f).isSome := by
    rw [← claim_overlap overlap, claims]
    rfl
  obtain ⟨level', claims'⟩ := Option.isSome_iff_exists.mp claims'
  rw [assign_headed declared' accepted claims', Option.some.injEq, Prod.mk.injEq] at classified
  exact different (ids declared declared' classified.1.symm)

theorem feeds_or_shared (accepted : cfg.build order = .ok m) {x : NodeId}
    (leads : ReflTransGen cfg.Depends x cfg.tripNode) :
    (∃ n ∈ cfg.nodes, Shared cfg n ∧ (n.id = cfg.tripNode ∨ ∃ a, cfg.Depends n.id a ∧
      ∀ order m, cfg.build order = .ok m → m.Feeds .release a)) ∨
    (∃ n ∈ cfg.nodes, n.id = x ∧ ¬ Shared cfg n) ∧
      ∀ order m, cfg.build order = .ok m → m.Feeds .release x := by
  have wellFormed := wellFormed_of_build accepted
  induction leads using ReflTransGen.head_induction_on with
  | refl =>
      obtain ⟨n, declared, id, -⟩ := wellFormed.trip
      by_cases shared : Shared cfg n
      · exact .inl ⟨n, declared, shared, .inl id⟩
      · refine .inr ⟨⟨n, declared, id, shared⟩, fun order m accepted => ?_⟩
        have trip := (built_of_build accepted).tripNode
        have seen := observable_of_unshared accepted declared shared
        rw [id, ← trip] at seen
        rw [← trip]
        exact .trip seen
  | @head x a edge _ ih =>
      rcases ih with found | ⟨-, feeds⟩
      · exact .inl found
      · obtain ⟨e, member, rfl, into⟩ := edge
        obtain ⟨n, declared, id⟩ := List.mem_map.mp (wellFormed.declared e member).1
        by_cases shared : Shared cfg n
        · exact .inl ⟨n, declared, shared, .inr ⟨a, ⟨e, member, id.symm, into⟩, feeds⟩⟩
        · refine .inr ⟨⟨n, declared, id, shared⟩, fun order m accepted => ?_⟩
          have seen := observable_of_unshared accepted declared shared
          rw [id] at seen
          refine .step seen ?_ (feeds order m accepted)
          rw [(built_of_build accepted).edges, dependsOn_into]
          exact ⟨e, member, rfl, into⟩

theorem mentioned_observable {CAP : Nat} (positive : 0 < CAP) (indexed : m.Indexed)
    {frames : List DecodedFieldbusFrame} {results : List (Option TripAnalysis)}
    (done : runResults CAP profile m frames = .ok results) {i : Nat} {analysis : TripAnalysis}
    (reported : results[i]? = some (some analysis)) :
    m.Observable profile analysis.tripEvent.node ∧
      ∀ c ∈ analysis.rankedCatalysts, m.Observable profile c.trigger.node := by
  have classified := classified_of_run positive indexed done
  rw [runResults_eq positive indexed done] at reported
  obtain ⟨trip, before, history, rfl⟩ := analysis_at m reported
  have observed := transitions_observable fun f member =>
    classified f (List.mem_of_mem_take (i := i + 1) member)
  rw [history] at observed
  refine ⟨observed trip List.mem_cons_self, fun c ranked => ?_⟩
  have newest : trip ∈ (trip :: before).take CAP := by
    obtain ⟨k, rfl⟩ := Nat.exists_eq_succ_of_ne_zero positive.ne'
    exact List.mem_cons_self
  obtain ⟨⟨nearer, chain⟩, -⟩ := attribution_sound newest c ranked
  exact observed _ (List.mem_of_mem_take (chain.recent _ List.mem_cons_self).2)

section Reproducible
variable (accepted : cfg.build order = .ok m) (reproducible : cfg.Reproducible) {n n' : NodeCfg}
  (declared : n ∈ cfg.nodes) (declared' : n' ∈ cfg.nodes)
  (overlap : n.matcher.Overlaps n'.matcher)
include accepted reproducible declared declared' overlap

theorem readable_of_reproducible (readable : n.matcher.Readable) : n'.matcher.Readable := by
  obtain ⟨m₁, accepted₁⟩ := build_any (.headed n.id) accepted
  obtain ⟨m₂, accepted₂⟩ := build_any (.headed n'.id) accepted
  have claims := claim_sample n.matcher true
  have claims' := claims
  rw [claim_overlap overlap] at claims'
  obtain ⟨level, claims⟩ := Option.isSome_iff_exists.mp claims
  obtain ⟨level', claims'⟩ := Option.isSome_iff_exists.mp claims'
  have assigned := assign_headed declared accepted₁ claims
  have assigned' := assign_headed declared' accepted₂ claims'
  obtain ⟨results, done⟩ : ∃ results,
      runResults 1 .dev m₁ [n.matcher.sample true] = .ok results := by
    refine (runResults_iff (by decide) (indexed_of_build accepted₁) _).mpr fun _ => ⟨?_, ?_⟩
    · intro f member
      rw [List.mem_singleton.mp member]
      exact (classify_dev_iff accepted₁ declared assigned).mpr readable
    · exact lt_of_le_of_lt List.countP_le_length (by simp)
  rw [reproducible _ _ m₁ m₂ accepted₁ accepted₂ 1 .dev _ _ (by decide)] at done
  have classified := classified_of_run (by decide) (indexed_of_build accepted₂) done _
    List.mem_cons_self
  exact (classify_dev_iff accepted₂ declared' assigned').mp classified

theorem unmentioned_of_reproducible (different : n ≠ n')
    (accepted₁ : cfg.build (.headed n.id) = .ok m) {frames : List DecodedFieldbusFrame}
    {window : History} {down : StateTransition}
    (reports : ReportsAt .release m frames window down) : down.node ≠ n.id ∧
      ∀ c ∈ (attribution m window down).rankedCatalysts, c.trigger.node ≠ n.id := by
  obtain ⟨m₂, accepted₂⟩ := build_any (.headed n'.id) accepted
  have hidden := hidden_by_headed declared declared' different overlap accepted₂
  obtain ⟨CAP, results, i, positive, done, -, reported⟩ := reports
  rw [reproducible _ _ m m₂ accepted₁ accepted₂ CAP .release frames results positive] at done
  obtain ⟨trip, triggers⟩ :=
    mentioned_observable positive (indexed_of_build accepted₂) done reported
  constructor
  · rintro is
    exact hidden (is ▸ trip)
  · rintro c ranked is
    exact hidden (is ▸ triggers c ranked)

end Reproducible

theorem not_leads_of_reproducible (accepted : cfg.build order = .ok m)
    (reproducible : cfg.Reproducible) {n : NodeCfg} (declared : n ∈ cfg.nodes)
    (shared : Shared cfg n) : ¬ ReflTransGen cfg.Depends n.id cfg.tripNode := by
  intro leads
  have ids := List.inj_on_of_nodup_map (wellFormed_of_build accepted).distinct
  rcases feeds_or_shared accepted leads with ⟨s, declared, shared, place⟩ |
    ⟨⟨n₁, declared₁, same, unshared⟩, -⟩
  · obtain ⟨s', declared', different, overlap⟩ := shared
    obtain ⟨m₁, accepted₁⟩ := build_any (.headed s.id) accepted
    have seen := observable_headed declared accepted₁
    have built := built_of_build accepted₁
    rcases place with isTrip | ⟨a, edge, feeds⟩
    · -- The trip node itself is shared: one process trips and the other never does.
      rw [isTrip, ← built.tripNode] at seen
      obtain ⟨frames, up, front, down, reports, -, downNode, -⟩ :=
        staged_below accepted₁ seen s.id [] (by simp) (by simp) fun _ => 0
      exact (unmentioned_of_reproducible accepted₁ reproducible declared declared' overlap different
        accepted₁ reports).1 (by rw [downNode, built.tripNode, isTrip])
    · -- A shared node feeds the trip: one process blames it and the other never sees it.
      rw [← dependsOn_into, ← built.edges] at edge
      obtain ⟨frames, window, down, reports, c, ranked, is⟩ :=
        blamed_run accepted₁ seen edge (feeds _ m₁ accepted₁)
      exact (unmentioned_of_reproducible accepted₁ reproducible declared declared' overlap different
        accepted₁ reports).2 c ranked is
  · exact unshared (ids declared declared₁ same.symm ▸ shared)

theorem reproducible_iff {order : IterationOrder} {cfg : ManifestCfg}
    {manifest : DependencyManifest} (accepted : cfg.build order = .ok manifest) :
    (cfg.Reproducible ↔ cfg.OverlapsHarmless) ∧ (cfg.AtMostOneClaim ↔ cfg.DisjointMatchers) := by
  refine ⟨⟨?_, reproducible_of_harmless⟩, atMostOneClaim_iff⟩
  intro reproducible n declared n' declared' different overlap
  refine ⟨not_leads_of_reproducible accepted reproducible declared
    ⟨n', declared', different, overlap⟩, ?_, ?_⟩
  · exact readable_of_reproducible accepted reproducible declared declared' overlap
  · exact readable_of_reproducible accepted reproducible declared' declared (overlaps_symm overlap)

theorem harmless_of_disjoint (disjoint : cfg.DisjointMatchers) : cfg.OverlapsHarmless :=
  fun n declared n' declared' different overlap =>
    absurd (disjoint n declared n' declared' overlap) different

theorem cell_disjoint : Cell.cfg.DisjointMatchers := by
  unfold DisjointMatchers
  decide

theorem reproducible_cell : Cell.cfg.Reproducible ∧ Cell.cfg.AtMostOneClaim :=
  ⟨(reproducible_iff Cell.build_cfg).1.mpr (harmless_of_disjoint cell_disjoint),
    (reproducible_iff Cell.build_cfg).2.mpr cell_disjoint⟩

theorem shadow_first_evidence : (runResults 8 .release Cell.shadowFirst Cell.jitter).map
    (List.map (Option.map TripAnalysis.evidence)) =
      .ok [none, none, none, none, none, some (⟨5, Cell.plc, 22000000, some false⟩, [])] := by
  decide +kernel

theorem amr_first_evidence : (runResults 8 .release Cell.amrFirst Cell.jitter).map
    (List.map (Option.map TripAnalysis.evidence)) =
      .ok [none, none, none, none, none, some (⟨5, Cell.plc, 22000000, some false⟩,
        [⟨⟨Cell.amr, Cell.fanuc, 3000000⟩, ⟨3, Cell.amr, 10000000, none⟩,
          ⟨4, Cell.fanuc, 20000000, none⟩⟩])] := by
  decide +kernel

theorem shared_port_differs : ¬ Cell.sharedCfg.AtMostOneClaim ∧ ∃ m m',
    Cell.sharedCfg.build .declared = .ok m ∧ Cell.sharedCfg.build (.headed Cell.amr) = .ok m' ∧
    ∃ results results', runResults 8 .release m Cell.jitter = .ok results ∧
      runResults 8 .release m' Cell.jitter = .ok results' ∧ results ≠ results' := by
  constructor
  · intro once
    have same := once (Cell.ros2At 0) ⟨Cell.amr, .ros2Port 7400⟩ (by decide) ⟨4, .ros2Port 7400⟩
      (by decide) rfl rfl
    cases same
  · obtain ⟨results, done, evidence⟩ := evidence_ok shadow_first_evidence
    obtain ⟨results', done', evidence'⟩ := evidence_ok amr_first_evidence
    refine ⟨Cell.shadowFirst, Cell.amrFirst, by rfl, by rfl, results,
      results', done, done', ?_⟩
    rintro rfl
    rw [evidence] at evidence'
    simp at evidence'

end Proof
end CausalWorks
