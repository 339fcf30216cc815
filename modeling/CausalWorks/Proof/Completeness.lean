import CausalWorks.Proof.Attribution
import CausalWorks.Proof.Safety

/-!
# When every violated link is reported

The walk visits a node once, so it examines one instance of each node. Nothing is lost as long as
no node with sources of its own is reached through two different effects.
-/

namespace CausalWorks
open Relation

namespace DependencyManifest
variable (self : DependencyManifest) (profile : Profile)

def Observable (node : NodeId) : Prop :=
  ∃ f interlock, self.classify profile f = .ok (some (node, interlock))

/-- Declared edges lead from the node to the trip node, through observable nodes. -/
inductive Feeds : NodeId → Prop
  | trip (observable : self.Observable profile self.tripNode) : Feeds self.tripNode
  | step {a b : NodeId} (observable : self.Observable profile a) (edge : DependsOn self.edges a b)
      (feeds : Feeds b) : Feeds a

/-- A node with an observable source feeds the trip through one successor only. -/
def ForkFree : Prop :=
  ∀ source node left right, self.Observable profile source → self.Observable profile node →
    DependsOn self.edges source node →
    DependsOn self.edges node left → self.Feeds profile left →
    DependsOn self.edges node right → self.Feeds profile right → left = right

end DependencyManifest

def windowAt (CAP : Nat) (manifest : DependencyManifest) (frames : List DecodedFieldbusFrame)
    (i : Nat) : History :=
  (manifest.transitions (frames.take (i + 1))).reverse.take CAP

def ReportsAll (manifest : DependencyManifest) (window : History) (analysis : TripAnalysis) :
    Prop :=
  ∀ effect, Reached manifest window analysis.tripEvent effect →
    ∀ l ∈ linksInto manifest window effect, l.edge.wcetNs < l.dt →
      l.catalyst ∈ analysis.rankedCatalysts

def AttributesCompletely (profile : Profile) (manifest : DependencyManifest) : Prop :=
  ∀ CAP frames results, 0 < CAP → runResults CAP profile manifest frames = .ok results →
    ∀ (i : Nat) (analysis : TripAnalysis), results[i]? = some (some analysis) →
      ReportsAll manifest (windowAt CAP manifest frames i) analysis

/-- Each node has at most one instance, among those reached, with links of its own. -/
def Unforked (manifest : DependencyManifest) (window : History) (trip : StateTransition) : Prop :=
  ∀ q, Reached manifest window trip q → linksInto manifest window q ≠ [] →
    ∀ q', Reached manifest window trip q' → q'.node = q.node → q' = q

namespace Proof
variable {profile : Profile} {manifest : DependencyManifest} {window : History}
  {trip q q' : StateTransition}

theorem dependsOn_link {effect : StateTransition} {l : CausalLink}
    (link : l ∈ linksInto manifest window effect) :
    DependsOn manifest.edges l.trigger.node effect.node := by
  obtain ⟨declared, into, -, found⟩ := mem_linksInto.mp link
  exact ⟨l.edge, declared, (lastBefore_some found).2.1.symm, into⟩

theorem reached_leads (reached : Reached manifest window trip q) :
    q = trip ∨ TransGen (DependsOn manifest.edges) q.node trip.node := by
  induction reached with
  | trip => exact Or.inl rfl
  | trigger _ link ih =>
      right
      rcases ih with rfl | leads
      · exact .single (dependsOn_link link)
      · exact .head (dependsOn_link link) leads

theorem reached_trip_unique (acyclic : ∀ n, ¬ TransGen (DependsOn manifest.edges) n n)
    (reached : Reached manifest window trip q) (same : q.node = trip.node) : q = trip := by
  rcases reached_leads reached with is | leads
  · exact is
  · rw [same] at leads
    exact absurd leads (acyclic _)

theorem reached_feeds (observed : ∀ t ∈ window, manifest.Observable profile t.node)
    (inside : trip ∈ window) (isTrip : trip.node = manifest.tripNode)
    (reached : Reached manifest window trip q) : manifest.Feeds profile q.node := by
  induction reached with
  | trip =>
      have seen := observed trip inside
      rw [isTrip] at seen ⊢
      exact .trip seen
  | trigger reached link ih =>
      exact .step (observed _ (Reached.recent inside (.trigger reached link))) (dependsOn_link link)
        ih

theorem unforked_of_forkFree (acyclic : ∀ n, ¬ TransGen (DependsOn manifest.edges) n n)
    (free : manifest.ForkFree profile)
    (observed : ∀ t ∈ window, manifest.Observable profile t.node) (inside : trip ∈ window)
    (isTrip : trip.node = manifest.tripNode) : Unforked manifest window trip := by
  intro q reached
  induction reached with
  | trip => exact fun _ q' reached' same => reached_trip_unique acyclic reached' same
  | @trigger effect l reached link ih =>
      intro links q' reached' same
      cases reached' with
      | trip => exact (reached_trip_unique acyclic (.trigger reached link) same.symm).symm
      | @trigger effect' l' reached' link' =>
          -- Both successors feed the trip, so they are one node, and by induction one instance.
          obtain ⟨own, member⟩ := List.exists_mem_of_ne_nil _ links
          have source := lastBefore_some (mem_linksInto.mp member).2.2.2
          have edge := dependsOn_link link
          have edge' := dependsOn_link link'
          rw [same] at edge'
          have node : effect'.node = effect.node :=
            free own.trigger.node l.trigger.node effect'.node effect.node
              (observed _ source.1)
              (observed _ (Reached.recent inside (.trigger reached link)))
              (dependsOn_link member) edge' (reached_feeds observed inside isTrip reached') edge
              (reached_feeds observed inside isTrip reached)
          have effectIs := ih (List.ne_nil_of_mem link) effect' reached' node
          obtain ⟨-, -, -, found⟩ := mem_linksInto.mp link
          obtain ⟨-, -, -, found'⟩ := mem_linksInto.mp link'
          have from_ : l'.edge.edgeFrom = l.edge.edgeFrom := by
            rw [← (lastBefore_some found').2.1, ← (lastBefore_some found).2.1, same]
          rw [effectIs, from_, found] at found'
          exact (Option.some.inj found').symm

theorem pending_start (manifest : DependencyManifest) (trip : StateTransition) :
    Worklist.pending DependencyEdge.edgeTo manifest.edges ([] : List NodeId) [trip] ≤
      1 + manifest.edges.length := by
  simp only [Worklist.pending, List.length_singleton]
  exact Nat.add_le_add_left List.countP_le_length _

theorem examined_closed (manifest : DependencyManifest) (window : History)
    (trip : StateTransition) :
    trip.node ∈ (examined manifest window trip).map StateTransition.node ∧
      ∀ x ∈ examined manifest window trip, ∀ y ∈ triggers manifest window x,
        y.node ∈ (examined manifest window trip).map StateTransition.node := by
  obtain ⟨start, closed⟩ := Worklist.expansions_closed StateTransition.node
    (@triggers_bounded manifest window) (1 + manifest.edges.length) [] [trip]
    (pending_start manifest trip)
  constructor
  · exact (start trip List.mem_cons_self).resolve_left (by simp)
  · exact fun x member y pushed => (closed x member y pushed).resolve_left (by simp)

theorem examined_of_reached (unforked : Unforked manifest window trip)
    (reached : Reached manifest window trip q) (links : linksInto manifest window q ≠ []) :
    q ∈ examined manifest window trip := by
  obtain ⟨start, closed⟩ := examined_closed manifest window trip
  have visited : q.node ∈ (examined manifest window trip).map StateTransition.node := by
    induction reached with
    | trip => exact start
    | @trigger effect l reached link ih =>
        have some_ := List.ne_nil_of_mem link
        obtain ⟨x, member, same⟩ := List.mem_map.mp (ih some_)
        have is := unforked effect reached some_ x (examined_reached x member) same
        exact closed x member l.trigger (is ▸ List.mem_map_of_mem link)
  obtain ⟨x, member, same⟩ := List.mem_map.mp visited
  rw [← unforked q reached links x (examined_reached x member) same]
  exact member

theorem mem_violations_iff {l : CausalLink} : l ∈ violations manifest window trip ↔
    l.effect ∈ examined manifest window trip ∧ l ∈ linksInto manifest window l.effect ∧
      l.edge.wcetNs < l.dt := by
  constructor
  · intro reported
    obtain ⟨effect, visited, link, violated⟩ := mem_violations reported
    obtain ⟨-, -, rfl, -⟩ := mem_linksInto.mp link
    exact ⟨visited, link, violated⟩
  · rintro ⟨visited, link, violated⟩
    refine List.mem_filter.mpr ⟨List.mem_flatMap.mpr ⟨l.effect, visited, link⟩, ?_⟩
    simpa [CausalLink.violated] using violated

theorem reportsAll_of_unforked (unforked : Unforked manifest window trip) :
    ReportsAll manifest window (attribution manifest window trip) := by
  intro effect reached l link violated
  have visited := examined_of_reached unforked reached (List.ne_nil_of_mem link)
  obtain ⟨-, -, same, -⟩ := mem_linksInto.mp link
  rw [← same] at visited link
  exact mem_rankedCatalysts.mpr ⟨l, mem_violations_iff.mpr ⟨visited, link, violated⟩, rfl⟩

theorem runResults_iff {CAP : Nat} (positive : 0 < CAP) (indexed : manifest.Indexed)
    (frames : List DecodedFieldbusFrame) :
    (∃ results, runResults CAP profile manifest frames = .ok results) ↔ (profile = .dev →
      (∀ f ∈ frames, manifest.classify profile f = .ok (manifest.assign f)) ∧
        frames.countP (fun f => (manifest.assign f).isSome) < 2 ^ 64) := by
  have runs : (∃ results, runResults CAP profile manifest frames = .ok results) ↔
      ∃ done, (CausalGraphObserver.new manifest : CausalGraphObserver CAP).run profile frames =
        .ok done := by
    unfold runResults
    cases (CausalGraphObserver.new manifest : CausalGraphObserver CAP).run profile frames with
    | ok pair => simp [bind, Except.bind, pure, Except.pure]
    | error fault => simp [bind, Except.bind]
  rw [runs]
  cases profile with
  | release =>
      obtain ⟨after, done, -⟩ := run_new_ok positive indexed frames
      simp [done]
  | dev => exact (run_new_dev_ok positive indexed frames).trans (by simp)

theorem classified_of_run {CAP : Nat} (positive : 0 < CAP) (indexed : manifest.Indexed)
    {frames : List DecodedFieldbusFrame} {results : List (Option TripAnalysis)}
    (done : runResults CAP profile manifest frames = .ok results) :
    ∀ f ∈ frames, manifest.classify profile f = .ok (manifest.assign f) := by
  cases profile with
  | release => exact fun f _ => classify_release manifest f
  | dev => exact ((runResults_iff positive indexed frames).mp ⟨results, done⟩ rfl).1

theorem runResults_eq {CAP : Nat} (positive : 0 < CAP) (indexed : manifest.Indexed)
    {frames : List DecodedFieldbusFrame} {results : List (Option TripAnalysis)}
    (done : runResults CAP profile manifest frames = .ok results) :
    results = analyses manifest.record manifest (List.take CAP) [] frames := by
  unfold runResults at done
  rcases run_new_cases positive profile indexed frames with ⟨after, run, -⟩ | ⟨fault, -, run⟩
  · rw [run] at done
    exact (Except.ok.inj done).symm
  · rw [run] at done
    cases done

theorem transitions_observable {frames : List DecodedFieldbusFrame}
    (classified : ∀ f ∈ frames, manifest.classify profile f = .ok (manifest.assign f)) :
    ∀ t ∈ historyOf manifest.record [] frames, manifest.Observable profile t.node := by
  intro t member
  obtain ⟨newer, before, occurs⟩ := List.append_of_mem member
  obtain ⟨i, f, node, interlock, at_, assigned, -, rfl⟩ := recorded_at manifest occurs
  exact ⟨f, interlock, by rw [classified f (List.mem_of_getElem? at_), assigned]; rfl⟩

theorem acyclic_of_build {order : IterationOrder} {cfg : ManifestCfg}
    (accepted : cfg.build order = .ok manifest) (n : NodeId) :
    ¬ TransGen (DependsOn manifest.edges) n n := by
  rw [(built_of_build accepted).edges, dependsOn_into]
  exact (wellFormed_of_build accepted).acyclic n

theorem record_trip_node {history : History} {f : DecodedFieldbusFrame}
    (tripped : (manifest.record history f).2 = some trip) : trip.node = manifest.tripNode := by
  unfold DependencyManifest.record at tripped
  cases assigned : manifest.assign f with
  | none => simp [assigned] at tripped
  | some found =>
      simp only [assigned, Option.ite_none_right_eq_some, Option.some.injEq] at tripped
      obtain ⟨is, rfl⟩ := tripped
      exact (of_decide_eq_true is).1

theorem trip_node {keep : History → History} {frames : List DecodedFieldbusFrame} {i : Nat}
    {analysis : TripAnalysis}
    (reported : (analyses manifest.record manifest keep [] frames)[i]? = some (some analysis)) :
    analysis.tripEvent.node = manifest.tripNode := by
  rw [analyses_getElem?] at reported
  obtain ⟨f, -, result⟩ := Option.map_eq_some_iff.mp reported
  obtain ⟨trip, tripped, rfl⟩ := Option.map_eq_some_iff.mp result
  exact record_trip_node tripped

theorem unforked_at {CAP : Nat} (positive : 0 < CAP) (indexed : manifest.Indexed)
    (acyclic : ∀ n, ¬ TransGen (DependsOn manifest.edges) n n)
    (free : manifest.ForkFree profile) {frames : List DecodedFieldbusFrame}
    {results : List (Option TripAnalysis)}
    (done : runResults CAP profile manifest frames = .ok results) {i : Nat}
    {analysis : TripAnalysis} (reported : results[i]? = some (some analysis)) :
    Unforked manifest (windowAt CAP manifest frames i) analysis.tripEvent ∧
      analysis = attribution manifest (windowAt CAP manifest frames i) analysis.tripEvent := by
  have classified := classified_of_run positive indexed done
  rw [runResults_eq positive indexed done] at reported
  have isTrip := trip_node reported
  obtain ⟨trip, before, history, rfl⟩ := analysis_at manifest reported
  have observed := transitions_observable fun f member =>
    classified f (List.mem_of_mem_take (i := i + 1) member)
  unfold windowAt
  rw [← historyOf_eq, history] at *
  refine ⟨?_, rfl⟩
  apply unforked_of_forkFree acyclic free
  · exact fun t member => observed t (List.mem_of_mem_take member)
  · obtain ⟨n, rfl⟩ := Nat.exists_eq_succ_of_ne_zero positive.ne'
    exact List.mem_cons_self
  · exact isTrip

theorem completely_of_forkFree (indexed : manifest.Indexed)
    (acyclic : ∀ n, ¬ TransGen (DependsOn manifest.edges) n n)
    (free : manifest.ForkFree profile) : AttributesCompletely profile manifest := by
  intro CAP frames results positive done i analysis reported
  obtain ⟨unforked, is⟩ := unforked_at positive indexed acyclic free done reported
  rw [is]
  exact reportsAll_of_unforked unforked

end Proof
end CausalWorks
