import CausalWorks.Proof.Completeness

/-!
# Staged runs

A run that sights chosen nodes at chosen times and then trips. Whether a defect of the engine shows
is decided by such runs.
-/

namespace CausalWorks
open Relation

def DecodedFieldbusFrame.at (self : DecodedFieldbusFrame) (ts : UInt64) : DecodedFieldbusFrame :=
  { self with tapTsNs := ts }

namespace Proof
variable {profile : Profile} {manifest : DependencyManifest}

theorem classify_at (f : DecodedFieldbusFrame) (ts : UInt64) :
    manifest.classify profile (f.at ts) = manifest.classify profile f := by
  unfold DependencyManifest.classify
  induction manifest.nodes.entries with
  | nil => rfl
  | cons entry entries ih =>
      simp only [classifyEntries, ih]
      rfl

theorem assign_of_classify {f : DecodedFieldbusFrame} {found : Option (NodeId × Option Bool)}
    (classified : manifest.classify profile f = .ok found) : manifest.assign f = found := by
  rcases classify_cases profile manifest f with done | ⟨-, failed⟩
  · exact Except.ok.inj (done.symm.trans classified)
  · rw [failed] at classified
    cases classified

theorem classifyEntries_some_iff {f : DecodedFieldbusFrame} {x : NodeId} {interlock : Option Bool}
    (entries : List (Sigma fun _ : NodeId => NodeMatcher)) :
    classifyEntries profile f entries = .ok (some (x, interlock)) ↔
      ∃ earlier m later, entries = earlier ++ ⟨x, m⟩ :: later ∧
        (∀ e ∈ earlier, e.2.matchesFrame profile f = .ok none) ∧
        m.matchesFrame profile f = .ok (some interlock) := by
  induction entries with
  | nil => simp [classifyEntries]
  | cons entry entries ih =>
      obtain ⟨id, m⟩ := entry
      simp only [classifyEntries, bind, Except.bind, pure, Except.pure]
      constructor
      · intro found
        cases here : m.matchesFrame profile f with
        | error fault => simp [here] at found
        | ok result =>
            cases result with
            | some reading =>
                simp only [here, Except.ok.injEq, Option.some.injEq, Prod.mk.injEq] at found
                obtain ⟨rfl, rfl⟩ := found
                exact ⟨[], m, entries, rfl, by simp, here⟩
            | none =>
                simp only [here] at found
                obtain ⟨earlier, m', later, split, skipped, claims⟩ := ih.mp found
                refine ⟨⟨id, m⟩ :: earlier, m', later, by rw [split, List.cons_append], ?_, claims⟩
                exact List.forall_mem_cons.mpr ⟨here, skipped⟩
      · rintro ⟨earlier, m', later, split, skipped, claims⟩
        cases earlier with
        | nil =>
            obtain ⟨same, -⟩ := List.cons.inj split
            cases same
            simp [claims]
        | cons e earlier =>
            obtain ⟨rfl, rest⟩ := List.cons.inj split
            have first := skipped _ List.mem_cons_self
            simp only at first
            simp only [first]
            exact ih.mpr ⟨earlier, m', later, rest,
              fun e member => skipped e (List.mem_cons_of_mem _ member), claims⟩

theorem set_bit (index : UInt8) : ((0xFF : UInt8) >>> index &&& 0x01 != 0) = true := by
  have bits : ∀ k < 8, 255 >>> k &&& 1 = 1 := by decide
  have value : ((0xFF : UInt8) >>> index &&& 0x01).toNat = 1 := by
    rw [UInt8.toNat_and, UInt8.toNat_shiftRight]
    exact bits _ (Nat.mod_lt _ (by decide))
  rw [bne_iff_ne, ne_eq, ← UInt8.toNat_inj, value]
  decide

def statusOf (level : Bool) : UInt8 := if level then 0xFF else 0x00

theorem statusOf_bit (level : Bool) (index : UInt8) :
    (statusOf level >>> index &&& 0x01 != 0) = level := by
  cases level with
  | false => simp [statusOf]
  | true => exact set_bit index

theorem matchesFrame_status {m : NodeMatcher} {f : DecodedFieldbusFrame} {fid : UInt16}
    {interlockBit : Bool} {rawStatusByte : UInt8}
    (proto : f.proto = .profinetIrt fid interlockBit rawStatusByte)
    (skipped : m.matchesFrame profile f = .ok none) (status : UInt8) :
    m.matchesFrame profile { f with proto := .profinetIrt fid interlockBit status } = .ok none := by
  cases m with
  | ros2Port | fanucPose => rfl
  | profinetFrame frameId bitIndex =>
      unfold NodeMatcher.matchesFrame at skipped ⊢
      rw [proto] at skipped
      by_cases same : frameId = fid
      · simp only [same, if_true, Profile.shrU8] at skipped
        split at skipped <;> simp [bind, Except.bind, pure, Except.pure] at skipped
      · simp only [same, if_false]

theorem tripNode_levels {order : IterationOrder} {cfg : ManifestCfg}
    (accepted : cfg.build order = .ok manifest)
    (observable : manifest.Observable profile manifest.tripNode) (level : Bool) :
    ∃ f, manifest.classify profile f = .ok (some (manifest.tripNode, some level)) := by
  have built := built_of_build accepted
  have wellFormed := wellFormed_of_build accepted
  obtain ⟨f, interlock, classified⟩ := observable
  obtain ⟨earlier, m, later, entries, skipped, claims⟩ :=
    (classifyEntries_some_iff _).mp classified
  obtain ⟨n, declared, id, into⟩ := (mem_entries built).mp (entries ▸ by simp :
    ⟨manifest.tripNode, m⟩ ∈ manifest.nodes.entries)
  obtain ⟨n', declared', id', profinet⟩ := wellFormed.trip
  have same : n = n' := List.inj_on_of_nodup_map wellFormed.distinct declared declared'
    (id.trans (built.tripNode.trans id'.symm))
  subst same
  cases kind : n.matcher with
  | ros2Port | fanucPose => simp [kind, NodeMatcherCfg.isProfinet] at profinet
  | profinet frameId bitIndex =>
      rw [kind, NodeMatcherCfg.into] at into
      subst into
      cases proto : f.proto with
      | ros2Udp | fanucUdp | s7commArrival => simp [NodeMatcher.matchesFrame, proto] at claims
      | profinetIrt fid interlockBit rawStatusByte =>
          refine ⟨{ f with proto := .profinetIrt fid interlockBit (statusOf level) },
            (classifyEntries_some_iff _).mpr ⟨earlier, _, later, entries, ?_, ?_⟩⟩
          · exact fun e member => matchesFrame_status proto (skipped e member) _
          · unfold NodeMatcher.matchesFrame at claims ⊢
            rw [proto] at claims
            by_cases here : frameId = fid
            · simp only [here, if_true, Profile.shrU8] at claims ⊢
              split at claims
              · simp [bind, Except.bind] at claims
              · rename_i small
                simp only [small, if_false, bind, Except.bind, pure, Except.pure, statusOf_bit]
            · simp [here] at claims

theorem historyOf_append (history : History) (frames frames' : List DecodedFieldbusFrame) :
    historyOf manifest.record history (frames ++ frames') =
      historyOf manifest.record (historyOf manifest.record history frames) frames' :=
  List.foldl_append

theorem historyOf_cons (history : History) (f : DecodedFieldbusFrame)
    (frames : List DecodedFieldbusFrame) : historyOf manifest.record history (f :: frames) =
      historyOf manifest.record (manifest.record history f).1 frames := rfl

theorem record_assigned {f : DecodedFieldbusFrame} {node : NodeId} {interlock : Option Bool}
    (assigned : manifest.assign f = some (node, interlock)) (history : History) :
    manifest.record history f =
      (transitionOf history f node interlock :: history,
        if manifest.isTrip history (transitionOf history f node interlock) then
          some (transitionOf history f node interlock) else none) := by
  simp only [DependencyManifest.record, assigned]

theorem historyOf_assigned {f : DecodedFieldbusFrame} {node : NodeId} {interlock : Option Bool}
    (assigned : manifest.assign f = some (node, interlock)) (history : History)
    (frames : List DecodedFieldbusFrame) : historyOf manifest.record history (f :: frames) =
      historyOf manifest.record (transitionOf history f node interlock :: history) frames := by
  rw [historyOf_cons, record_assigned assigned]

section
variable {f : DecodedFieldbusFrame} {history : History}

theorem record_other {node : NodeId} {interlock : Option Bool}
    (assigned : manifest.assign f = some (node, interlock)) (other : node ≠ manifest.tripNode) :
    manifest.record history f = (transitionOf history f node interlock :: history, none) := by
  rw [record_assigned assigned, if_neg]
  rw [Bool.not_eq_true]
  exact decide_eq_false fun trips => other trips.1

theorem record_up (assigned : manifest.assign f = some (manifest.tripNode, some true)) :
    manifest.record history f =
      (transitionOf history f manifest.tripNode (some true) :: history, none) := by
  rw [record_assigned assigned, if_neg]
  rw [Bool.not_eq_true]
  exact decide_eq_false fun trips => Bool.noConfusion (Option.some.inj trips.2.1)

theorem record_down (assigned : manifest.assign f = some (manifest.tripNode, some false))
    (level : levelOf history manifest.tripNode = some true) :
    manifest.record history f =
      (transitionOf history f manifest.tripNode (some false) :: history,
        some (transitionOf history f manifest.tripNode (some false))) := by
  rw [record_assigned assigned, if_pos]
  exact decide_eq_true ⟨rfl, rfl, level⟩

theorem classify_assign {found : Option (NodeId × Option Bool)}
    (classified : manifest.classify profile f = .ok found) :
    manifest.classify profile f = .ok (manifest.assign f) := by
  rw [assign_of_classify classified, classified]

end

theorem levelOf_others {frames : List DecodedFieldbusFrame} (others : ∀ f ∈ frames,
      ∃ node interlock, manifest.assign f = some (node, interlock) ∧ node ≠ manifest.tripNode)
    (history : History) : levelOf (historyOf manifest.record history frames) manifest.tripNode =
      levelOf history manifest.tripNode := by
  induction frames generalizing history with
  | nil => rfl
  | cons f frames ih =>
      obtain ⟨node, interlock, assigned, other⟩ := others f List.mem_cons_self
      rw [historyOf_cons, ih fun g member => others g (List.mem_cons_of_mem _ member),
        record_assigned assigned, levelOf_cons]
      exact if_neg other

theorem historyOf_sightings {frameOf : NodeId → DecodedFieldbusFrame} {xs : List NodeId}
    (assigned : ∀ x ∈ xs, ∃ interlock, manifest.assign (frameOf x) = some (x, interlock))
    (history : History) : ∃ front,
      historyOf manifest.record history (xs.map frameOf) = front ++ history ∧
        front.map StateTransition.node = xs.reverse ∧
        ∀ t ∈ front, t.tsNs = (frameOf t.node).tapTsNs := by
  induction xs generalizing history with
  | nil => exact ⟨[], rfl, rfl, by simp⟩
  | cons x xs ih =>
      obtain ⟨interlock, here⟩ := assigned x List.mem_cons_self
      obtain ⟨front, rest, nodes, times⟩ := ih (fun y member =>
        assigned y (List.mem_cons_of_mem _ member))
        (transitionOf history (frameOf x) x interlock :: history)
      refine ⟨front ++ [transitionOf history (frameOf x) x interlock], ?_, ?_, ?_⟩
      · rw [List.map_cons, historyOf_assigned here, rest, List.append_assoc]
        rfl
      · rw [List.map_append, nodes, List.reverse_cons]
        rfl
      · intro t member
        rcases List.mem_append.mp member with later | first
        · exact times t later
        · rw [List.mem_singleton.mp first]
          rfl

def ReportsAt (profile : Profile) (manifest : DependencyManifest)
    (frames : List DecodedFieldbusFrame)
    (window : History) (down : StateTransition) : Prop :=
  ∃ CAP results i, 0 < CAP ∧ runResults CAP profile manifest frames = .ok results ∧
    windowAt CAP manifest frames i = window ∧
    results[i]? = some (some (attribution manifest window down))

theorem runResults_ok {CAP : Nat} (positive : 0 < CAP) (indexed : manifest.Indexed)
    {frames : List DecodedFieldbusFrame}
    (classified : ∀ f ∈ frames, manifest.classify profile f = .ok (manifest.assign f))
    (few : frames.length < 2 ^ 64) : runResults CAP profile manifest frames =
      .ok (analyses manifest.record manifest (List.take CAP) [] frames) := by
  obtain ⟨results, done⟩ := (runResults_iff positive indexed frames).mpr
    fun _ => ⟨classified, lt_of_le_of_lt List.countP_le_length few⟩
  rw [done, runResults_eq positive indexed done]

theorem reportsAt_concat (indexed : manifest.Indexed) {frames : List DecodedFieldbusFrame}
    {last : DecodedFieldbusFrame} {before : History} {down : StateTransition}
    (classified : ∀ f ∈ frames ++ [last], manifest.classify profile f = .ok (manifest.assign f))
    (few : (frames ++ [last]).length < 2 ^ 64)
    (history : historyOf manifest.record [] frames = before)
    (trips : manifest.record before last = (down :: before, some down)) :
    ReportsAt profile manifest (frames ++ [last]) (down :: before) down := by
  have whole : (frames ++ [last]).take (frames.length + 1) = frames ++ [last] :=
    List.take_of_length_le (by simp)
  have after : historyOf manifest.record [] (frames ++ [last]) = down :: before := by
    rw [historyOf_concat, history, trips]
  have kept : (down :: before).take (before.length + 1) = down :: before :=
    List.take_of_length_le (Nat.le_refl _)
  refine ⟨before.length + 1, _, frames.length, by omega,
    runResults_ok (by omega) indexed classified few, ?_, ?_⟩
  · rw [windowAt, whole, ← historyOf_eq, after, kept]
  · rw [analyses_getElem?, List.getElem?_concat_length, whole, after, kept, List.take_left, history]
    simp [trips]

theorem sightings_exist {xs : List NodeId} (seen : ∀ x ∈ xs, manifest.Observable profile x)
    (times : NodeId → UInt64) : ∃ sighting : NodeId → DecodedFieldbusFrame,
      (∀ x, (sighting x).tapTsNs = times x) ∧ ∀ x ∈ xs, ∃ interlock,
        manifest.classify profile (sighting x) = .ok (some (x, interlock)) := by
  have sample : ∀ x, ∃ f : DecodedFieldbusFrame, f.tapTsNs = times x ∧
      (x ∈ xs → ∃ interlock, manifest.classify profile f = .ok (some (x, interlock))) := by
    intro x
    by_cases member : x ∈ xs
    · obtain ⟨f, interlock, classified⟩ := seen x member
      exact ⟨f.at (times x), rfl, fun _ => ⟨interlock, (classify_at _ _).trans classified⟩⟩
    · exact ⟨⟨times x, .s7commArrival 0, []⟩, rfl, fun inside => absurd inside member⟩
  choose sighting stamped classified using sample
  exact ⟨sighting, stamped, classified⟩

theorem staged_run (indexed : manifest.Indexed) (levels : ∀ level : Bool,
      ∃ f, manifest.classify profile f = .ok (some (manifest.tripNode, some level)))
    {pre : List DecodedFieldbusFrame} (known : ∀ f ∈ pre, ∃ node interlock,
      manifest.classify profile f = .ok (some (node, interlock)) ∧ node ≠ manifest.tripNode)
    {xs : List NodeId} (seen : ∀ x ∈ xs, manifest.Observable profile x ∧ x ≠ manifest.tripNode)
    (times : NodeId → UInt64) (few : pre.length + xs.length + 2 < 2 ^ 64) :
    ∃ frames up front down, ReportsAt profile manifest frames
        (down :: (front ++ historyOf manifest.record [up] pre)) down ∧
      up.node = manifest.tripNode ∧ down.node = manifest.tripNode ∧
      down.tsNs = times manifest.tripNode ∧ front.map StateTransition.node = xs.reverse ∧
      ∀ t ∈ front, t.tsNs = times t.node := by
  obtain ⟨first, firstIs⟩ := levels true
  obtain ⟨low, lowIs⟩ := levels false
  obtain ⟨sighting, sightingTimes, sightingIs⟩ :=
    sightings_exist (fun x member => (seen x member).1) times
  let last := low.at (times manifest.tripNode)
  have lastIs : manifest.classify profile last = .ok (some (manifest.tripNode, some false)) :=
    (classify_at _ _).trans lowIs
  let up := transitionOf [] first manifest.tripNode (some true)
  obtain ⟨front, sighted, nodes, stamped⟩ := @historyOf_sightings manifest sighting xs
    (fun x member => by
      obtain ⟨interlock, classified⟩ := sightingIs x member
      exact ⟨interlock, assign_of_classify classified⟩)
    (historyOf manifest.record [up] pre)
  let before := front ++ historyOf manifest.record [up] pre
  have history : historyOf manifest.record [] (first :: (pre ++ xs.map sighting)) = before := by
    rw [historyOf_cons, record_up (assign_of_classify firstIs), historyOf_append, sighted]
  have others : ∀ f ∈ pre ++ xs.map sighting, ∃ node interlock,
      manifest.classify profile f = .ok (some (node, interlock)) ∧ node ≠ manifest.tripNode := by
    intro f member
    rcases List.mem_append.mp member with early | later
    · exact known f early
    · obtain ⟨x, inside, rfl⟩ := List.mem_map.mp later
      obtain ⟨interlock, classified⟩ := sightingIs x inside
      exact ⟨x, interlock, classified, (seen x inside).2⟩
  have level : levelOf before manifest.tripNode = some true := by
    rw [← history, historyOf_cons, record_up (assign_of_classify firstIs), levelOf_others]
    · rw [levelOf_cons]
      exact if_pos rfl
    · intro f member
      obtain ⟨node, interlock, classified, other⟩ := others f member
      exact ⟨node, interlock, assign_of_classify classified, other⟩
  have classified : ∀ f ∈ first :: (pre ++ xs.map sighting) ++ [last],
      manifest.classify profile f = .ok (manifest.assign f) := by
    intro f member
    rcases List.mem_append.mp member with earlier | final
    · rcases List.mem_cons.mp earlier with rfl | middle
      · exact classify_assign firstIs
      · obtain ⟨node, interlock, done, -⟩ := others f middle
        exact classify_assign done
    · rw [List.mem_singleton.mp final]
      exact classify_assign lastIs
  refine ⟨_, up, front, _, reportsAt_concat indexed classified ?_ history
    (record_down (assign_of_classify lastIs) level), rfl, rfl, rfl, nodes,
    fun t member => (stamped t member).trans (sightingTimes t.node)⟩
  simp only [List.length_append, List.length_cons, List.length_map, List.length_nil]
  omega

end Proof
end CausalWorks
