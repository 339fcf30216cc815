import CausalWorks.Proof.Ingest
import CausalWorks.Proof.Refinement

/-!
# Trip detection over a capture

Which packets trip is decided by the levels that the trip node's packets carry. Neither the
capacity of the ring nor packets of other nodes take part, and packets that are not classified
leave no trace at all.
-/

namespace CausalWorks

section Readings
variable (manifest : DependencyManifest)

def reading (packet : Packet) : Option (NodeId × Option Bool) :=
  match parseFrame packet.1 packet.2 with
  | .error _ => none
  | .ok f =>
    match manifest.classify .release f with
    | .error _ => none
    | .ok assigned => assigned

def claimed (packet : Packet) : Bool := (reading manifest packet).isSome

def onTripNode (packet : Packet) : Bool :=
  (reading manifest packet).any fun assigned => assigned.1 == manifest.tripNode

def tripLevel (packet : Packet) : Option Bool :=
  (reading manifest packet).bind fun (node, interlock) =>
    if node = manifest.tripNode then interlock else none

def lastTripLevel (packets : List Packet) (i : Nat) : Option Bool :=
  ((packets.take i).filterMap (tripLevel manifest)).getLast?

def resultsOn {β : Type} (keep : Packet → Bool) (packets : List Packet) (results : List β) :
    List (Packet × β) :=
  (packets.zip results).filter fun entry => keep entry.1

def tripTimes (results : List (Option TripAnalysis)) : List (Option UInt64) :=
  results.map (Option.map fun analysis => analysis.tripEvent.tsNs)

end Readings

namespace Proof
variable {manifest : DependencyManifest}

theorem reading_eq (packet : Packet) : reading manifest packet =
    match parseFrame packet.1 packet.2 with
    | .error _ => none
    | .ok f => manifest.assign f := by
  simp only [reading, classify_release]

theorem capture_eq (history : History) (packet : Packet) : manifest.capture history packet =
    match reading manifest packet with
    | none => (history, none)
    | some (node, interlock) =>
        let t : StateTransition :=
          { seq := UInt64.ofNat history.length, node, tsNs := packet.1, interlock }
        (t :: history, if manifest.isTrip history t then some t else none) := by
  rw [reading_eq]
  rcases parseFrame_cases packet.1 packet.2 with ⟨proto, parsed⟩ | ⟨error, parsed⟩
  · simp only [DependencyManifest.capture, DependencyManifest.record, parsed]
    cases manifest.assign ⟨packet.1, proto, packet.2⟩ <;> rfl
  · simp only [DependencyManifest.capture, parsed]

theorem feed_cases {CAP : Nat} {s : CausalGraphObserver CAP} {history : History}
    (profile : Profile) (refines : Refines s manifest history) (indexed : manifest.Indexed)
    (packet : Packet) :
    (∃ after, s.feed profile packet = .ok (after, (manifest.capture history packet).2.map
        (attribution manifest ((manifest.capture history packet).1.take CAP))) ∧
      Refines after manifest (manifest.capture history packet).1) ∨
    ∃ fault, DevOnly profile fault ∧ s.feed profile packet = .error fault := by
  unfold CausalGraphObserver.feed DependencyManifest.capture
  rcases parseFrame_cases packet.1 packet.2 with ⟨proto, parsed⟩ | ⟨error, parsed⟩
  · rw [parsed]
    exact observe_cases profile refines indexed _
  · rw [parsed]
    exact Or.inl ⟨s, rfl, refines⟩

theorem replay_cases {CAP : Nat} {s : CausalGraphObserver CAP} {history : History}
    (profile : Profile) (refines : Refines s manifest history) (indexed : manifest.Indexed)
    (packets : List Packet) :
    (∃ after, s.replay profile packets =
        .ok (after, analyses manifest.capture manifest (List.take CAP) history packets) ∧
      Refines after manifest (historyOf manifest.capture history packets)) ∨
    ∃ fault, DevOnly profile fault ∧ s.replay profile packets = .error fault := by
  induction packets generalizing s history with
  | nil => exact Or.inl ⟨s, rfl, refines⟩
  | cons packet packets ih =>
      simp only [CausalGraphObserver.replay, bind, Except.bind, pure, Except.pure]
      rcases feed_cases profile refines indexed packet with ⟨next, step, refines'⟩ |
        ⟨fault, devOnly, step⟩
      · rw [step]
        rcases ih refines' with ⟨after, rest, refines''⟩ | ⟨fault, devOnly, rest⟩
        · simp only [rest]
          exact Or.inl ⟨after, rfl, refines''⟩
        · simp only [rest]
          exact Or.inr ⟨fault, devOnly, rfl⟩
      · rw [step]
        exact Or.inr ⟨fault, devOnly, rfl⟩

theorem replayResults_cases {CAP : Nat} (positive : 0 < CAP) (profile : Profile)
    (indexed : manifest.Indexed) (packets : List Packet) :
    replayResults CAP profile manifest packets =
        .ok (analyses manifest.capture manifest (List.take CAP) [] packets) ∨
    ∃ fault, DevOnly profile fault ∧
      replayResults CAP profile manifest packets = .error fault := by
  unfold replayResults
  rcases replay_cases profile (refines_new positive manifest) indexed packets with
    ⟨after, done, -⟩ | ⟨fault, devOnly, done⟩
  · exact Or.inl (by rw [done]; rfl)
  · exact Or.inr ⟨fault, devOnly, by rw [done]; rfl⟩

theorem replayResults_eq {CAP : Nat} (positive : 0 < CAP) {profile : Profile}
    (indexed : manifest.Indexed) {packets : List Packet} {results : List (Option TripAnalysis)}
    (done : replayResults CAP profile manifest packets = .ok results) :
    results = analyses manifest.capture manifest (List.take CAP) [] packets := by
  rcases replayResults_cases positive profile indexed packets with done' | ⟨fault, -, failed⟩
  · exact Except.ok.inj (done.symm.trans done')
  · rw [failed] at done
    cases done

theorem levelOf_capture (history : History) (packet : Packet) :
    levelOf (manifest.capture history packet).1 manifest.tripNode =
      (tripLevel manifest packet).or (levelOf history manifest.tripNode) := by
  rw [capture_eq, tripLevel]
  cases reading manifest packet with
  | none => rfl
  | some assigned =>
      simp only [levelOf_cons, Option.bind_some]
      by_cases here : assigned.1 = manifest.tripNode <;> simp [here]

theorem levelOf_historyOf (packets : List Packet) :
    levelOf (historyOf manifest.capture [] packets) manifest.tripNode =
      (packets.filterMap (tripLevel manifest)).getLast? := by
  induction packets using List.reverseRecOn with
  | nil => rfl
  | append_singleton packets packet ih =>
      rw [historyOf_concat, levelOf_capture, ih, List.filterMap_append, List.getLast?_append]
      cases level : tripLevel manifest packet <;> simp [level]

theorem capture_trips_iff (history : History) (packet : Packet) :
    (manifest.capture history packet).2.isSome ↔ tripLevel manifest packet = some false ∧
      levelOf history manifest.tripNode = some true := by
  rw [capture_eq, tripLevel]
  cases reading manifest packet with
  | none => simp
  | some assigned =>
      obtain ⟨node, interlock⟩ := assigned
      by_cases here : node = manifest.tripNode
      · subst here
        by_cases trip : interlock = some false ∧ levelOf history manifest.tripNode = some true <;>
          simp [DependencyManifest.isTrip, trip]
      · simp [DependencyManifest.isTrip, here]

theorem tripEvents_keep {ι : Type} {step : History → ι → History × Option StateTransition}
    (keep keep' : History → History) (history : History) (inputs : List ι) :
    (analyses step manifest keep history inputs).map (Option.map TripAnalysis.tripEvent) =
      (analyses step manifest keep' history inputs).map (Option.map TripAnalysis.tripEvent) := by
  induction inputs generalizing history with
  | nil => rfl
  | cons x inputs ih =>
      simp only [analyses, List.map_cons, ih, Option.map_map]
      rfl

theorem resultsOn_cons {β : Type} (keep : Packet → Bool) (packet : Packet)
    (packets : List Packet) (result : β) (results : List β) :
    resultsOn keep (packet :: packets) (result :: results) =
      if keep packet then (packet, result) :: resultsOn keep packets results
      else resultsOn keep packets results := by
  simp [resultsOn, List.filter_cons]

theorem resultsOn_claimed (keep : History → History) (history : History)
    (packets : List Packet) :
    resultsOn (claimed manifest) packets
        (analyses manifest.capture manifest keep history packets) =
      (packets.filter (claimed manifest)).zip (analyses manifest.capture manifest keep history
        (packets.filter (claimed manifest))) := by
  induction packets generalizing history with
  | nil => rfl
  | cons packet packets ih =>
      by_cases here : claimed manifest packet = true
      · rw [List.filter_cons_of_pos here]
        simp only [analyses, List.zip_cons_cons, resultsOn_cons, here, if_true, ih]
      · have unread : reading manifest packet = none := by simpa [claimed] using here
        have unchanged : (manifest.capture history packet).1 = history := by
          rw [capture_eq, unread]
        rw [List.filter_cons_of_neg here]
        simp only [analyses, resultsOn_cons, here, if_false, unchanged, ih, Bool.false_eq_true]

theorem tripTimes_capture {history history' : History} (packet : Packet)
    (levels : levelOf history manifest.tripNode = levelOf history' manifest.tripNode) :
    (manifest.capture history packet).2.map StateTransition.tsNs =
      (manifest.capture history' packet).2.map StateTransition.tsNs := by
  rw [capture_eq, capture_eq]
  cases reading manifest packet with
  | none => rfl
  | some assigned =>
      obtain ⟨node, interlock⟩ := assigned
      by_cases here : node = manifest.tripNode
      · subst here
        by_cases trip : interlock = some false ∧ levelOf history' manifest.tripNode = some true <;>
          simp [DependencyManifest.isTrip, levels, trip]
      · simp [DependencyManifest.isTrip, here]

theorem tripTimes_cons (trip : Option StateTransition) (window : History)
    (results : List (Option TripAnalysis)) :
    tripTimes (trip.map (attribution manifest window) :: results) =
      trip.map StateTransition.tsNs :: tripTimes results := by
  simp only [tripTimes, List.map_cons, Option.map_map]
  rfl

theorem resultsOn_onTripNode (keep : History → History) (history history' : History)
    (levels : levelOf history manifest.tripNode = levelOf history' manifest.tripNode)
    (packets : List Packet) :
    resultsOn (onTripNode manifest) packets
        (tripTimes (analyses manifest.capture manifest keep history packets)) =
      (packets.filter (onTripNode manifest)).zip (tripTimes (analyses manifest.capture manifest
        keep history' (packets.filter (onTripNode manifest)))) := by
  induction packets generalizing history history' with
  | nil => rfl
  | cons packet packets ih =>
      by_cases here : onTripNode manifest packet = true
      · have after : levelOf (manifest.capture history packet).1 manifest.tripNode =
            levelOf (manifest.capture history' packet).1 manifest.tripNode := by
          rw [levelOf_capture, levelOf_capture, levels]
        have same := tripTimes_capture packet levels
        rw [List.filter_cons_of_pos here]
        simp only [analyses, tripTimes_cons, List.zip_cons_cons, resultsOn_cons, here, if_true,
          ih _ _ after]
        exact congrArg (fun time => (packet, time) :: _) same
      · have noLevel : tripLevel manifest packet = none := by
          unfold onTripNode at here
          unfold tripLevel
          cases read : reading manifest packet with
          | none => rfl
          | some assigned =>
              have other : assigned.1 ≠ manifest.tripNode := by simpa [read] using here
              simp [other]
        have after : levelOf (manifest.capture history packet).1 manifest.tripNode =
            levelOf history' manifest.tripNode := by
          rw [levelOf_capture, noLevel, levels, Option.none_or]
        rw [List.filter_cons_of_neg here]
        simp only [analyses, tripTimes_cons, resultsOn_cons, here, if_false, ih _ _ after,
          Bool.false_eq_true]

structure DetectsTrips (CAP : Nat) (manifest : DependencyManifest) (packets : List Packet)
    (results : List (Option TripAnalysis)) : Prop where
  one_each : results.length = packets.length
  trips_iff : ∀ i packet, packets[i]? = some packet → ((∃ analysis,
    results[i]? = some (some analysis)) ↔ reading manifest packet =
        some (manifest.tripNode, some false) ∧ lastTripLevel manifest packets i = some true)
  capacity : ∀ CAP' profile' results', 0 < CAP' →
    replayResults CAP' profile' manifest packets = .ok results' →
    results'.map (Option.map TripAnalysis.tripEvent) =
      results.map (Option.map TripAnalysis.tripEvent)
  unclassified : ∀ packets' profile' results',
    packets'.filter (claimed manifest) = packets.filter (claimed manifest) →
    replayResults CAP profile' manifest packets' = .ok results' →
    resultsOn (claimed manifest) packets' results' = resultsOn (claimed manifest) packets results
  otherNodes : ∀ packets' profile' results',
    packets'.filter (onTripNode manifest) = packets.filter (onTripNode manifest) →
    replayResults CAP profile' manifest packets' = .ok results' →
    resultsOn (onTripNode manifest) packets' (tripTimes results') =
      resultsOn (onTripNode manifest) packets (tripTimes results)

def TripsDetected (CAP : Nat) (profile : Profile) (manifest : DependencyManifest)
    (packets : List Packet) : Prop :=
  match replayResults CAP profile manifest packets with
  | .ok results => DetectsTrips CAP manifest packets results
  | .error fault => DevOnly profile fault

theorem tripLevel_false_iff {packet : Packet} : tripLevel manifest packet = some false ↔
    reading manifest packet = some (manifest.tripNode, some false) := by
  unfold tripLevel
  cases reading manifest packet with
  | none => simp
  | some assigned =>
      obtain ⟨node, interlock⟩ := assigned
      by_cases here : node = manifest.tripNode <;> simp [here]

theorem trips_iff (keep : History → History) {packets : List Packet} {i : Nat} {packet : Packet}
    (at_ : packets[i]? = some packet) :
    (∃ analysis,
        (analyses manifest.capture manifest keep [] packets)[i]? = some (some analysis)) ↔
      reading manifest packet = some (manifest.tripNode, some false) ∧
        lastTripLevel manifest packets i = some true := by
  have decided := @capture_trips_iff manifest
    (historyOf manifest.capture [] (packets.take i)) packet
  rw [levelOf_historyOf, tripLevel_false_iff] at decided
  rw [analyses_getElem?, at_, lastTripLevel, ← decided, Option.isSome_iff_exists]
  simp

theorem trips_detected {CAP : Nat} (positive : 0 < CAP) (profile : Profile) (nodes : NodeTable)
    (edges : List DependencyEdge) (tripNode : NodeId) (packets : List Packet) :
    TripsDetected CAP profile (.new nodes edges tripNode) packets := by
  have indexed := new_indexed nodes edges tripNode
  unfold TripsDetected
  rcases replayResults_cases positive profile indexed packets with done | ⟨fault, devOnly, done⟩
  · rw [done]
    constructor
    · exact length_analyses _ _ _ _
    · exact fun i packet at_ => trips_iff _ at_
    · intro CAP' profile' results' positive' done'
      rw [replayResults_eq positive' indexed done']
      exact tripEvents_keep _ _ _ _
    · intro packets' profile' results' same done'
      rw [replayResults_eq positive indexed done', resultsOn_claimed, resultsOn_claimed, same]
    · intro packets' profile' results' same done'
      rw [replayResults_eq positive indexed done', resultsOn_onTripNode _ [] [] rfl,
        resultsOn_onTripNode _ [] [] rfl, same]
  · rw [done]
    exact devOnly

theorem trips_detected_cell : TripsDetected 4 .release Cell.manifest
    [(0, Cell.plcBytes true), (1, []), (2, Cell.plcBytes false)] :=
  trips_detected (by decide) .release _ _ _ _

end Proof
end CausalWorks
