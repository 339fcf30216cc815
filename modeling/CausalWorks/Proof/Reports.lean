import CausalWorks.Proof.Attribution
import CausalWorks.Proof.Evidence

/-!
# The times of a report are exact

The walk meets no times but those of packets. Below `2 ^ 62` the successor of each is exact, and so
is every difference of two of them.
-/

namespace CausalWorks

section
variable (profile : Profile) (lookup : NodeId → UInt64 → Except Fault (Option StateTransition))
  (revAdj : NodeId → Option (List DependencyEdge)) (trip : StateTransition)

def visitEntry (w : Walk) (effectNode : NodeId) (effectTs : UInt64)
    (frontier : List (NodeId × UInt64)) : Except Fault Walk :=
  if effectNode ∈ w.visited then .ok { w with frontier }
  else
    ((revAdj effectNode).getD []).foldlM (visitEdge profile lookup trip effectNode effectTs)
      { w with visited := effectNode :: w.visited, frontier }

/-- The entries that the loop takes off the frontier, in their order. -/
def popped : Nat → Walk → List (NodeId × UInt64)
  | 0, _ => []
  | fuel + 1, w =>
    match w.frontier with
    | [] => []
    | (effectNode, effectTs) :: frontier =>
      (effectNode, effectTs) ::
        match visitEntry profile lookup revAdj trip w effectNode effectTs frontier with
        | .ok w => popped fuel w
        | .error _ => []

end

def CausalGraphObserver.popped {CAP : Nat} (profile : Profile) (self : CausalGraphObserver CAP)
    (trip : StateTransition) : List (NodeId × UInt64) :=
  CausalWorks.popped profile self.ring.lastForNodeBefore self.manifest.revAdj trip
    (1 + self.manifest.edges.length)
    { candidates := [], visited := [], frontier := [(trip.node, trip.tsNs)] }

structure ReportExact {CAP : Nat} (profile : Profile) (s : CausalGraphObserver CAP)
    (packet : Packet) (analysis : TripAnalysis) : Prop where
  tripTs : analysis.tripEvent.tsNs = packet.1
  effectTs : ∀ entry ∈ s.popped profile analysis.tripEvent, entry.2.toNat < 2 ^ 62 ∧
    profile.addU64 entry.2 1 = .ok (entry.2 + 1) ∧ (entry.2 + 1).toNat = entry.2.toNat + 1
  delays : ∀ c ∈ analysis.rankedCatalysts,
    c.trigger.tsNs.toNat + c.observedDtNs.toNat = c.effect.tsNs.toNat

structure TraceExact (analysis : TripAnalysis) (trace : CausalTrace) : Prop where
  tripTs : trace.tripTsNs = analysis.tripEvent.tsNs
  offsets : ∀ e ∈ trace.eventSequence,
    e.offsetFromTripNs.toInt = (e.tsNs.toNat : Int) - trace.tripTsNs.toNat
  response : ∀ c, analysis.rankedCatalysts.head? = some c →
    c.trigger.tsNs.toNat + trace.iso13849.observedResponseTimeNs.toNat = trace.tripTsNs.toNat

structure EngineExact (CAP : Nat) (profile : Profile) (manifest : DependencyManifest)
    (packets : List Packet) : Prop where
  faults : ∀ fault, (CausalGraphObserver.new manifest : CausalGraphObserver CAP).replay profile
    packets = .error fault → fault = .shiftOverflow
  counted : ∀ s results, (CausalGraphObserver.new manifest : CausalGraphObserver CAP).replay profile
    packets = .ok (s, results) → s.seq.toNat = packets.countP (claimed manifest)
  reports : ∀ before packet after s results s' analysis, packets = before ++ packet :: after →
    (CausalGraphObserver.new manifest : CausalGraphObserver CAP).replay profile before =
      .ok (s, results) →
    s.feed profile packet = .ok (s', some analysis) → ReportExact profile s' packet analysis

namespace Proof

section
variable {profile : Profile}
  {lookup : NodeId → UInt64 → Except Fault (Option StateTransition)}
  {revAdj : NodeId → Option (List DependencyEdge)} {trip : StateTransition} {effectNode : NodeId}
  {effectTs : UInt64} {early : UInt64 → Prop}

theorem visitEdge_keeps (found : ∀ node ts t, lookup node ts = .ok (some t) → early t.tsNs)
    {edge : DependencyEdge} {w after : Walk}
    (visited : visitEdge profile lookup trip effectNode effectTs w edge = .ok after)
    (frontier : ∀ entry ∈ w.frontier, early entry.2) :
    ∀ entry ∈ after.frontier, early entry.2 := by
  obtain ⟨effect, -, visited⟩ := bind_ok visited
  cases effect with
  | none =>
      cases visited
      exact frontier
  | some effect =>
      obtain ⟨trigger, looked, visited⟩ := bind_ok visited
      cases trigger with
      | none =>
          cases visited
          exact frontier
      | some trigger =>
          cases visited
          exact List.forall_mem_cons.mpr ⟨found _ _ _ looked, frontier⟩

theorem visitEdges_keep (found : ∀ node ts t, lookup node ts = .ok (some t) → early t.tsNs)
    {incoming : List DependencyEdge} {w after : Walk}
    (visited : incoming.foldlM (visitEdge profile lookup trip effectNode effectTs) w = .ok after)
    (frontier : ∀ entry ∈ w.frontier, early entry.2) :
    ∀ entry ∈ after.frontier, early entry.2 := by
  induction incoming generalizing w with
  | nil =>
      cases visited
      exact frontier
  | cons edge incoming ih =>
      rw [List.foldlM_cons] at visited
      obtain ⟨next, here, rest⟩ := bind_ok visited
      exact ih rest (visitEdge_keeps found here frontier)

variable (profile lookup revAdj trip effectNode effectTs) in
theorem walk_visitEntry (fuel : Nat) (w : Walk) (frontier : List (NodeId × UInt64)) :
    walk profile lookup revAdj trip (fuel + 1) { w with
        frontier := (effectNode, effectTs) :: frontier } =
      visitEntry profile lookup revAdj trip w effectNode effectTs frontier >>=
        walk profile lookup revAdj trip fuel := by
  unfold visitEntry
  by_cases old : effectNode ∈ w.visited
  · rw [walk_seen profile lookup revAdj trip fuel old, if_pos old]
    rfl
  · rw [walk_fresh profile lookup revAdj trip fuel old, if_neg old]
    cases revAdj effectNode <;> rfl

theorem visitEdges_visited {incoming : List DependencyEdge} {w after : Walk}
    (visits : incoming.foldlM (visitEdge profile lookup trip effectNode effectTs) w = .ok after) :
    after.visited = w.visited := by
  induction incoming generalizing w with
  | nil =>
      obtain rfl := Except.ok.inj visits
      rfl
  | cons edge incoming ih =>
      rw [List.foldlM_cons] at visits
      obtain ⟨next, here, rest⟩ := bind_ok visits
      refine (ih rest).trans ?_
      obtain ⟨effect, -, here⟩ := bind_ok here
      cases effect with
      | none =>
          obtain rfl := Except.ok.inj here
          rfl
      | some effect =>
          obtain ⟨trigger, -, here⟩ := bind_ok here
          cases trigger with
          | none =>
              obtain rfl := Except.ok.inj here
              rfl
          | some trigger =>
              obtain rfl := Except.ok.inj here
              rfl

theorem mem_visitEntry {w after : Walk} {frontier : List (NodeId × UInt64)}
    (visits : visitEntry profile lookup revAdj trip w effectNode effectTs frontier = .ok after)
    {node : NodeId} : node ∈ after.visited ↔ node = effectNode ∨ node ∈ w.visited := by
  unfold visitEntry at visits
  split at visits
  · rename_i old
    obtain rfl := Except.ok.inj visits
    exact ⟨Or.inr, fun member => member.elim (fun is => is ▸ old) id⟩
  · rw [visitEdges_visited visits]
    exact List.mem_cons

theorem mem_visited_iff {fuel : Nat} {w after : Walk}
    (walked : walk profile lookup revAdj trip fuel w = .ok after) {node : NodeId} :
    node ∈ after.visited ↔ node ∈ w.visited ∨
      node ∈ (popped profile lookup revAdj trip fuel w).map Prod.fst := by
  induction fuel generalizing w with
  | zero =>
      rcases w with ⟨candidates, visited, _ | ⟨top, stack⟩⟩
      · obtain rfl := Except.ok.inj ((walk_nil profile lookup revAdj trip _).symm.trans walked)
        simp [popped]
      · cases walked
  | succ fuel ih =>
      rcases w with ⟨candidates, visited, _ | ⟨⟨effectNode, effectTs⟩, stack⟩⟩
      · obtain rfl := Except.ok.inj ((walk_nil profile lookup revAdj trip _).symm.trans walked)
        simp [popped]
      · rw [walk_visitEntry profile lookup revAdj trip effectNode effectTs fuel
          ⟨candidates, visited, _⟩ stack] at walked
        obtain ⟨next, turn, rest⟩ := bind_ok walked
        replace turn : visitEntry profile lookup revAdj trip
            ⟨candidates, visited, (effectNode, effectTs) :: stack⟩ effectNode effectTs stack =
              .ok next := turn
        rw [ih rest, mem_visitEntry turn, popped]
        simp only [turn, List.map_cons, List.mem_cons]
        rw [or_assoc, or_left_comm]

theorem visitEntry_keeps (found : ∀ node ts t, lookup node ts = .ok (some t) → early t.tsNs)
    {w after : Walk} {frontier : List (NodeId × UInt64)}
    (visited : visitEntry profile lookup revAdj trip w effectNode effectTs frontier = .ok after)
    (later : ∀ entry ∈ frontier, early entry.2) : ∀ entry ∈ after.frontier, early entry.2 := by
  unfold visitEntry at visited
  split at visited
  · obtain rfl := Except.ok.inj visited
    exact later
  · exact visitEdges_keep found visited later

theorem popped_keeps (found : ∀ node ts t, lookup node ts = .ok (some t) → early t.tsNs)
    {fuel : Nat} {w : Walk} (frontier : ∀ entry ∈ w.frontier, early entry.2) :
    ∀ entry ∈ popped profile lookup revAdj trip fuel w, early entry.2 := by
  induction fuel generalizing w with
  | zero => exact fun _ member => absurd member List.not_mem_nil
  | succ fuel ih =>
      rcases w with ⟨candidates, visited, frontier_⟩
      cases frontier_ with
      | nil => exact fun _ member => absurd member List.not_mem_nil
      | cons top stack =>
          obtain ⟨now, later⟩ := List.forall_mem_cons.mp frontier
          refine List.forall_mem_cons.mpr ⟨now, ?_⟩
          split
          · rename_i after turn
            exact ih (visitEntry_keeps found turn later)
          · exact fun _ member => absurd member List.not_mem_nil

end

section
variable {profile : Profile} {manifest : DependencyManifest} {history : History} {CAP : Nat}
  {s s' : CausalGraphObserver CAP} {packet : Packet} {packets : List Packet}
  {analysis : TripAnalysis}

theorem historyOf_times {good : UInt64 → Prop}
    (all : ∀ packet ∈ packets, good packet.1) :
    ∀ t ∈ historyOf manifest.capture [] packets, good t.tsNs := by
  induction packets using List.reverseRecOn with
  | nil => exact fun _ recorded => absurd recorded List.not_mem_nil
  | append_singleton packets packet ih =>
      obtain ⟨before, now⟩ := List.forall_mem_append.mp all
      rw [historyOf_concat]
      rcases capture_cases manifest (historyOf manifest.capture [] packets) packet with
        same | ⟨t, -, time, pushed, -⟩
      · rw [same]
        exact ih before
      · rw [pushed]
        refine List.forall_mem_cons.mpr ⟨?_, ih before⟩
        rw [time]
        exact now packet (List.mem_singleton_self _)

theorem historyOf_early (early : ∀ packet ∈ packets, packet.1.toNat < 2 ^ 62) :
    ∀ t ∈ historyOf manifest.capture [] packets, t.tsNs.toNat < 2 ^ 62 :=
  @historyOf_times manifest packets (fun ts => ts.toNat < 2 ^ 62) early

theorem length_historyOf (packets : List Packet) :
    (historyOf manifest.capture [] packets).length = packets.countP (claimed manifest) := by
  induction packets using List.reverseRecOn with
  | nil => rfl
  | append_singleton packets packet ih =>
      rw [historyOf_concat, capture_eq, List.countP_append, List.countP_singleton, ← ih, claimed]
      cases reading manifest packet with
      | none => rfl
      | some found => rfl

theorem chain_earlier {trip : StateTransition} {window : History} {l : CausalLink}
    {nearer : List CausalLink} (chain : CausalChain manifest window trip (l :: nearer)) :
    l.trigger.tsNs.toNat < trip.tsNs.toNat := by
  obtain ⟨toTrip, contiguous, -, backward, -⟩ := chain
  induction nearer generalizing l with
  | nil =>
      have older := UInt64.lt_iff_toNat_lt.mp (backward l List.mem_cons_self)
      rwa [show l.effect = trip from Option.some.inj toTrip] at older
  | cons near nearer ih =>
      have older := UInt64.lt_iff_toNat_lt.mp (backward l List.mem_cons_self)
      obtain ⟨meets, contiguous'⟩ := List.isChain_cons_cons.mp contiguous
      rw [List.getLast?_cons_cons] at toTrip
      have rest := ih toTrip contiguous' fun k later => backward k (List.mem_cons_of_mem _ later)
      rw [meets] at older
      exact older.trans rest

theorem feed_trip (indexed : manifest.Indexed) (refines : Refines s manifest history)
    (fed : s.feed profile packet = .ok (s', some analysis)) :
    ∃ t, t.seq = UInt64.ofNat history.length ∧ t.tsNs = packet.1 ∧
      Refines s' manifest (t :: history) ∧
      analysis = attribution manifest ((t :: history).take CAP) t := by
  rcases feed_cases profile refines indexed packet with ⟨after, fed', refines'⟩ | ⟨_, -, failed⟩
  · obtain ⟨rfl, reported⟩ := Prod.mk.inj (Except.ok.inj (fed.symm.trans fed'))
    obtain ⟨trip, tripped, rfl⟩ := Option.map_eq_some_iff.mp reported.symm
    rcases capture_cases manifest history packet with same | ⟨t, seq, time, pushed, trips⟩
    · rw [same] at tripped
      cases tripped
    · obtain rfl := trips trip tripped
      rw [pushed] at refines' ⊢
      exact ⟨trip, seq, time, refines', rfl⟩
  · cases fed.symm.trans failed

theorem report_exact (indexed : manifest.Indexed) (positive : 0 < CAP)
    (refines : Refines s manifest history) (early : ∀ t ∈ history, t.tsNs.toNat < 2 ^ 62)
    (now : packet.1.toNat < 2 ^ 62) (fed : s.feed profile packet = .ok (s', some analysis)) :
    ReportExact profile s' packet analysis ∧
      ∀ c ∈ analysis.rankedCatalysts, c.trigger.tsNs.toNat < analysis.tripEvent.tsNs.toNat := by
  obtain ⟨trip, -, time, refines', rfl⟩ := feed_trip indexed refines fed
  have all : ∀ u ∈ (trip :: history).take CAP, u.tsNs.toNat < 2 ^ 62 := by
    intro u recent
    rcases List.mem_cons.mp (List.mem_of_mem_take recent) with rfl | before
    · rwa [time]
    · exact early u before
  have inside : trip ∈ (trip :: history).take CAP := by
    obtain ⟨n, rfl⟩ := Nat.exists_eq_succ_of_ne_zero positive.ne'
    exact List.mem_cons_self
  have found : ∀ node ts t, s'.ring.lastForNodeBefore node ts = .ok (some t) →
      t.tsNs.toNat < 2 ^ 62 := by
    intro node ts t looked
    rw [lastForNodeBefore_ok refines'.ring] at looked
    exact all t (lastBefore_some (Except.ok.inj looked)).1
  have sound := @attribution_sound manifest _ _ inside
  refine ⟨⟨time, ?_, fun c reported => (sound c reported).2.1⟩, fun c reported => ?_⟩
  · intro entry popped
    have start : ∀ entry ∈ [(trip.node, trip.tsNs)], entry.2.toNat < 2 ^ 62 := by
      intro entry member
      rw [List.mem_singleton.mp member]
      exact all trip inside
    have bound := @popped_keeps _ _ _ _ (fun ts => ts.toNat < 2 ^ 62) found _ ⟨[], [], _⟩ start
      entry popped
    have next : entry.2.toNat + (1 : UInt64).toNat < 2 ^ 64 := by
      rw [UInt64.toNat_one]
      omega
    refine ⟨bound, addU64_of_lt profile _ _ next, ?_⟩
    rw [UInt64.toNat_add, Nat.mod_eq_of_lt next, UInt64.toNat_one]
  · obtain ⟨⟨nearer, chain⟩, -⟩ := sound c reported
    exact chain_earlier chain

theorem feed_faults (indexed : manifest.Indexed) (refines : Refines s manifest history)
    (few : history.length + 1 < 2 ^ 64) {fault : Fault}
    (failed : s.feed profile packet = .error fault) : fault = .shiftOverflow := by
  unfold CausalGraphObserver.feed at failed
  rcases parseFrame_cases packet.1 packet.2 with ⟨proto, parsed⟩ | ⟨error, parsed⟩
  · rw [parsed] at failed
    simp only at failed
    rcases classify_cases profile manifest ⟨packet.1, proto, packet.2⟩ with
      classified | ⟨-, overflow⟩
    · obtain ⟨after, done, -⟩ := observe_ok refines indexed _ classified fun _ =>
        refines.counts profile few
      cases failed.symm.trans done
    · rw [← refines.manifest_eq] at overflow
      simp only [CausalGraphObserver.observe, overflow, bind, Except.bind] at failed
      exact (Except.error.inj failed).symm
  · rw [parsed] at failed
    cases failed

end

section
variable {profile : Profile} {manifest : DependencyManifest} {CAP : Nat} {packets : List Packet}

theorem replay_faults (indexed : manifest.Indexed) {s : CausalGraphObserver CAP}
    {history : History} (refines : Refines s manifest history)
    (few : history.length + packets.length < 2 ^ 64) {fault : Fault}
    (failed : s.replay profile packets = .error fault) : fault = .shiftOverflow := by
  induction packets generalizing s history with
  | nil => cases failed
  | cons packet packets ih =>
      rw [List.length_cons] at few
      rw [CausalGraphObserver.replay] at failed
      rcases feed_cases profile refines indexed packet with ⟨next, fed, refines'⟩ | ⟨_, -, fed⟩
      · have more := length_capture manifest history packet
        rw [fed] at failed
        cases rest : next.replay profile packets with
        | ok done =>
            simp only [bind, Except.bind, rest] at failed
            cases failed
        | error fault' =>
            simp only [bind, Except.bind, rest] at failed
            obtain rfl := Except.error.inj failed
            exact ih refines' (by omega) rest
      · rw [fed] at failed
        obtain rfl := Except.error.inj failed
        exact feed_faults indexed refines (by omega) fed

theorem engine_exact (positive : 0 < CAP) (indexed : manifest.Indexed)
    (early : ∀ packet ∈ packets, packet.1.toNat < 2 ^ 62) (few : packets.length < 2 ^ 64) :
    EngineExact CAP profile manifest packets := by
  have start := @refines_new CAP positive manifest
  constructor
  case faults =>
    intro fault failed
    exact replay_faults indexed start (by rwa [List.length_nil, Nat.zero_add]) failed
  case counted =>
    intro s results ran
    rcases replay_cases profile start indexed packets with ⟨after, ran', refines⟩ | ⟨_, -, failed⟩
    · obtain ⟨rfl, -⟩ := Prod.mk.inj (Except.ok.inj (ran.symm.trans ran'))
      have le := @List.countP_le_length _ (claimed manifest) packets
      rw [refines.seq, length_historyOf, UInt64.toNat_ofNat_of_lt' (le.trans_lt few)]
    · cases ran.symm.trans failed
  case reports =>
    rintro before packet after s results s' analysis rfl ran fed
    rcases replay_cases profile start indexed before with ⟨_, ran', refines⟩ | ⟨_, -, failed⟩
    · obtain ⟨rfl, -⟩ := Prod.mk.inj (Except.ok.inj (ran.symm.trans ran'))
      obtain ⟨earlier, later⟩ := List.forall_mem_append.mp early
      exact (report_exact indexed positive refines (historyOf_early earlier)
        (later packet List.mem_cons_self) fed).1
    · cases ran.symm.trans failed

end

end Proof
end CausalWorks
