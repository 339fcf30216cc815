import CausalWorks.Proof.EventWindow

/-!
# Evidence that refers to what it lacks

The run over a manifest stores the trip as the only event of its trace. A catalyst then refers to a
trigger that is not there, so the trace can be audited on its own exactly if nothing is late.
-/

namespace CausalWorks

def DependencyManifest.trips (self : DependencyManifest) :
    History → List Packet → List (StateTransition × History)
  | _, [] => []
  | history, packet :: packets =>
      let (after, trip) := self.capture history packet
      trip.toList.map (·, after.take 10000) ++ self.trips after packets

/-- Each link that the walk back from the trip comes to is within its budget. -/
def NothingLate (manifest : DependencyManifest) (trip : StateTransition) (window : History) :
    Prop :=
  ∀ effect ∈ examined manifest window trip, ∀ l ∈ linksInto manifest window effect,
    l.dt ≤ l.edge.wcetNs

/-- The trace has all that its catalysts refer to, and its events lead up to the trip. -/
structure CausalTrace.Auditable (trace : CausalTrace) (trip : StateTransition) : Prop where
  contained : trace.SelfContained
  oldestFirst : trace.eventSequence.Pairwise fun a b => a.seq < b.seq
  endsAtTrip : ∃ last, trace.eventSequence.getLast? = some last ∧ last.seq = trip.seq ∧
    last.node = trip.node ∧ last.tsNs = trip.tsNs ∧ last.interlock = trip.interlock

def AuditedWhen {JsonError : Type} (profile : Profile)
    (toJson : CausalTrace → Except JsonError String) (manifest : DependencyManifest)
    (trip : StateTransition × History) (row : TraceRow) : Prop :=
  ∃ trace, ManifestRun.traceOf profile (attribution manifest trip.2 trip.1) = .ok trace ∧
    TraceRow.fromTrace toJson trace = .ok row ∧
    (trace.Auditable trip.1 ↔ NothingLate manifest trip.1 trip.2)

structure RunAuditedWhen {JsonError : Type} (profile : Profile)
    (toJson : CausalTrace → Except JsonError String) (manifest : DependencyManifest)
    (packets : List Packet)
    (run : Except (Stop (RunError JsonError)) (ManifestRun × StreamingPcapSource)) : Prop where
  ends : match run with
    | .ok (state, _) => ∃ rows found, state.sink.range 0 0xffffffffffffffff = .ok found ∧
        found.Perm rows ∧
        List.Forall₂ (AuditedWhen profile toJson manifest) (manifest.trips [] packets) rows
    | .error (.err _) => False
    | .error (.fault fault) => Proof.DevOnly profile fault

namespace Late

def cfg : ManifestCfg :=
  { nodes := [⟨1, .profinet 0x0003 0⟩, ⟨2, .profinet 0x0002 0⟩], edges := [⟨1, 2, 1000000⟩]
    tripNode := 2 }

def manifest : DependencyManifest :=
  .new [⟨2, .profinetFrame 0x0002 0⟩, ⟨1, .profinetFrame 0x0003 0⟩].toAList [⟨1, 2, 1000000⟩] 2

def payload (frameId status : UInt8) : List UInt8 :=
  List.replicate 12 0 ++ [0x88, 0x92, 0x00, frameId, status]

def record (micros : List UInt8) (payload : List UInt8) : List UInt8 :=
  [0, 0, 0, 0] ++ micros ++ [0, 0, 17, 0, 0, 0, 17, 0, 0, 0] ++ payload

def capture : List UInt8 :=
  [0xd4, 0xc3, 0xb2, 0xa1] ++ List.replicate 20 0 ++ record [0x00, 0x00] (payload 0x03 0) ++
    record [0x01, 0x00] (payload 0x02 1) ++ record [0x28, 0x23] (payload 0x02 0)

def packets : List Packet :=
  [(0, payload 0x03 0), (1000, payload 0x02 1), (9000000, payload 0x02 0)]

def trip : StateTransition := ⟨2, 2, 9000000, some false⟩

def window : History := [trip, ⟨1, 2, 1000, some true⟩, ⟨0, 1, 0, some false⟩]

def json : String := String.intercalate "\n"
  ["\x7b", "  \"trace_id\": \"APPL-REPLAY:9000000:2\",", "  \"appliance_id\": \"APPL-REPLAY\",",
    "  \"trip_ts_ns\": 9000000,", "  \"root_catalyst\": \x7b", "    \"edge_from\": 1,",
    "    \"edge_to\": 2,", "    \"observed_dt_ns\": 9000000,", "    \"wcet_ns\": 1000000,",
    "    \"normalized_overrun\": 8.0,", "    \"trigger_seq\": 0,", "    \"effect_seq\": 2",
    "  \x7d,", "  \"ranked_catalysts\": [", "    \x7b", "      \"edge_from\": 1,",
    "      \"edge_to\": 2,", "      \"observed_dt_ns\": 9000000,", "      \"wcet_ns\": 1000000,",
    "      \"normalized_overrun\": 8.0,", "      \"trigger_seq\": 0,", "      \"effect_seq\": 2",
    "    \x7d", "  ],", "  \"event_sequence\": [", "    \x7b", "      \"seq\": 2,",
    "      \"node\": 2,", "      \"ts_ns\": 9000000,", "      \"offset_from_trip_ns\": 0,",
    "      \"interlock\": false", "    \x7d", "  ],", "  \"iso13849\": \x7b",
    "    \"safety_function_id\": \"SF-FROM-MANIFEST\",",
    "    \"configured_response_budget_ns\": 50000000,",
    "    \"observed_response_time_ns\": 9000000,", "    \"response_within_budget\": true,",
    "    \"finding\": \"AttributableNuisanceTrip\"", "  \x7d", "\x7d"]

theorem length_capture : capture.length = 123 := by rfl

def file : CaptureFile := ⟨⟨capture, []⟩, by decide +kernel⟩

theorem length_file : file.content.items.length < 200 := by decide +kernel

def toJson (_ : CausalTrace) : Except Empty String := .ok json

theorem build_cfg : cfg.build .declared = .ok manifest := by rfl

end Late

namespace Proof

section
variable {profile : Profile} {manifest : DependencyManifest} {window : History}
  {trip : StateTransition}

theorem unattributed_iff : (attribution manifest window trip).rankedCatalysts = [] ↔
    NothingLate manifest trip window := by
  constructor
  · intro none effect visited l link
    by_contra notWithin
    have late : l.violated = true := decide_eq_true (UInt64.not_le.mp notWithin)
    have reported : l ∈ violations manifest window trip :=
      List.mem_filter.mpr ⟨List.mem_flatMap.mpr ⟨effect, visited, link⟩, late⟩
    have listed := mem_rankedCatalysts.mpr ⟨l, reported, rfl⟩
    rw [none] at listed
    exact List.not_mem_nil listed
  · intro onTime
    refine List.eq_nil_iff_forall_not_mem.mpr fun c listed => ?_
    obtain ⟨l, reported, -⟩ := mem_rankedCatalysts.mp listed
    obtain ⟨effect, visited, link, late⟩ := mem_violations reported
    exact UInt64.not_le.mpr late (onTime effect visited l link)

theorem traceOf_inv {analysis : TripAnalysis} {trace : CausalTrace}
    (built : ManifestRun.traceOf profile analysis = .ok trace) : ∃ event,
      trace = .build "APPL-REPLAY" analysis [event] "SF-FROM-MANIFEST" 50000000 ∧
      event.seq = analysis.tripEvent.seq ∧ event.node = analysis.tripEvent.node ∧
      event.tsNs = analysis.tripEvent.tsNs ∧ event.interlock = analysis.tripEvent.interlock := by
  unfold ManifestRun.traceOf tripEventToTrace at built
  cases offset : profile.subI64 analysis.tripEvent.tsNs.toInt64
      analysis.tripEvent.tsNs.toInt64 with
  | error fault => simp [offset, bind, Except.bind] at built
  | ok ns =>
      simp only [offset, bind, Except.bind, pure, Except.pure, Except.ok.injEq] at built
      subst built
      exact ⟨_, rfl, rfl, rfl, rfl, rfl⟩

theorem selfContained_iff {trace : CausalTrace}
    (built : ManifestRun.traceOf profile (attribution manifest window trip) = .ok trace) :
    trace.SelfContained ↔ NothingLate manifest trip window := by
  obtain ⟨event, rfl, -⟩ := traceOf_inv built
  rw [← unattributed_iff]
  constructor
  · intro contained
    refine List.eq_nil_iff_forall_not_mem.mpr fun c listed => ?_
    obtain ⟨trigger, hasTrigger, effect, hasEffect, -, -, -, -, span⟩ :=
      contained _ (List.mem_map_of_mem listed)
    rw [List.mem_singleton.mp hasTrigger, List.mem_singleton.mp hasEffect] at span
    obtain ⟨l, reported, rfl⟩ := mem_rankedCatalysts.mp listed
    obtain ⟨-, -, -, late⟩ := mem_violations reported
    have positive : l.edge.wcetNs.toNat < l.dt.toNat := UInt64.lt_iff_toNat_lt.mp late
    have noTime : event.tsNs.toNat + l.dt.toNat = event.tsNs.toNat := span
    omega
  · intro unattributed c listed
    obtain ⟨candidate, reported, rfl⟩ := List.mem_map.mp listed
    rw [unattributed] at reported
    exact absurd reported List.not_mem_nil

theorem auditable_iff {trace : CausalTrace}
    (built : ManifestRun.traceOf profile (attribution manifest window trip) = .ok trace) :
    trace.Auditable trip ↔ NothingLate manifest trip window := by
  rw [← selfContained_iff built]
  obtain ⟨event, rfl, seq, node, tsNs, interlock⟩ := traceOf_inv built
  constructor
  · exact fun audited => audited.contained
  · exact fun contained =>
      ⟨contained, List.pairwise_singleton _ _, event, rfl, seq, node, tsNs, interlock⟩

end

section
variable {JsonError : Type} {profile : Profile} {toJson : CausalTrace → Except JsonError String}
  {manifest : DependencyManifest}

theorem reports_eq (indexed : manifest.Indexed) {packets : List Packet} {st run : ManifestRun}
    {history : History} (refines : Refines st.engine manifest history)
    (done : packets.foldlM (ManifestRun.step profile toJson) st = .ok run) :
    st.engine.reports profile packets =
      (manifest.trips history packets).map fun trip => attribution manifest trip.2 trip.1 := by
  induction packets generalizing st history with
  | nil => rfl
  | cons packet packets ih =>
      rw [List.foldlM_cons] at done
      rw [CausalGraphObserver.reports, DependencyManifest.trips]
      rcases feed_cases profile refines indexed packet with ⟨after, fed, refines'⟩ |
        ⟨fault, -, fed⟩
      · rcases step_cases profile toJson st packet with ⟨fault, fed', -⟩ |
          ⟨st', result, fed', -, -, stepped⟩
        · cases fed.symm.trans fed'
        · obtain ⟨rfl, rfl⟩ := Prod.mk.inj (Except.ok.inj (fed.symm.trans fed'))
          rw [stepped] at done
          simp only [fed, List.map_append, List.map_map]
          cases tripped : (manifest.capture history packet).2 with
          | none =>
              rw [tripped] at done
              exact ih refines' done
          | some trip =>
              rw [tripped] at done
              obtain ⟨next, persisted, rest⟩ := bind_ok done
              obtain ⟨trace, row, sink, -, -, -, is⟩ := persist_inv persisted
              have engine : next.engine = st'.engine := by rw [is]
              rw [← engine] at refines' ⊢
              rw [ih refines' rest]
              rfl
      · rcases step_cases profile toJson st packet with ⟨fault', -, stepped⟩ |
          ⟨st', result, fed', -⟩
        · rw [stepped] at done
          cases done
        · cases fed.symm.trans fed'

end

section
variable {order : IterationOrder} {cfg : ManifestCfg} {manifest : DependencyManifest}
  {JsonError : Type} {toJson : CausalTrace → Except JsonError String} {file : CaptureFile}
  {src : StreamingPcapSource} {fuel : Nat}

theorem run_files (accepted : cfg.build order = .ok manifest) (profile : Profile)
    (serializes : ∀ trace, ∃ text, toJson trace = .ok text)
    (opened : StreamingPcapSource.new file.content = .ok src)
    (enough : file.content.items.length < fuel) {packets : List Packet}
    (drained : (drain (StreamingPcapSource.nextFrame profile) fuel src).1.map Prod.fst = packets) :
    (∃ state after rows found,
      runWithManifest profile order toJson fuel cfg file = .ok (state, after) ∧
      state.sink.range 0 0xffffffffffffffff = .ok found ∧ found.Perm rows ∧
      List.Forall₂ (fun trip => Persisted profile toJson (attribution manifest trip.2 trip.1))
        (manifest.trips [] packets) rows) ∨
    ∃ fault, DevOnly profile fault ∧
      runWithManifest profile order toJson fuel cfg file = .error (.fault fault) := by
  obtain ⟨after, packets', drained', run, -, kept⟩ :=
    run_keeps accepted profile serializes file opened enough
  obtain rfl := drained'.symm.trans drained
  rw [run] at kept ⊢
  cases looped : packets'.foldlM (ManifestRun.step profile toJson) (.new manifest) with
  | error stop =>
      rw [looped] at kept
      cases stop with
      | err error => exact kept.elim
      | fault fault => exact Or.inr ⟨fault, kept, rfl⟩
  | ok state =>
      rw [looped] at kept
      obtain ⟨-, rows, persisted, -, found, scanned, perm, -⟩ := kept
      have reported : (CausalGraphObserver.new manifest).reports profile packets' =
          (manifest.trips [] packets').map fun trip => attribution manifest trip.2 trip.1 :=
        @reports_eq _ _ toJson _ (indexed_of_build accepted) _ (.new manifest) _ _
          (refines_new (by decide) manifest) looped
      rw [reported, List.forall₂_map_left_iff] at persisted
      exact Or.inl ⟨state, after, rows, found, rfl, scanned, perm, persisted⟩

theorem auditable_exactly_when (accepted : cfg.build order = .ok manifest) (profile : Profile)
    (serializes : ∀ trace, ∃ text, toJson trace = .ok text)
    (opened : StreamingPcapSource.new file.content = .ok src)
    (enough : file.content.items.length < fuel) :
    RunAuditedWhen profile toJson manifest
      ((drain (StreamingPcapSource.nextFrame profile) fuel src).1.map Prod.fst)
      (runWithManifest profile order toJson fuel cfg file) := by
  constructor
  rcases run_files accepted profile serializes opened enough rfl with
    ⟨state, after, rows, found, run, scanned, perm, persisted⟩ | ⟨fault, devOnly, run⟩
  · rw [run]
    refine ⟨rows, found, scanned, perm, persisted.imp fun trip row => ?_⟩
    rintro ⟨trace, built, stored⟩
    exact ⟨trace, built, stored, auditable_iff built⟩
  · rw [run]
    exact devOnly

end

theorem late_trips : Late.manifest.trips [] Late.packets = [(Late.trip, Late.window)] := by
  decide +kernel

theorem late_catalysts : ((attribution Late.manifest Late.window Late.trip).rankedCatalysts.map
    TraceCatalyst.ofCandidate).map TraceCatalyst.triggerSeq = [0] := by
  decide +kernel

theorem late_reads : Reads ⟨false, false⟩ (Late.capture.drop 24)
    (Late.packets.map (·, false)) .finished :=
  .next rfl (.next rfl (.next rfl (.stop rfl)))

theorem late_run : ∃ src,
    StreamingPcapSource.new Late.file.content = .ok src ∧
    (drain (StreamingPcapSource.nextFrame .release) 200 src).1.map Prod.fst = Late.packets := by
  have long : 24 ≤ Late.capture.length := by
    rw [Late.length_capture]
    decide
  have magic : magicOf (wordAt false Late.capture 0) = .classic ⟨false, false⟩ := rfl
  obtain ⟨src, opened, at_⟩ := stream_opens long magic []
  have drained := (stream_drain .release late_reads at_ 200 (by decide)).1
  have same : Prod.fst ∘ (fun packet : Packet => (packet, false)) = id := rfl
  rw [List.map_map, same, List.map_id] at drained
  exact ⟨src, opened, drained⟩

theorem auditable_exactly_when_late : ∃ src,
    StreamingPcapSource.new Late.file.content = .ok src ∧
    RunAuditedWhen .release Late.toJson Late.manifest
      ((drain (StreamingPcapSource.nextFrame .release) 200 src).1.map Prod.fst)
      (runWithManifest .release .declared Late.toJson 200 Late.cfg Late.file) := by
  obtain ⟨src, opened, -⟩ := late_run
  have serializes : ∀ trace, ∃ text, Late.toJson trace = .ok text := fun _ => ⟨Late.json, rfl⟩
  exact ⟨src, opened, auditable_exactly_when Late.build_cfg .release serializes opened
    Late.length_file⟩

theorem trigger_missing : Late.cfg.build .declared = .ok Late.manifest ∧ ∃ state after row,
    runWithManifest .release .declared Late.toJson 200 Late.cfg Late.file = .ok (state, after) ∧
    state.sink.range 0 0xffffffffffffffff = .ok [row] ∧ ∃ analysis trace,
      ManifestRun.traceOf .release analysis = .ok trace ∧
      TraceRow.fromTrace Late.toJson trace = .ok row ∧
      trace.rankedCatalysts.map TraceCatalyst.triggerSeq = [0] ∧
      trace.eventSequence.map TraceEvent.seq = [2] ∧ ¬ trace.SelfContained := by
  refine ⟨Late.build_cfg, ?_⟩
  obtain ⟨src, opened, drained⟩ := late_run
  have serializes : ∀ trace, ∃ text, Late.toJson trace = .ok text := fun _ => ⟨Late.json, rfl⟩
  rcases run_files Late.build_cfg .release serializes opened Late.length_file drained with
    ⟨state, after, rows, found, run, scanned, perm, persisted⟩ | ⟨fault, devOnly, -⟩
  · rw [late_trips] at persisted
    obtain ⟨row, _, ⟨trace, built, stored⟩, none, rfl⟩ := List.forall₂_cons_left_iff.mp persisted
    obtain rfl := List.forall₂_nil_left_iff.mp none
    obtain rfl := List.perm_singleton.mp perm
    have lacks := selfContained_iff built
    obtain ⟨event, rfl, seq, -⟩ := traceOf_inv built
    refine ⟨state, after, row, run, scanned, _, _, built, stored, ?_, ?_, ?_⟩
    · exact late_catalysts
    · exact congrArg (fun number => [number]) seq
    · rw [lacks]
      unfold NothingLate
      decide +kernel
  · cases devOnly.1

end Proof
end CausalWorks
