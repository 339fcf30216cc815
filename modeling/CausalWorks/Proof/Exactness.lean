import CausalWorks.Proof.Counts
import CausalWorks.Proof.Reports
import CausalWorks.Proof.Timing

/-!
# The arithmetic of the pipeline is exact

From the record headers to the reports no sum, product or signed difference leaves 64 bits, in
either reader and in every run over what it yields.
-/

namespace CausalWorks
open Delivery (Response)

structure CountsExact (records frames parsed skipped trips attributed : Nat) : Prop where
  all : frames = records
  sorted : parsed + skipped = records
  tripping : trips ≤ parsed
  rooted : attributed ≤ trips

structure ManifestRunExact {JsonError : Type} (profile : Profile)
    (toJson : CausalTrace → Except JsonError String) (manifest : DependencyManifest)
    (packets : List Packet) : Prop where
  counters : ∀ before after st, packets = before ++ after →
    before.foldlM (ManifestRun.step profile toJson) (.new manifest) = .ok st →
    CountsExact before.length st.frames st.parsed st.dropped st.trips st.attributed
  traces : ∀ before packet after st s' analysis, packets = before ++ packet :: after →
    before.foldlM (ManifestRun.step profile toJson) (.new manifest) = .ok st →
    st.engine.feed profile packet = .ok (s', some analysis) →
    ReportExact profile s' packet analysis ∧ ∃ trace,
      ManifestRun.traceOf profile analysis = .ok trace ∧ TraceExact analysis trace

structure DemoRunExact {JsonError : Type} (profile : Profile)
    (toJson : CausalTrace → Except JsonError String) (order : IterationOrder)
    (packets : List Packet) : Prop where
  counters : ∀ before after st, packets = before ++ after →
    before.foldlM (DemoRun.step profile toJson) (.new order) = .ok st →
    CountsExact before.length st.frames st.parsed st.skippedUnparseable st.trips st.attributed
  traces : ∀ before packet after st s' analysis, packets = before ++ packet :: after →
    before.foldlM (DemoRun.step profile toJson) (.new order) = .ok st →
    st.engine.feed profile packet = .ok (s', some analysis) →
    ReportExact profile s' packet analysis ∧ ∃ trace,
      DemoRun.traceOf profile st.eventLog analysis = .ok trace ∧ TraceExact analysis trace ∧
      ∀ (i : Nat) (e : TraceEvent), trace.eventSequence[i]? = some e → e.seq.toNat = i

structure StagesExact (profile : Profile) (packets : List Packet) : Prop where
  preflight : ∃ scan, packets.foldlM PreflightScan.scanFrame {} =
    (.ok scan : Except (Stop Empty) PreflightScan) ∧ PreflightExact packets scan
  discovery : ∃ engine, packets.foldlM discoverFrame .new =
    (.ok engine : Except (Stop Empty) DiscoveryEngine) ∧ DiscoveryExact profile packets engine
  engine : ∀ CAP > 0, ∀ nodes edges tripNode,
    EngineExact CAP profile (.new nodes edges tripNode) packets
  manifestRun : ∀ (JsonError : Type) (toJson : CausalTrace → Except JsonError String) nodes edges
    tripNode, ManifestRunExact profile toJson (.new nodes edges tripNode) packets
  demoRun : ∀ (JsonError : Type) (toJson : CausalTrace → Except JsonError String) order,
    DemoRunExact profile toJson order packets

structure CaptureExact {σ ε : Type} (profile : Profile) (bytes : List UInt8)
    (view : Packet × σ → Packet × Nat × Nat)
    (run : List (Packet × σ) × Option (Except (Stop ε) σ)) : Prop where
  reads : ∃ fmt, magicOf (wordAt false bytes 0) = .classic fmt ∧
    ReadExactly fmt 0 (bytes.drop 24) (run.1.map view)
  noFault : ∀ fault, run.2 ≠ some (.error (.fault fault))
  stages : run.1.length < 2 ^ 64 → StagesExact profile (run.1.map Prod.fst)

def Cell.latestCapture : List UInt8 :=
  [0xd4, 0xc3, 0xb2, 0xa1] ++ List.replicate 20 0 ++
    List.replicate 8 0xff ++ [17, 0, 0, 0, 17, 0, 0, 0] ++ plcBytes true ++
    List.replicate 8 0xff ++ [17, 0, 0, 0, 17, 0, 0, 0] ++ plcBytes false

namespace Proof

theorem build_exact {analysis : TripAnalysis} {events : List TraceEvent} {a f : String}
    {budgetNs : UInt64}
    (offsets : ∀ e ∈ events,
      e.offsetFromTripNs.toInt = (e.tsNs.toNat : Int) - analysis.tripEvent.tsNs.toNat)
    (earlier : ∀ c ∈ analysis.rankedCatalysts,
      c.trigger.tsNs.toNat < analysis.tripEvent.tsNs.toNat) :
    TraceExact analysis (.build a analysis events f budgetNs) where
  tripTs := rfl
  offsets := offsets
  response := by
    intro c root
    have older := earlier c (List.mem_of_mem_head? root)
    show _ + ((analysis.rankedCatalysts.head?.map fun c =>
      saturatingSub analysis.tripEvent.tsNs c.trigger.tsNs).getD 0).toNat = _
    rw [root, Option.map_some, Option.getD_some, saturatingSub_toNat]
    exact Nat.add_sub_of_le older.le

section
variable {JsonError : Type} {profile : Profile} {toJson : CausalTrace → Except JsonError String}
  {manifest : DependencyManifest} {packets : List Packet}

theorem counts_exact {counts : RunCounts} {packets : List Packet} {CAP : Nat}
    {s : CausalGraphObserver CAP}
    (counted : counts = ⟨0, 0, 0, 0, 0, 0⟩ + countsOf packets (s.reports profile packets)) :
    CountsExact packets.length counts.frames counts.parsed counts.dropped counts.trips
      counts.attributed := by
  rw [counted, zero_add_counts]
  exact ⟨rfl, accepted_rejected packets, length_reports profile s packets, List.countP_le_length⟩

theorem manifestRun_refines (indexed : manifest.Indexed) {st run : ManifestRun} {history : History}
    (refines : Refines st.engine manifest history)
    (ran : packets.foldlM (ManifestRun.step profile toJson) st = .ok run) :
    Refines run.engine manifest (historyOf manifest.capture history packets) := by
  induction packets generalizing st history with
  | nil =>
      cases ran
      exact refines
  | cons packet packets ih =>
      rw [List.foldlM_cons] at ran
      obtain ⟨mid, stepped, rest⟩ := bind_ok ran
      rcases step_cases profile toJson st packet with ⟨fault, -, failed⟩ |
        ⟨next, result, fed, -, -, stepped'⟩
      · cases stepped.symm.trans failed
      · have same : mid.engine = next.engine := by
          rw [stepped] at stepped'
          cases result with
          | none =>
              obtain rfl := Except.ok.inj stepped'
              rfl
          | some analysis =>
              obtain ⟨trace, row, sink, -, -, -, rfl⟩ := persist_inv stepped'.symm
              rfl
        rcases feed_cases profile refines indexed packet with ⟨after, fed', refines'⟩ |
          ⟨_, -, failed⟩
        · obtain ⟨rfl, -⟩ := Prod.mk.inj (Except.ok.inj (fed.symm.trans fed'))
          rw [← same] at refines'
          exact ih refines' rest
        · cases fed.symm.trans failed

end

theorem manifestRun_exact {JsonError : Type} (profile : Profile)
    (toJson : CausalTrace → Except JsonError String) {manifest : DependencyManifest}
    (indexed : manifest.Indexed) {packets : List Packet}
    (early : ∀ packet ∈ packets, packet.1.toNat < 2 ^ 62) :
    ManifestRunExact profile toJson manifest packets := by
  constructor
  case counters =>
    rintro before after st - ran
    exact counts_exact (run_adds (step_adds profile toJson) ran)
  case traces =>
    rintro before packet after st s' analysis rfl ran fed
    have refines := manifestRun_refines indexed (refines_new (by decide) manifest) ran
    obtain ⟨recorded, later⟩ := List.forall_mem_append.mp early
    have now := later packet List.mem_cons_self
    obtain ⟨report, earlier⟩ := report_exact indexed (by decide) refines (historyOf_early recorded)
      now fed
    have small : analysis.tripEvent.tsNs.toNat < 2 ^ 63 := by
      rw [report.tripTs]
      omega
    obtain ⟨offset, exact_⟩ := subI64_of_small profile small small
    refine ⟨report, _, by simp only [ManifestRun.traceOf, tripEventToTrace, offset]; rfl,
      build_exact ?_ earlier⟩
    intro e member
    rw [List.mem_singleton.mp member]
    exact exact_

theorem demoRun_exact {JsonError : Type} (profile : Profile)
    (toJson : CausalTrace → Except JsonError String) (order : IterationOrder)
    {packets : List Packet} (early : ∀ packet ∈ packets, packet.1.toNat < 2 ^ 62)
    (few : packets.length < 2 ^ 64) : DemoRunExact profile toJson order packets := by
  constructor
  case counters =>
    rintro before after st - ran
    exact counts_exact (run_adds (demo_step_adds profile toJson) ran)
  case traces =>
    rintro before packet after st s' analysis rfl ran fed
    rw [List.length_append, List.length_cons] at few
    have indexed : (demoManifest order).Indexed := new_indexed _ _ _
    have start : Mirrored toJson order (.new order) [] [] [] :=
      ⟨refines_new (by decide) _, rfl, numbered_nil, rfl, .nil, WriteOnce.holds_empty⟩
    have fewer : ([] : History).length + before.length < 2 ^ 64 := by
      rw [List.length_nil]
      omega
    have looped := @loop_mirrors _ profile _ _ _ _ _ _ start before fewer
      (fun p member => early p (List.mem_append_left _ member))
      (reports_nodup indexed start.refines fewer fun _ _ same =>
        (formatTraceId_inj (congrArg OrderKey.traceId same)).2.2)
    rw [ran] at looped
    obtain ⟨rows, refines, log, numbered, -, -, -⟩ := looped
    have now := early packet (List.mem_append_right _ List.mem_cons_self)
    obtain ⟨report, earlier⟩ := report_exact indexed (by decide) refines numbered.early now fed
    obtain ⟨trip, seq, time, -, rfl⟩ := feed_trip indexed refines fed
    have numbered' := numbered.cons seq (by rwa [time])
    have short : (trip :: historyOf (demoManifest order).capture [] before).length < 2 ^ 64 := by
      have le := @List.countP_le_length _ (claimed (demoManifest order)) before
      rw [List.length_cons, length_historyOf]
      omega
    have mirrors := @window_mirrors _ _ (demoManifest order) numbered' short
    refine ⟨report, _, ?_, build_exact ?_ earlier, mirrors.numbered⟩
    · rw [log]
      exact traceOf_log profile numbered' rfl
    · intro e member
      obtain ⟨u, recorded, rfl⟩ := List.mem_map.mp member
      exact (eventOf_window (numbered'.early u (List.mem_reverse.mp recorded))
        (numbered'.early trip List.mem_cons_self)).offset

theorem stages_exact (profile : Profile) {packets : List Packet}
    (early : ∀ packet ∈ packets, packet.1.toNat < 2 ^ 62) (few : packets.length < 2 ^ 64) :
    StagesExact profile packets where
  preflight := ⟨_, scan_eq {} packets, preflight_exact packets⟩
  discovery := ⟨_, discover_eq .new packets, discovery_exact profile early few⟩
  engine _ positive _ _ _ := engine_exact positive (new_indexed _ _ _) early few
  manifestRun _ toJson _ _ _ := manifestRun_exact profile toJson (new_indexed _ _ _) early
  demoRun _ toJson order := demoRun_exact profile toJson order early few

theorem capture_exact {σ ε : Type} {profile : Profile} {bytes : List UInt8} {fmt : PcapFormat}
    {view : Packet × σ → Packet × Nat × Nat}
    {run : List (Packet × σ) × Option (Except (Stop ε) σ)}
    (magic : magicOf (wordAt false bytes 0) = .classic fmt)
    (same : ∀ frame, (view frame).1 = frame.1)
    (drained : ReadExactly fmt 0 (bytes.drop 24) (run.1.map view) ∧
      ∀ fault, run.2 ≠ some (.error (.fault fault))) :
    CaptureExact profile bytes view run where
  reads := ⟨fmt, magic, drained.1⟩
  noFault := drained.2
  stages few := by
    have early := readExactly_early drained.1
    rw [List.map_map, show Prod.fst ∘ view = Prod.fst from funext same] at early
    exact stages_exact profile early (by rwa [List.length_map])

theorem arithmetic_exact (profile : Profile) (bytes : List UInt8) (schedule : List Response)
    (fuel : Nat) :
    (∀ e, PcapReplaySource.fromBytes bytes = .ok e → CaptureExact profile bytes eagerView
        (drain (PcapReplaySource.nextFrame profile) fuel e) ∧
      ∀ frame ∈ (drain (PcapReplaySource.nextFrame profile) fuel e).1, frame.2.Bounded) ∧
    ∀ s, StreamingPcapSource.new ⟨bytes, schedule⟩ = .ok s → CaptureExact profile bytes streamView
      (drain (StreamingPcapSource.nextFrame profile) fuel s) := by
  constructor
  · intro e opened
    obtain ⟨fmt, magic, at_, fresh⟩ := eager_opened opened
    refine ⟨capture_exact magic (fun _ => rfl)
      (drain_exact (eager_advances profile) fuel at_ (Nat.le_refl 0)), ?_⟩
    refine drain_keeps eager_bounded fuel ⟨at_.inside, ?_⟩
    rw [fresh]
    decide
  · intro s opened
    obtain ⟨fmt, -, magic, at_⟩ := stream_opened opened
    exact capture_exact magic (fun _ => rfl)
      (drain_exact (stream_advances profile) fuel at_ (Nat.le_refl 0))

theorem arithmetic_exact_latest : ∃ e s, PcapReplaySource.fromBytes Cell.latestCapture = .ok e ∧
    StreamingPcapSource.new ⟨Cell.latestCapture, [.interrupted]⟩ = .ok s ∧
    CaptureExact .dev Cell.latestCapture streamView
      (drain (StreamingPcapSource.nextFrame .dev) 3 s) ∧
    CaptureExact .dev Cell.latestCapture eagerView
      (drain (PcapReplaySource.nextFrame .dev) 3 e) ∧
    StagesExact .dev [(4294971589967295000, Cell.plcBytes true),
      (4294971589967295000, Cell.plcBytes false)] := by
  have eager : PcapReplaySource.fromBytes Cell.latestCapture =
    .ok ⟨Cell.latestCapture, 24, ⟨false, false⟩, [], 0, 0, 0⟩ := rfl
  obtain ⟨s, stream⟩ : ∃ s, StreamingPcapSource.new ⟨Cell.latestCapture, [.interrupted]⟩ = .ok s :=
    ⟨_, rfl⟩
  have exact_ := arithmetic_exact .dev Cell.latestCapture [.interrupted] 3
  have read := (exact_.1 _ eager).1
  exact ⟨_, s, eager, stream, exact_.2 s stream, read, read.stages (by decide)⟩

end Proof
end CausalWorks
