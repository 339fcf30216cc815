import CausalWorks.Commands
import CausalWorks.Proof.Coverage
import CausalWorks.Proof.EventWindow

/-!
# The commands count alike

`run-manifest`, `run`, `preflight` and `discover` go through a capture in loops of their own, two of
them with the eager reader. Where they count the same thing, they come to the same number.
-/

namespace CausalWorks
open Delivery (Response)

structure RunCounts where
  frames : Nat
  parsed : Nat
  dropped : Nat
  trips : Nat
  attributed : Nat
  rows : Nat
  deriving DecidableEq, Repr

instance : Add RunCounts where
  add a b := ⟨a.frames + b.frames, a.parsed + b.parsed, a.dropped + b.dropped, a.trips + b.trips,
    a.attributed + b.attributed, a.rows + b.rows⟩

def ManifestRun.counts (self : ManifestRun) : RunCounts :=
  ⟨self.frames, self.parsed, self.dropped, self.trips, self.attributed, self.sink.len⟩

def DemoRun.counts (self : DemoRun) : RunCounts :=
  ⟨self.frames, self.parsed, self.skippedUnparseable, self.trips, self.attributed, self.sink.len⟩

def TripAnalysis.isAttributed (self : TripAnalysis) : Bool := self.rankedCatalysts.head?.isSome

def countsOf (packets : List Packet) (analyses : List TripAnalysis) : RunCounts :=
  { frames := packets.length
    parsed := (acceptedFrames packets).length
    dropped := (rejectedTypes packets).length
    trips := analyses.length
    attributed := analyses.countP (·.isAttributed)
    rows := analyses.length }

/-- Both readers take the file, and every loop over it is a loop over the same packets. -/
structure Opens (profile : Profile) (file : CaptureFile) (packets : List Packet) : Prop where
  few : packets.length < 2 ^ 64
  early : ∀ packet ∈ packets, packet.1.toNat < 2 ^ 62
  eager : ∃ e, PcapReplaySource.fromBytes file.content.items = .ok e ∧
    ∀ {τ ε : Type} (body : τ → Packet → Except (Stop ε) τ) state, ∃ after,
      eachEagerFrame profile body file.bound state e =
        (packets.foldlM body state >>= fun state => .ok (state, after))
  stream : ∃ s, StreamingPcapSource.new file.content = .ok s ∧
    ∀ {τ ε : Type} (body : τ → Packet → Except (Stop ε) τ) state, ∃ after,
      after.recordsRead = packets.length ∧
      eachFrame profile body file.bound state s =
        (packets.foldlM body state >>= fun state => .ok (state, after))

structure CountsAgree (profile : Profile) (file : CaptureFile) (counts : RunCounts) : Prop where
  preflight : ∃ verdict stats, computePreflight profile file.bound file.content =
      .ok (verdict, stats) ∧ stats.total = counts.frames ∧ stats.classifiable = counts.parsed ∧
    stats.unclassified = counts.dropped
  discovery : ∃ disc src, discover profile file.bound file.content = .ok (disc, src) ∧
    disc.totalFrames = counts.frames ∧ src.recordsRead = counts.frames ∧
    disc.classified = counts.parsed ∧ disc.unclassifiedTotal = counts.dropped
  covered : counts.parsed + counts.dropped = counts.frames
  trips : counts.rows = counts.trips ∧ counts.attributed ≤ counts.trips ∧
    counts.trips ≤ counts.parsed

def Cell.downFile : CaptureFile := ⟨⟨downCapture, []⟩, by decide⟩

def Cell.written (_ : CausalTrace) : Except Empty String := .ok downJson

namespace Proof

theorem opens_of_reads (profile : Profile) {bytes : List UInt8} {schedule : List Delivery.Response}
    (fits : bytes.length < 2 ^ 64) (long : 24 ≤ bytes.length) {fmt : PcapFormat}
    (magic : magicOf (wordAt false bytes 0) = .classic fmt) {frames : List (Packet × Bool)}
    {ending : Front} (reads : Reads fmt (bytes.drop 24) frames ending) :
    Opens profile ⟨⟨bytes, schedule⟩, fits⟩ (frames.map Prod.fst) := by
  have eager := fromBytes_eq bytes
  rw [if_neg (Nat.not_lt.mpr long)] at eager
  simp only [magic] at eager
  obtain ⟨s, built, at_⟩ := stream_opens long magic schedule
  obtain ⟨fmt', magic', eagerAt, -⟩ := eager_opened eager
  obtain rfl : fmt = fmt' := Magic.classic.inj (magic.symm.trans magic')
  have size := reads_length reads
  rw [List.length_drop] at size
  have enough : frames.length < bytes.length + 1 := by omega
  refine ⟨?_, reads_times reads, ⟨_, eager, ?_⟩, s, built, ?_⟩
  · rw [List.length_map]
    omega
  · exact fun body state => eachEagerFrame_eq profile body reads eagerAt _ enough state
  · intro τ ε body state
    obtain ⟨after, looped, finished⟩ := eachFrame_eq profile body reads at_ _ enough state
    refine ⟨after, ?_, looped⟩
    rw [finished.recordsRead, Nat.zero_add, List.length_map]

theorem opens_or_refused (profile : Profile) (file : CaptureFile) :
    (∃ error error', PcapReplaySource.fromBytes file.content.items = .error (.err error) ∧
      StreamingPcapSource.new file.content = .error (.err error')) ∨
    ∃ packets, Opens profile file packets := by
  obtain ⟨⟨bytes, schedule⟩, fits⟩ := file
  have eager := fromBytes_eq bytes
  rcases new_cases ⟨bytes, schedule⟩ with ⟨short, refused⟩ | ⟨long, new⟩
  · rw [if_pos short] at eager
    exact Or.inl ⟨_, _, eager, refused⟩
  rw [if_neg (Nat.not_lt.mpr long)] at eager
  cases magic : magicOf (wordAt false bytes 0) with
  | pcapng =>
      simp only [magic] at eager new
      exact Or.inl ⟨_, _, eager, new⟩
  | other word =>
      simp only [magic] at eager new
      exact Or.inl ⟨_, _, eager, new⟩
  | classic fmt =>
      obtain ⟨frames, ending, reads⟩ := reads_total fmt (bytes.drop 24)
      exact Or.inr ⟨_, opens_of_reads profile fits long magic reads⟩

theorem add_counts (a b : RunCounts) : a + b = ⟨a.frames + b.frames, a.parsed + b.parsed,
    a.dropped + b.dropped, a.trips + b.trips, a.attributed + b.attributed, a.rows + b.rows⟩ := rfl

theorem zero_add_counts (a : RunCounts) : ⟨0, 0, 0, 0, 0, 0⟩ + a = a := by
  simp only [add_counts, Nat.zero_add]

theorem add_assoc_counts (a b c : RunCounts) : a + b + c = a + (b + c) := by
  simp only [add_counts, Nat.add_assoc]

theorem countsOf_append (packets packets' : List Packet) (analyses analyses' : List TripAnalysis) :
    countsOf (packets ++ packets') (analyses ++ analyses') =
      countsOf packets analyses + countsOf packets' analyses' := by
  simp only [countsOf, add_counts, acceptedFrames, rejectedTypes, List.filterMap_append,
    List.length_append, List.countP_append]

section
variable {σ ε : Type} {profile : Profile} {counts : σ → RunCounts}
  {engine : σ → CausalGraphObserver 10000} {step : σ → Packet → Except (Stop ε) σ}

def CountsStep (profile : Profile) (counts : σ → RunCounts)
    (engine : σ → CausalGraphObserver 10000) (step : σ → Packet → Except (Stop ε) σ) : Prop :=
  ∀ state packet after, step state packet = .ok after → ∃ result,
    (engine state).feed profile packet = .ok (engine after, result) ∧
      counts after = counts state + countsOf [packet] result.toList

theorem run_adds (one : CountsStep profile counts engine step) {packets : List Packet}
    {state after : σ} (done : packets.foldlM step state = .ok after) :
    counts after = counts state + countsOf packets ((engine state).reports profile packets) := by
  induction packets generalizing state with
  | nil =>
      obtain rfl := Except.ok.inj done
      rfl
  | cons packet packets ih =>
      rw [List.foldlM_cons] at done
      obtain ⟨mid, stepped, rest⟩ := bind_ok done
      obtain ⟨result, fed, counted⟩ := one state packet mid stepped
      rw [ih rest, counted, add_assoc_counts, ← countsOf_append, CausalGraphObserver.reports, fed]
      rfl

end

section
variable {JsonError : Type} {profile : Profile} {toJson : CausalTrace → Except JsonError String}
  {analysis : TripAnalysis}

theorem parse_counts {packet : Packet} :
    (∃ proto, parseFrame packet.1 packet.2 = .ok ⟨packet.1, proto, packet.2⟩ ∧
      ∀ analyses, countsOf [packet] analyses = ⟨1, 1, 0, analyses.length,
        analyses.countP (·.isAttributed), analyses.length⟩) ∨
    ∃ error, parseFrame packet.1 packet.2 = .error (.err error) ∧
      ∀ analyses, countsOf [packet] analyses = ⟨1, 0, 1, analyses.length,
        analyses.countP (·.isAttributed), analyses.length⟩ := by
  rcases parseFrame_cases packet.1 packet.2 with ⟨proto, parsed⟩ | ⟨error, failed⟩
  · refine Or.inl ⟨proto, parsed, fun analyses => ?_⟩
    rw [countsOf, acceptedFrames_ok [] parsed, rejectedTypes_ok [] parsed]
    rfl
  · refine Or.inr ⟨error, failed, fun analyses => ?_⟩
    rw [countsOf, acceptedFrames_err [] failed, rejectedTypes_err [] failed]
    rfl

theorem len_put {sink sink' : InMemorySink} {row : TraceRow}
    (stored : sink.put row = ((.ok () : Except (StorageError JsonError) Unit), sink')) :
    sink'.len = sink.len + 1 := by
  unfold InMemorySink.put at stored
  simp only at stored
  split at stored
  · cases stored
  · rename_i new
    obtain rfl := (Prod.mk.inj stored).2
    show (sink.rows.insert row.orderKey row).size = sink.rows.size + 1
    rw [Std.TreeMap.size_insert]
    simp [new]

theorem root_isAttributed {trace : CausalTrace}
    (built : ManifestRun.traceOf profile analysis = .ok trace ∨
      ∃ log, DemoRun.traceOf profile log analysis = .ok trace) :
    trace.rootCatalyst.isSome = analysis.isAttributed := by
  rcases built with built | ⟨log, built⟩
  · unfold ManifestRun.traceOf at built
    obtain ⟨event, -, built⟩ := bind_ok built
    obtain rfl := Except.ok.inj built
    exact Option.isSome_map
  · unfold DemoRun.traceOf at built
    obtain ⟨events, -, built⟩ := bind_ok built
    obtain ⟨last, -, built⟩ := bind_ok built
    obtain rfl := Except.ok.inj built
    exact Option.isSome_map

theorem persist_adds {state run : ManifestRun}
    (done : state.persist profile toJson analysis = .ok run) : run.engine = state.engine ∧
      run.counts = state.counts + ⟨0, 0, 0, 1, analysis.isAttributed.toNat, 1⟩ := by
  obtain ⟨trace, row, sink, built, -, put, rfl⟩ := persist_inv done
  rw [← root_isAttributed (Or.inl built)]
  exact ⟨rfl, congrArg (RunCounts.mk _ _ _ _ _) (@len_put JsonError _ _ _ put)⟩

theorem demo_persist_adds {state run : DemoRun}
    (done : state.persist profile toJson analysis = .ok run) : run.engine = state.engine ∧
      run.counts = state.counts + ⟨0, 0, 0, 1, analysis.isAttributed.toNat, 1⟩ := by
  obtain ⟨trace, row, sink, built, -, put, rfl⟩ := demo_persist_inv done
  rw [← root_isAttributed (Or.inr ⟨_, built⟩)]
  exact ⟨rfl, congrArg (RunCounts.mk _ _ _ _ _) (@len_put JsonError _ _ _ put)⟩

theorem counts_trip (before : RunCounts) (analysis : TripAnalysis) :
    before + ⟨1, 1, 0, 0, 0, 0⟩ + ⟨0, 0, 0, 1, analysis.isAttributed.toNat, 1⟩ =
      before + ⟨1, 1, 0, [analysis].length, [analysis].countP (·.isAttributed),
        [analysis].length⟩ := by
  rw [add_assoc_counts, List.countP_singleton]
  cases analysis.isAttributed <;> rfl

/-- What both steps do with the parser's result, as far as it is counted. -/
theorem counted_feed {ε : Type} {packet : Packet} {parsed : Except ParseError DecodedFieldbusFrame}
    {engine after : CausalGraphObserver 10000} {before counts : RunCounts}
    (is : (tryParse packet.1 packet.2 : Except (Stop ε) _) = .ok parsed)
    (dropped : ∀ error, parsed = .error error →
      after = engine ∧ counts = before + ⟨1, 0, 1, 0, 0, 0⟩)
    (taken : ∀ frame, parsed = .ok frame → ∃ result : Option TripAnalysis,
      engine.observe profile frame = .ok (after, result) ∧ counts = before +
        ⟨1, 1, 0, result.toList.length, result.toList.countP (·.isAttributed),
          result.toList.length⟩) :
    ∃ result, engine.feed profile packet = .ok (after, result) ∧
      counts = before + countsOf [packet] result.toList := by
  unfold tryParse at is
  unfold CausalGraphObserver.feed
  rcases @parse_counts packet with ⟨proto, accepted, counted⟩ | ⟨error, failed, counted⟩
  · rw [accepted] at is ⊢
    obtain ⟨result, observed, rfl⟩ := taken _ (Except.ok.inj is).symm
    exact ⟨result, observed, by rw [counted]⟩
  · rw [failed] at is ⊢
    obtain ⟨rfl, rfl⟩ := dropped _ (Except.ok.inj is).symm
    exact ⟨none, rfl, congrArg (before + ·) (counted []).symm⟩

variable (profile toJson) in
theorem step_adds : CountsStep profile ManifestRun.counts ManifestRun.engine
    (ManifestRun.step profile toJson) := by
  intro state packet after done
  unfold ManifestRun.step at done
  obtain ⟨parsed, is, done⟩ := bind_ok done
  refine counted_feed is ?dropped ?taken
  case dropped =>
    rintro error rfl
    obtain rfl := Except.ok.inj done
    exact ⟨rfl, rfl⟩
  case taken =>
    rintro frame rfl
    obtain ⟨⟨engine, result⟩, observed, done⟩ := bind_ok done
    refine ⟨result, ?_⟩
    cases result with
    | none =>
        obtain rfl := Except.ok.inj done
        exact ⟨orFault_ok observed, rfl⟩
    | some analysis =>
        obtain ⟨same, tripped⟩ := persist_adds done
        exact ⟨same ▸ orFault_ok observed, tripped.trans (counts_trip state.counts analysis)⟩

variable (profile toJson) in
theorem demo_step_adds : CountsStep profile DemoRun.counts DemoRun.engine
    (DemoRun.step profile toJson) := by
  intro state packet after done
  unfold DemoRun.step at done
  obtain ⟨parsed, is, done⟩ := bind_ok done
  refine counted_feed is ?dropped ?taken
  case dropped =>
    rintro error rfl
    obtain rfl := Except.ok.inj done
    exact ⟨rfl, rfl⟩
  case taken =>
    rintro frame rfl
    obtain ⟨⟨engine, result⟩, observed, done⟩ := bind_ok done
    refine ⟨result, ?_⟩
    cases result with
    | none =>
        obtain rfl := Except.ok.inj done
        exact ⟨orFault_ok observed, rfl⟩
    | some analysis =>
        obtain ⟨mid, persisted, done⟩ := bind_ok done
        obtain rfl := Except.ok.inj done
        obtain ⟨same, tripped⟩ := demo_persist_adds persisted
        exact ⟨same ▸ orFault_ok observed, tripped.trans (counts_trip state.counts analysis)⟩

end

theorem length_reports (profile : Profile) {CAP : Nat} (s : CausalGraphObserver CAP)
    (packets : List Packet) :
    (s.reports profile packets).length ≤ (acceptedFrames packets).length := by
  induction packets generalizing s with
  | nil => exact Nat.le_refl _
  | cons packet packets ih =>
      rw [CausalGraphObserver.reports, CausalGraphObserver.feed]
      rcases parseFrame_cases packet.1 packet.2 with ⟨proto, parsed⟩ | ⟨error, failed⟩
      · rw [parsed, acceptedFrames_ok _ parsed, List.length_cons]
        dsimp only
        cases s.observe profile ⟨packet.1, proto, packet.2⟩ with
        | error fault => exact Nat.zero_le _
        | ok found =>
            obtain ⟨after, result⟩ := found
            have rest := ih after
            rw [List.length_append]
            cases result with
            | none => rw [Option.toList_none, List.length_nil]; omega
            | some analysis => rw [Option.toList_some, List.length_singleton]; omega
      · rw [failed, acceptedFrames_err _ failed]
        exact ih s

theorem counts_agree_of {profile : Profile} {file : CaptureFile} {packets : List Packet}
    (opens : Opens profile file packets) {analyses : List TripAnalysis}
    (few : analyses.length ≤ (acceptedFrames packets).length) :
    CountsAgree profile file (countsOf packets analyses) := by
  obtain ⟨-, -, -, s, opened, loops⟩ := opens
  obtain ⟨src, read, scanned⟩ :=
    loops (PreflightScan.scanFrame : _ → _ → Except (Stop Empty) _) {}
  obtain ⟨src', read', discovered⟩ :=
    loops (discoverFrame : _ → _ → Except (Stop StreamPcapError) _) .new
  rw [scan_eq] at scanned
  rw [discover_eq] at discovered
  obtain ⟨total, classifiable, unclassified, -, -⟩ := stats_eq packets
  simp only [Nat.zero_add] at total classifiable unclassified
  let scan := packets.foldl PreflightScan.scanned {}
  constructor
  case preflight =>
    refine ⟨(scan.finish src).verdict, scan.finish src, ?_, total, classifiable, unclassified⟩
    rw [computePreflight, opened]
    simp only [scanned]
    rfl
  case discovery =>
    refine ⟨packets.foldl DiscoveryEngine.discovered .new, src', ?_, ?_, read',
      classified_eq packets, unclassified_eq packets⟩
    · rw [discover, opened]
      exact discovered
    · rw [discovered_foldl]
      exact Nat.zero_add _
  case covered => exact accepted_rejected packets
  case trips => exact ⟨rfl, List.countP_le_length, few⟩

theorem build_demo (order : IterationOrder) : Cell.cfg.build order = .ok (demoManifest order) := by
  rcases build_cases order Cell.cfg with ⟨-, table, declared, -, built⟩ | ⟨malformed, -⟩
  · have nodes : Cell.cfg.nodes.foldlM ManifestCfg.declareNode ∅ = .ok Demo.nodes := by rfl
    obtain rfl := Except.ok.inj (nodes.symm.trans declared)
    exact built
  · exact absurd (wellFormed_of_build Cell.build_cfg) malformed

section
variable {profile : Profile} {order : IterationOrder} {JsonError : Type}
  {toJson : CausalTrace → Except JsonError String} {file : CaptureFile} {packets : List Packet}

theorem manifest_run_counts {cfg : ManifestCfg} {manifest : DependencyManifest}
    (accepted : cfg.build order = .ok manifest) (opens : Opens profile file packets)
    {state : ManifestRun} {src : StreamingPcapSource}
    (done : runWithManifest profile order toJson file.bound cfg file = .ok (state, src)) :
    state.counts = countsOf packets
      ((CausalGraphObserver.new manifest : CausalGraphObserver 10000).reports profile packets) := by
  obtain ⟨-, -, -, s, opened, loops⟩ := opens
  obtain ⟨after, -, looped⟩ := loops (ManifestRun.step profile toJson) (.new manifest)
  rw [runWithManifest, accepted, opened] at done
  obtain ⟨final, folded, is⟩ := bind_ok (looped.symm.trans done)
  obtain ⟨rfl, -⟩ := Prod.mk.inj (Except.ok.inj is)
  exact (run_adds (step_adds profile toJson) folded).trans (zero_add_counts _)

theorem demo_mirrors (opens : Opens profile file packets) :
    Serializing (fun run => ∃ rows, Mirrored toJson order run
        (historyOf (demoManifest order).capture [] packets)
        ((CausalGraphObserver.new (demoManifest order) :
          CausalGraphObserver 10000).reports profile packets) rows)
      (packets.foldlM (DemoRun.step profile toJson) (.new order)) := by
  have few : ([] : History).length + packets.length < 2 ^ 64 := by
    rw [List.length_nil, Nat.zero_add]
    exact opens.few
  have refines := refines_new (by decide : 0 < 10000) (demoManifest order)
  have distinct := @reports_nodup profile _ _ _ _ (new_indexed _ _ _) packets refines few _ demoKey
    fun _ _ same => (formatTraceId_inj (congrArg OrderKey.traceId same)).2.2
  have start : Mirrored toJson order (.new order) [] [] [] :=
    ⟨refines, rfl, numbered_nil, rfl, .nil, WriteOnce.holds_empty⟩
  exact loop_mirrors start few opens.early distinct

theorem demo_run_eq (opens : Opens profile file packets) :
    runDemo profile order toJson file.bound file = (do
      let state ← packets.foldlM (DemoRun.step profile toJson) (.new order)
      let all ← orFault (state.sink.range 0 0xffffffffffffffff)
      return (state, all)) := by
  obtain ⟨-, -, ⟨e, opened, loops⟩, -⟩ := opens
  obtain ⟨after, looped⟩ := loops (DemoRun.step profile toJson) (.new order)
  rw [runDemo, opened]
  show (eachEagerFrame profile (DemoRun.step profile toJson) file.bound (.new order) e >>= _) = _
  rw [looped]
  cases packets.foldlM (DemoRun.step profile toJson) (.new order) <;> rfl

theorem demo_run_counts (opens : Opens profile file packets) {state : DemoRun}
    {rows : List TraceRow}
    (done : runDemo profile order toJson file.bound file = .ok (state, rows)) :
    state.counts = countsOf packets ((CausalGraphObserver.new (demoManifest order) :
      CausalGraphObserver 10000).reports profile packets) ∧ rows.length = state.counts.rows := by
  rw [demo_run_eq opens] at done
  obtain ⟨final, folded, done⟩ := bind_ok done
  obtain ⟨all, scanned, done⟩ := bind_ok done
  obtain ⟨rfl, rfl⟩ := Prod.mk.inj (Except.ok.inj done)
  refine ⟨(run_adds (demo_step_adds profile toJson) folded).trans (zero_add_counts _), ?_⟩
  -- The scan of all times finds every row, since the trips of a capture come early.
  have mirrored := @demo_mirrors profile order JsonError toJson file packets opens
  rw [folded] at mirrored
  obtain ⟨kept, -, -, numbered, -, persisted, holds⟩ := mirrored
  obtain ⟨found, scanned', perm, -⟩ := range_all holds (demoRows_early numbered persisted)
  obtain rfl := Except.ok.inj (scanned'.symm.trans (orFault_ok scanned))
  exact perm.length_eq.trans holds.size.symm

end

theorem counts_agree (profile : Profile) (order : IterationOrder) {JsonError : Type}
    (toJson : CausalTrace → Except JsonError String) (file : CaptureFile) :
    (∀ cfg state src, runWithManifest profile order toJson file.bound cfg file = .ok (state, src) →
      CountsAgree profile file state.counts) ∧
    ∀ demo rows, runDemo profile order toJson file.bound file = .ok (demo, rows) →
      CountsAgree profile file demo.counts ∧ rows.length = demo.counts.rows ∧
      ∀ state src,
        runWithManifest profile order toJson file.bound Cell.cfg file = .ok (state, src) →
        state.counts = demo.counts := by
  rcases opens_or_refused profile file with ⟨error, error', eager, stream⟩ | ⟨packets, opens⟩
  · constructor
    · intro cfg state src done
      rw [runWithManifest, stream] at done
      obtain ⟨manifest, -, done⟩ := bind_ok done
      cases done
    · intro demo rows done
      rw [runDemo, eager] at done
      cases done
  constructor
  · intro cfg state src done
    obtain ⟨manifest, accepted⟩ : ∃ manifest, cfg.build order = .ok manifest := by
      rcases build_cases order cfg with ⟨-, table, -, -, built⟩ | ⟨-, error, rejected, -⟩
      · exact ⟨_, built⟩
      · rw [runWithManifest, rejected] at done
        cases done
    rw [manifest_run_counts accepted opens done]
    exact counts_agree_of opens (length_reports profile _ packets)
  · intro demo rows done
    obtain ⟨counted, scanned⟩ := demo_run_counts opens done
    refine ⟨counted ▸ counts_agree_of opens (length_reports profile _ packets), scanned, ?_⟩
    intro state src done'
    rw [manifest_run_counts (build_demo order) opens done', counted]

theorem counts_agree_down : ∃ state src demo rows,
    runWithManifest .release .declared Cell.written 91 Cell.cfg Cell.downFile = .ok (state, src) ∧
    runDemo .release .declared Cell.written 91 Cell.downFile = .ok (demo, rows) ∧
    CountsAgree .release Cell.downFile state.counts ∧ rows.length = demo.counts.rows ∧
    state.counts = demo.counts := by
  obtain ⟨state, src, ran⟩ : ∃ state src, runWithManifest .release .declared Cell.written 91
      Cell.cfg Cell.downFile = .ok (state, src) := ⟨_, _, rfl⟩
  obtain ⟨demo, rows, shown⟩ : ∃ demo rows, runDemo .release .declared Cell.written 91
      Cell.downFile = .ok (demo, rows) := ⟨_, _, rfl⟩
  obtain ⟨agree, demos⟩ := counts_agree .release .declared Cell.written Cell.downFile
  obtain ⟨-, scanned, same⟩ := demos demo rows shown
  exact ⟨state, src, demo, rows, ran, shown, agree _ _ _ ran, scanned, same state src ran⟩

end Proof
end CausalWorks
