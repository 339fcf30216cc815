import CausalWorks.Proof.Counts
import CausalWorks.Proof.Flips

/-!
# A capture that is still being written

A file that has grown since a tool looked at it holds the frames that it held before. What the tool
found then it finds again, and what it finds besides comes from the later frames.
-/

namespace CausalWorks
open Keyed (Table)

structure StreamProfile.Grown (before after : StreamProfile) : Prop where
  samples : before.interarrival.count ≤ after.interarrival.count
  min : after.interarrival.min ≤ before.interarrival.min
  max : before.interarrival.max ≤ after.interarrival.max
  bits : ∀ bit ∈ before.togglingBits, bit ∈ after.togglingBits

structure DiscoveryEngine.Grown (before after : DiscoveryEngine) : Prop where
  total : before.totalFrames ≤ after.totalFrames
  streams : Table.Grown StreamProfile.Grown before.streams after.streams
  types : Table.Grown (· ≤ ·) before.unclassified.byEthertype after.unclassified.byEthertype
  malformed : before.unclassified.malformed ≤ after.unclassified.malformed

structure PreflightStats.Grown (before after : PreflightStats) : Prop where
  total : before.total ≤ after.total
  classifiable : before.classifiable ≤ after.classifiable
  unclassified : before.unclassified ≤ after.unclassified
  malformed : before.malformed ≤ after.malformed
  vlanFrames : before.vlanFrames ≤ after.vlanFrames
  truncated : before.truncated ≤ after.truncated
  types : Table.Grown (· ≤ ·) before.ethertypes after.ethertypes
  minDelta : ∀ d ∈ before.minDeltaNs, ∃ d' ∈ after.minDeltaNs, d' ≤ d

def InMemorySink.Grown (before after : InMemorySink) : Prop :=
  ∀ startNs endNs rows', after.range startNs endNs = .ok rows' →
    ∃ rows, before.range startNs endNs = .ok rows ∧ rows.Sublist rows'

structure GrowsWith (profile : Profile) (file file' : CaptureFile) : Prop where
  discovery : ∃ disc src disc' src',
    discover profile file.bound file.content = .ok (disc, src) ∧
    discover profile file'.bound file'.content = .ok (disc', src') ∧ disc.Grown disc'
  preflight : ∃ verdict stats verdict' stats',
    computePreflight profile file.bound file.content = .ok (verdict, stats) ∧
    computePreflight profile file'.bound file'.content = .ok (verdict', stats') ∧
    stats.Grown stats'
  run : ∀ {JsonError : Type} order (toJson : CausalTrace → Except JsonError String) cfg state' src',
    runWithManifest profile order toJson file'.bound cfg file' = .ok (state', src') →
    ∃ state src more, runWithManifest profile order toJson file.bound cfg file = .ok (state, src) ∧
      state'.counts = state.counts + more ∧ state.sink.Grown state'.sink
  demo : ∀ {JsonError : Type} order (toJson : CausalTrace → Except JsonError String) state' rows',
    runDemo profile order toJson file'.bound file' = .ok (state', rows') →
    ∃ state rows more, runDemo profile order toJson file.bound file = .ok (state, rows) ∧
      state'.counts = state.counts + more ∧ rows.Sublist rows'

namespace Proof

/-! ## The frames of the file -/

section
variable {fmt : PcapFormat} {bytes : List UInt8} {packets more : List Packet}

theorem front_append {packet : Packet} {cut : Bool} {rest : List UInt8}
    (is : front fmt bytes = .record packet cut rest) (later : List UInt8) :
    front fmt (bytes ++ later) = .record packet cut (rest ++ later) := by
  obtain ⟨inside, moderate, value, flag, left⟩ := front_record_iff.mp is
  have word : ∀ off ≤ 12,
      wordAt fmt.swapped (bytes ++ later) off = wordAt fmt.swapped bytes off := by
    intro off small
    have cut := wordAt_take fmt.swapped (bytes ++ later) (by omega : off + 4 ≤ bytes.length)
    rwa [List.take_left, eq_comm] at cut
  have same : bodyLen fmt (bytes ++ later) = bodyLen fmt bytes := by
    rw [bodyLen, word 8 (by omega), bodyLen]
  rw [front_record_iff, same, word 0 (by omega), word 4 (by omega), word 8 (by omega),
    word 12 (by omega), List.length_append]
  refine ⟨by omega, moderate, ?_, flag, ?_⟩
  · rw [List.drop_append_of_le_length (by omega), List.take_append_of_le_length (by
      rw [List.length_drop]
      omega)]
    exact value
  · rw [List.drop_append_of_le_length (by omega), left]

theorem reads_prefix {frames frames' : List (Packet × Bool)} {ending ending' : Front}
    (reads : Reads fmt bytes frames ending) {later : List UInt8}
    (reads' : Reads fmt (bytes ++ later) frames' ending') : frames <+: frames' := by
  induction reads generalizing frames' with
  | stop => exact List.nil_prefix
  | next is _ ih =>
      have longer := front_append is later
      cases reads' with
      | stop last =>
          rw [longer] at last
          cases last
      | next is' rest' =>
          obtain ⟨rfl, rfl, rfl⟩ := Front.record.inj (longer.symm.trans is')
          exact (List.prefix_cons_inj _).mpr (ih rest')

structure FramesIn (file : CaptureFile) (frames : List (Packet × Bool)) : Prop where
  long : 24 ≤ file.content.items.length
  reads : ∃ fmt ending, magicOf (wordAt false file.content.items 0) = .classic fmt ∧
    Reads fmt (file.content.items.drop 24) frames ending

theorem FramesIn.opens (profile : Profile) {file : CaptureFile} {frames : List (Packet × Bool)}
    (holds : FramesIn file frames) : Opens profile file (frames.map Prod.fst) := by
  obtain ⟨⟨bytes, schedule⟩, fits⟩ := file
  obtain ⟨long, fmt, ending, magic, reads⟩ := holds
  exact opens_of_reads profile fits long magic reads

theorem FramesIn.preflight (profile : Profile) {file : CaptureFile}
    {frames : List (Packet × Bool)} (holds : FramesIn file frames) :
    ∃ src, src.truncatedRecords = frames.countP (·.2) ∧
      computePreflight profile file.bound file.content =
        let stats := ((frames.map Prod.fst).foldl PreflightScan.scanned {}).finish src
        .ok (stats.verdict, stats) := by
  obtain ⟨⟨bytes, schedule⟩, fits⟩ := file
  obtain ⟨long, fmt, ending, magic, reads⟩ := holds
  obtain ⟨s, opened, at_⟩ := stream_opens long magic schedule
  have size : 16 * frames.length ≤ (bytes.drop 24).length := reads_length reads
  rw [List.length_drop] at size
  have enough : frames.length < bytes.length + 1 := by omega
  obtain ⟨after, looped, finished⟩ := eachFrame_eq profile
    (PreflightScan.scanFrame : _ → _ → Except (Stop Empty) _) reads at_ _ enough {}
  rw [scan_eq] at looped
  refine ⟨after, finished.truncatedRecords.trans (Nat.zero_add _), ?_⟩
  rw [computePreflight, opened, CaptureFile.bound]
  simp only [looped]
  rfl

theorem frames_both {file file' : CaptureFile} {src : StreamingPcapSource}
    (opened : StreamingPcapSource.new file.content = .ok src)
    (longer : file.content.items <+: file'.content.items) :
    ∃ frames more, FramesIn file frames ∧ FramesIn file' (frames ++ more) := by
  obtain ⟨⟨bytes, schedule⟩, fits⟩ := file
  obtain ⟨⟨bytes', schedule'⟩, fits'⟩ := file'
  obtain ⟨later, rfl⟩ : ∃ later, bytes ++ later = bytes' := longer
  obtain ⟨fmt, long, magic, -⟩ := stream_opened opened
  have magic' : magicOf (wordAt false (bytes ++ later) 0) = .classic fmt := by
    have same := wordAt_take false (bytes ++ later) (by omega : 0 + 4 ≤ bytes.length)
    rw [List.take_left] at same
    rw [← same]
    exact magic
  have long' : 24 ≤ (bytes ++ later).length := by
    rw [List.length_append]
    omega
  obtain ⟨frames, ending, reads⟩ := reads_total fmt (bytes.drop 24)
  obtain ⟨frames', ending', reads'⟩ := reads_total fmt ((bytes ++ later).drop 24)
  have reads'' := reads'
  rw [List.drop_append_of_le_length long] at reads''
  obtain ⟨more, rfl⟩ := reads_prefix reads reads''
  exact ⟨frames, more, ⟨long, fmt, ending, magic, reads⟩, ⟨long', fmt, ending', magic', reads'⟩⟩

end

/-! ## The profile of a stream -/

theorem StreamProfile.Grown.refl (v : StreamProfile) : v.Grown v :=
  ⟨Nat.le_refl _, UInt64.le_refl _, UInt64.le_refl _, fun _ member => member⟩

theorem StreamProfile.Grown.trans {u v w : StreamProfile} (first : u.Grown v) (then_ : v.Grown w) :
    u.Grown w :=
  ⟨first.samples.trans then_.samples, UInt64.le_trans then_.min first.min,
    UInt64.le_trans first.max then_.max, fun bit member => then_.bits bit (first.bits bit member)⟩

theorem recordGap_grown (v : StreamProfile) (ts : UInt64) :
    v.interarrival.count ≤ (v.recordGap ts).interarrival.count ∧
      (v.recordGap ts).interarrival.min ≤ v.interarrival.min ∧
      v.interarrival.max ≤ (v.recordGap ts).interarrival.max := by
  unfold StreamProfile.recordGap
  cases v.lastTsNs with
  | none => exact ⟨Nat.le_refl _, UInt64.le_refl _, UInt64.le_refl _⟩
  | some prev =>
      refine ⟨Nat.le_succ _, ?_, ?_⟩
      · dsimp only [LogHistogram.record]
        split
        · rename_i less
          exact UInt64.le_of_lt less
        · exact UInt64.le_refl _
      · dsimp only [LogHistogram.record]
        split
        · rename_i less
          exact UInt64.le_of_lt less
        · exact UInt64.le_refl _

theorem comparePayload_bits (v : StreamProfile) (payload : Option (List UInt8)) {i b : Nat}
    (set_ : bitAt v.xorMask i b = true) : bitAt (v.comparePayload payload).xorMask i b = true := by
  cases payload with
  | none => exact set_
  | some p =>
      unfold StreamProfile.comparePayload
      dsimp only
      split
      · rename_i unset
        have blank : v.xorMask = [] := List.length_eq_zero_iff.mp (by
          rw [v.aligned, List.isEmpty_iff.mp unset, List.length_nil])
        rw [blank, bitAt] at set_
        exact absurd set_ (by simp [octet])
      · rw [bitAt_orDifferences v.aligned, set_, Bool.true_or]

theorem take_grown (v : StreamProfile) (f : DecodedFieldbusFrame) : v.Grown (v.take f) := by
  obtain ⟨samples, min, max⟩ := recordGap_grown v f.tapTsNs
  rw [← take_interarrival] at samples min max
  refine ⟨samples, min, max, ?_⟩
  rintro ⟨i, bit⟩ member
  have small := mem_togglingBits_small member
  have set_ := (mem_togglingBits small).mp member
  rw [mem_togglingBits small, StreamProfile.take, (observe_mask v f.tapTsNs f.watchedPayload).2]
  exact comparePayload_bits v _ set_

/-! ## The tools that scan -/

theorem DiscoveryEngine.Grown.refl (disc : DiscoveryEngine) : disc.Grown disc :=
  ⟨Nat.le_refl _, Table.Grown.refl StreamProfile.Grown.refl _, Table.Grown.refl Nat.le_refl _,
    Nat.le_refl _⟩

theorem DiscoveryEngine.Grown.trans {a b c : DiscoveryEngine} (first : a.Grown b)
    (then_ : b.Grown c) : a.Grown c :=
  ⟨first.total.trans then_.total, first.streams.trans then_.streams StreamProfile.Grown.trans,
    first.types.trans then_.types Nat.le_trans, first.malformed.trans then_.malformed⟩

theorem discovered_grown (disc : DiscoveryEngine) (packet : Packet) :
    disc.Grown (disc.discovered packet) := by
  unfold DiscoveryEngine.discovered
  split
  · rename_i f _
    refine ⟨Nat.le_succ _, ?_, Table.Grown.refl Nat.le_refl _, Nat.le_refl _⟩
    exact Keyed.Table.grown_upsert StreamProfile.Grown.refl (take_grown · f) _ _ _
  · unfold DiscoveryEngine.observeUnclassified
    split
    · refine ⟨Nat.le_succ _, Table.Grown.refl StreamProfile.Grown.refl _, ?_, Nat.le_refl _⟩
      exact Keyed.Table.grown_upsert Nat.le_refl Nat.le_succ _ _ _
    · exact ⟨Nat.le_succ _, Table.Grown.refl StreamProfile.Grown.refl _,
        Table.Grown.refl Nat.le_refl _, Nat.le_succ _⟩

theorem discovered_all_grown (disc : DiscoveryEngine) (packets : List Packet) :
    disc.Grown (packets.foldl DiscoveryEngine.discovered disc) :=
  List.foldlRecOn packets DiscoveryEngine.discovered (DiscoveryEngine.Grown.refl disc)
    fun mid grown packet _ => DiscoveryEngine.Grown.trans grown (discovered_grown mid packet)

structure ScanGrown (before after : PreflightScan) : Prop where
  total : before.stats.total ≤ after.stats.total
  classifiable : before.stats.classifiable ≤ after.stats.classifiable
  unclassified : before.stats.unclassified ≤ after.stats.unclassified
  malformed : before.stats.malformed ≤ after.stats.malformed
  vlanFrames : before.stats.vlanFrames ≤ after.stats.vlanFrames
  types : Table.Grown (· ≤ ·) before.stats.ethertypes after.stats.ethertypes
  minDelta : after.minDelta ≤ before.minDelta

theorem ScanGrown.refl (scan : PreflightScan) : ScanGrown scan scan :=
  ⟨Nat.le_refl _, Nat.le_refl _, Nat.le_refl _, Nat.le_refl _, Nat.le_refl _,
    Table.Grown.refl Nat.le_refl _, UInt64.le_refl _⟩

theorem ScanGrown.trans {a b c : PreflightScan} (first : ScanGrown a b) (then_ : ScanGrown b c) :
    ScanGrown a c :=
  ⟨first.total.trans then_.total, first.classifiable.trans then_.classifiable,
    first.unclassified.trans then_.unclassified, first.malformed.trans then_.malformed,
    first.vlanFrames.trans then_.vlanFrames, first.types.trans then_.types Nat.le_trans,
    UInt64.le_trans then_.minDelta first.minDelta⟩

theorem noteTime_minDelta (scan : PreflightScan) (ts : UInt64) :
    (scan.noteTime ts).minDelta ≤ scan.minDelta := by
  unfold PreflightScan.noteTime
  split
  · exact UInt64.le_refl _
  split
  · dsimp only
    split
    · rename_i less
      exact UInt64.le_of_lt less.2
    · exact UInt64.le_refl _
  · exact UInt64.le_refl _

theorem noteTag_grown (s : PreflightStats) (buf : List UInt8) :
    ∃ n, s.vlanFrames ≤ n ∧ PreflightScan.noteTag s buf = { s with vlanFrames := n } := by
  unfold PreflightScan.noteTag
  split
  · exact ⟨_, Nat.le_succ _, rfl⟩
  · exact ⟨_, Nat.le_refl _, rfl⟩

theorem scanned_grown (scan : PreflightScan) (packet : Packet) :
    ScanGrown scan (scan.scanned packet) := by
  have time := noteTime_minDelta scan packet.1
  obtain ⟨n, tagged, tag⟩ :=
    noteTag_grown { scan.stats with total := scan.stats.total + 1 } packet.2
  have types := @Keyed.Table.grown_upsert UInt16 Nat _ (· ≤ ·) Nat.le_refl (· + 1) Nat.le_succ
    scan.stats.ethertypes
  unfold PreflightScan.scanned PreflightScan.noteHeaders PreflightScan.noteType
  rw [tag]
  cases rawEthertype packet.2 with
  | some et =>
      cases parseFrame packet.1 packet.2 with
      | ok _ => exact ⟨Nat.le_succ _, Nat.le_succ _, Nat.le_refl _, Nat.le_refl _, tagged,
          types et 0, time⟩
      | error _ => exact ⟨Nat.le_succ _, Nat.le_refl _, Nat.le_succ _, Nat.le_refl _, tagged,
          types et 0, time⟩
  | none =>
      cases parseFrame packet.1 packet.2 with
      | ok _ => exact ⟨Nat.le_succ _, Nat.le_succ _, Nat.le_refl _, Nat.le_succ _, tagged,
          Table.Grown.refl Nat.le_refl _, time⟩
      | error _ => exact ⟨Nat.le_succ _, Nat.le_refl _, Nat.le_succ _, Nat.le_succ _, tagged,
          Table.Grown.refl Nat.le_refl _, time⟩

theorem scanned_all_grown (scan : PreflightScan) (packets : List Packet) :
    ScanGrown scan (packets.foldl PreflightScan.scanned scan) :=
  List.foldlRecOn packets PreflightScan.scanned (ScanGrown.refl scan)
    fun mid grown packet _ => grown.trans (scanned_grown mid packet)

theorem finish_grown {scan scan' : PreflightScan} (grown : ScanGrown scan scan')
    {src src' : StreamingPcapSource} (cut : src.truncatedRecords ≤ src'.truncatedRecords) :
    (scan.finish src).Grown (scan'.finish src') := by
  obtain ⟨total, classifiable, unclassified, malformed, vlanFrames, types, minDelta⟩ := grown
  refine ⟨total, classifiable, unclassified, malformed, vlanFrames, cut, types, ?_⟩
  intro d is
  dsimp only [PreflightScan.finish] at is ⊢
  split at is
  · cases is
  · rename_i found
    obtain rfl := Option.some.inj is
    have low : scan'.minDelta ≠ 0xffffffffffffffff := by
      intro top
      refine found (UInt64.le_antisymm ?_ (top ▸ minDelta))
      exact UInt64.le_iff_toNat_le.mpr (Nat.le_of_lt_succ scan.minDelta.toNat_lt)
    rw [if_neg low]
    exact ⟨_, rfl, minDelta⟩

/-! ## The tools that run -/

structure RunGrown (counts counts' : RunCounts) (sink sink' : InMemorySink) : Prop where
  counted : ∃ more, counts' = counts + more
  kept : ∀ rows, WriteOnce.Holds TraceRow.orderKey sink.rows rows →
    ∃ more, WriteOnce.Holds TraceRow.orderKey sink'.rows (rows ++ more)

theorem RunGrown.refl (counts : RunCounts) (sink : InMemorySink) :
    RunGrown counts counts sink sink :=
  ⟨⟨⟨0, 0, 0, 0, 0, 0⟩, rfl⟩, fun rows holds => ⟨[], rows.append_nil.symm ▸ holds⟩⟩

theorem RunGrown.trans {a b c : RunCounts} {s t u : InMemorySink} (first : RunGrown a b s t)
    (then_ : RunGrown b c t u) : RunGrown a c s u := by
  obtain ⟨⟨more, rfl⟩, kept⟩ := first
  obtain ⟨⟨more', rfl⟩, kept'⟩ := then_
  refine ⟨⟨more + more', add_assoc_counts a more more'⟩, fun rows holds => ?_⟩
  obtain ⟨added, holds'⟩ := kept rows holds
  obtain ⟨added', holds''⟩ := kept' _ holds'
  exact ⟨added ++ added', List.append_assoc rows added added' ▸ holds''⟩

section
variable {JsonError : Type} {profile : Profile} {toJson : CausalTrace → Except JsonError String}

theorem put_grown {sink sink' : InMemorySink} {row : TraceRow}
    (stored : sink.put row = ((.ok () : Except (StorageError JsonError) Unit), sink'))
    {rows : List TraceRow} (holds : WriteOnce.Holds TraceRow.orderKey sink.rows rows) :
    ∃ more, WriteOnce.Holds TraceRow.orderKey sink'.rows (rows ++ more) := by
  unfold InMemorySink.put at stored
  dsimp only at stored
  split at stored
  · cases stored
  · rename_i new
    obtain rfl := (Prod.mk.inj stored).2
    exact ⟨[row], holds.insert fun taken => new ((holds.contains_iff _).mpr taken)⟩

theorem put_step_grown {counts counts' more : RunCounts} {sink sink' : InMemorySink}
    (counted : counts' = counts + more)
    (filed : sink' = sink ∨ ∃ row,
      sink.put row = ((.ok () : Except (StorageError JsonError) Unit), sink')) :
    RunGrown counts counts' sink sink' := by
  refine ⟨⟨more, counted⟩, fun rows holds => ?_⟩
  rcases filed with rfl | ⟨row, put⟩
  · exact ⟨[], rows.append_nil.symm ▸ holds⟩
  · exact put_grown put holds

theorem step_grown {state run : ManifestRun} {packet : Packet}
    (done : state.step profile toJson packet = .ok run) :
    RunGrown state.counts run.counts state.sink run.sink := by
  obtain ⟨result, fed, counted⟩ := step_adds profile toJson state packet run done
  refine @put_step_grown JsonError _ _ _ _ _ counted ?_
  rcases step_cases profile toJson state packet with ⟨fault, fed', -⟩ |
    ⟨mid, result', -, sink, -, stepped⟩
  · cases fed.symm.trans fed'
  · rw [← sink]
    have done' := stepped.symm.trans done
    cases result' with
    | none =>
        obtain rfl := Except.ok.inj done'
        exact Or.inl rfl
    | some analysis =>
        obtain ⟨trace, row, sink, -, -, put, rfl⟩ := persist_inv done'
        exact Or.inr ⟨row, put⟩

theorem demo_step_grown {state run : DemoRun} {packet : Packet}
    (done : state.step profile toJson packet = .ok run) :
    RunGrown state.counts run.counts state.sink run.sink := by
  obtain ⟨result, fed, counted⟩ := demo_step_adds profile toJson state packet run done
  refine @put_step_grown JsonError _ _ _ _ _ counted ?_
  obtain ⟨mid, -, sink, -, -, stepped⟩ := demo_step toJson fed
  rw [← sink]
  obtain ⟨filed, done', is⟩ := bind_ok (stepped.symm.trans done)
  obtain rfl := Except.ok.inj is
  cases result with
  | none =>
      obtain rfl := Except.ok.inj done'
      exact Or.inl rfl
  | some analysis =>
      obtain ⟨trace, row, sink, -, -, put, rfl⟩ := demo_persist_inv done'
      exact Or.inr ⟨row, put⟩

end

theorem run_grown {σ ε : Type} {counts : σ → RunCounts} {sink : σ → InMemorySink}
    {step : σ → Packet → Except (Stop ε) σ}
    (one : ∀ state packet after, step state packet = .ok after →
      RunGrown (counts state) (counts after) (sink state) (sink after))
    {packets : List Packet} {state after : σ} (done : packets.foldlM step state = .ok after) :
    RunGrown (counts state) (counts after) (sink state) (sink after) := by
  induction packets generalizing state with
  | nil =>
      obtain rfl := Except.ok.inj done
      exact .refl _ _
  | cons packet packets ih =>
      rw [List.foldlM_cons] at done
      obtain ⟨mid, stepped, rest⟩ := bind_ok done
      exact (one state packet mid stepped).trans (ih rest)

theorem RunGrown.ranges {counts counts' : RunCounts} {sink sink' : InMemorySink}
    (grown : RunGrown counts counts' sink sink') {rows : List TraceRow}
    (holds : WriteOnce.Holds TraceRow.orderKey sink.rows rows) : sink.Grown sink' := by
  intro startNs endNs rows' found
  obtain ⟨more, holds'⟩ := grown.kept rows holds
  unfold InMemorySink.range at found ⊢
  dsimp only at found ⊢
  split at found
  · cases found
  · rename_i forward
    obtain rfl := Except.ok.inj found
    exact ⟨_, if_neg forward, holds.between_sublist holds' _ _⟩

theorem RunGrown.start {counts counts' : RunCounts} {sink : InMemorySink}
    (grown : RunGrown counts counts' .new sink) :
    ∃ rows, WriteOnce.Holds TraceRow.orderKey sink.rows rows := by
  obtain ⟨more, holds⟩ := grown.kept [] WriteOnce.holds_empty
  exact ⟨more, holds⟩

theorem growing_capture (profile : Profile) {file file' : CaptureFile} {src : StreamingPcapSource}
    (opened : StreamingPcapSource.new file.content = .ok src)
    (longer : file.content.items <+: file'.content.items) : GrowsWith profile file file' := by
  obtain ⟨frames, more, holds, holds'⟩ := frames_both opened longer
  have opens := holds.opens profile
  have opens' := holds'.opens profile
  rw [List.map_append] at opens'
  constructor
  case discovery =>
    obtain ⟨-, -, -, s, opened, loops⟩ := opens
    obtain ⟨-, -, -, s', opened', loops'⟩ := opens'
    obtain ⟨src, -, looped⟩ := loops (discoverFrame : _ → _ → Except (Stop StreamPcapError) _) .new
    obtain ⟨src', -, looped'⟩ :=
      loops' (discoverFrame : _ → _ → Except (Stop StreamPcapError) _) .new
    rw [discover_eq] at looped looped'
    rw [List.foldl_append] at looped'
    let disc := (frames.map Prod.fst).foldl DiscoveryEngine.discovered .new
    refine ⟨disc, src, (more.map Prod.fst).foldl DiscoveryEngine.discovered disc, src', ?_, ?_,
      discovered_all_grown disc _⟩
    · rw [discover, opened]
      exact looped
    · rw [discover, opened']
      exact looped'
  case preflight =>
    obtain ⟨src, cut, checked⟩ := holds.preflight profile
    obtain ⟨src', cut', checked'⟩ := holds'.preflight profile
    rw [List.map_append, List.foldl_append] at checked'
    rw [List.countP_append, ← cut] at cut'
    exact ⟨_, _, _, _, checked, checked', finish_grown (scanned_all_grown _ _) (by omega)⟩
  case run =>
    intro JsonError order toJson cfg state' src' done
    obtain ⟨-, -, -, s, opened, loops⟩ := opens
    obtain ⟨-, -, -, s', opened', loops'⟩ := opens'
    obtain ⟨manifest, built, done⟩ := bind_ok done
    obtain ⟨after, -, looped⟩ := loops (ManifestRun.step profile toJson) (.new manifest)
    obtain ⟨after', -, looped'⟩ := loops' (ManifestRun.step profile toJson) (.new manifest)
    rw [opened'] at done
    obtain ⟨final, folded, is⟩ := bind_ok (looped'.symm.trans done)
    obtain ⟨rfl, -⟩ := Prod.mk.inj (Except.ok.inj is)
    rw [List.foldlM_append] at folded
    obtain ⟨state, early, late⟩ := bind_ok folded
    have grown := @run_grown _ _ _ ManifestRun.sink _ (fun _ _ _ => step_grown) _ _ _ late
    obtain ⟨rows, holds⟩ := RunGrown.start
      (@run_grown _ _ _ ManifestRun.sink _ (fun _ _ _ => step_grown) _ _ _ early)
    obtain ⟨added, counted⟩ := grown.counted
    refine ⟨state, after, added, ?_, counted, grown.ranges holds⟩
    rw [runWithManifest, built, opened]
    refine looped.trans ?_
    rw [early]
    rfl
  case demo =>
    intro JsonError order toJson state' rows' done
    rw [demo_run_eq opens'] at done
    obtain ⟨final, folded, done⟩ := bind_ok done
    obtain ⟨all', scanned', done⟩ := bind_ok done
    obtain ⟨rfl, rfl⟩ := Prod.mk.inj (Except.ok.inj done)
    rw [List.foldlM_append] at folded
    obtain ⟨state, early, late⟩ := bind_ok folded
    have grown := @run_grown _ _ _ DemoRun.sink _ (fun _ _ _ => demo_step_grown) _ _ _ late
    obtain ⟨rows, holds⟩ := RunGrown.start
      (@run_grown _ _ _ DemoRun.sink _ (fun _ _ _ => demo_step_grown) _ _ _ early)
    obtain ⟨added, counted⟩ := grown.counted
    obtain ⟨all, scanned, inside⟩ := grown.ranges holds _ _ _ (orFault_ok scanned')
    refine ⟨state, all, added, ?_, counted, inside⟩
    rw [demo_run_eq opens, early]
    simp only [bind, Except.bind, scanned]
    rfl

theorem growing_capture_down : GrowsWith .release ⟨⟨Cell.downCapture.take 57, []⟩, by decide⟩
    Cell.downFile := by
  obtain ⟨src, opened⟩ : ∃ src,
      StreamingPcapSource.new ⟨Cell.downCapture.take 57, []⟩ = .ok src := ⟨_, rfl⟩
  exact growing_capture .release opened (List.take_prefix 57 Cell.downCapture)

end Proof
end CausalWorks
