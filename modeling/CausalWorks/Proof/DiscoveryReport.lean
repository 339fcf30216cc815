import CausalWorks.Proof.Flips
import CausalWorks.Proof.Timing
import CausalWorks.Report

/-!
# The discovery report is exact

What the report says of a stream is true of its frames, every frame is in one of its sections, and
the order in which the process iterates its maps shows only where two EtherTypes tie.
-/

namespace CausalWorks
open Delivery (Response)

structure Extremes (values : List UInt64) (min max mean : UInt64) : Prop where
  min_mem : min ∈ values
  min_le : ∀ v ∈ values, min ≤ v
  max_mem : max ∈ values
  le_max : ∀ v ∈ values, v ≤ max
  mean_eq : mean.toNat = (values.map UInt64.toNat).sum / values.length

/-- A percentile is at most an eighth below the gap that has its rank. -/
def Estimated (values : List UInt64) (min : UInt64) (q : Float) (estimate : UInt64) : Prop :=
  min ≤ estimate ∧ ∃ x, smallest values (rankOf q values.length) = some x ∧ estimate ≤ x ∧
    (2 ≤ x.toNat → 8 * (x.toNat - estimate.toNat) < x.toNat)

def StatsExact (values : List UInt64) : StreamStats → Prop
  | .single => values = []
  | .insufficient samples min max mean => samples = values.length ∧ 0 < samples ∧ samples < 30 ∧
      Extremes values min max mean
  | .percentiles p50 p95 p99 p999 min max mean => 30 ≤ values.length ∧
      Extremes values min max mean ∧ Estimated values min 0.50 p50 ∧ Estimated values min 0.95 p95 ∧
      Estimated values min 0.99 p99 ∧ Estimated values min 0.999 p999

def BitsExact (key : StreamKey) (payloads : List (List UInt8)) :
    Option (Nat × List (Nat × UInt8)) → Prop
  | none => ∀ frameId, key ≠ .profinet frameId
  | some (n, shown) => (∃ frameId, key = .profinet frameId) ∧
      ∃ bits : List (Nat × UInt8), n = bits.length ∧ shown = bits.take 16 ∧
        bits.Pairwise BitBefore ∧ ∀ i (b : UInt8), (i, b) ∈ bits ↔
          b < 8 ∧ i < (reference payloads).length ∧ Flips payloads i b.toNat

structure LineExact (own : List DecodedFieldbusFrame) (line : StreamLine) : Prop where
  frames : line.frames = own.length
  stats : StatsExact (gaps (own.map (·.tapTsNs))) line.stats
  bits : BitsExact line.key (own.map fun f => ioPayload f.raw) line.bits

structure FramesReported (packets : List Packet) (report : DiscoveryReport) : Prop where
  counted : report.totalFrames = packets.length ∧ report.recordsRead = packets.length ∧
    report.classified = (acceptedFrames packets).length ∧
    report.unclassified = (rejectedTypes packets).length ∧
    report.malformed = (rejectedTypes packets).countP (·.isNone)
  percent : report.unclassifiedPercent = if packets = [] then 0.0 else
    100.0 * (UInt64.ofNat (rejectedTypes packets).length).toFloat /
      (UInt64.ofNat packets.length).toFloat
  covered : (report.streams.map (·.frames)).sum + (report.ethertypes.map (·.frames)).sum +
    report.malformed = packets.length
  ordered : (report.streams.map (·.key.rank)).Pairwise (· < ·)
  complete : ∀ key, key ∈ report.streams.map (·.key) ↔
    framesOf key (acceptedFrames packets) ≠ []
  lines : ∀ line ∈ report.streams, LineExact (framesOf line.key (acceptedFrames packets)) line
  frequent : (report.ethertypes.map (·.frames)).Pairwise (· ≥ ·)
  types : ∀ line, line ∈ report.ethertypes ↔ 0 < line.frames ∧
    line.frames = (rejectedTypes packets).count (some line.ethertype) ∧
    line.remark = ethertypeHint line.ethertype

structure DiscoveryReported (frames : List (Packet × Bool)) (ending : Front)
    (report : DiscoveryReport) : Prop extends FramesReported (frames.map Prod.fst) report where
  truncated : report.truncated = frames.countP (·.2)
  endedMidRecord : report.endedMidRecord = ending.isCut

structure AgreeButTies (report report' : DiscoveryReport) : Prop where
  rest : { report' with ethertypes := report.ethertypes } = report
  counts : report'.ethertypes.map (·.frames) = report.ethertypes.map (·.frames)
  types : report'.ethertypes.Perm report.ethertypes
  untied : (report.ethertypes.map (·.frames)).Nodup → report' = report

def yieldedFrames (profile : Profile) (fuel : Nat) (src : StreamingPcapSource) : List Packet :=
  (drain (StreamingPcapSource.nextFrame profile) fuel src).1.map Prod.fst

namespace Proof
open LogHistogram Keyed

/-! ## One stream -/

section
variable {h : LogHistogram 8} {values : List UInt64} (profile : Profile) (holds : h.Holds values)
  (small : ∀ v ∈ values, v.toNat < 2 ^ 62)
include holds

theorem extremes (small : ∀ v ∈ values, v.toNat < 2 ^ 62) (some_ : values ≠ []) :
    Extremes values h.getMin h.max h.mean := by
  have minimum := getMin_eq holds some_
  constructor
  case min_mem => exact minimum ▸ holds.min_mem.resolve_right fun none_ => some_ none_.1
  case min_le => exact minimum ▸ holds.min_le
  case max_mem => exact holds.max_mem.resolve_right fun none_ => some_ none_.1
  case le_max => exact holds.le_max
  case mean_eq => rw [mean_ok holds small, holds.sum, holds.count]

include small

theorem quantile_ok (some_ : values ≠ []) (q : Float) :
    ∃ e, h.quantile profile q = .ok e ∧ Estimated values h.getMin q e := by
  have first := rankOf_first q values.length
  have last := rankOf_last q (List.length_pos_iff.mpr some_)
  obtain ⟨x, at_⟩ := smallest_exists first last
  obtain ⟨e, estimated, e_eq⟩ := estimate_ok profile holds small first at_
  have member := smallest_mem at_
  obtain ⟨below, close⟩ := lowerEdge_index x
  have low : h.getMin.toNat ≤ x.toNat :=
    UInt64.le_iff_toNat_le.mp ((extremes holds small some_).min_le x member)
  refine ⟨e, (quantile_eq holds some_ profile q).trans estimated, ?_, x, at_, ?_, fun two => ?_⟩
  · rw [UInt64.le_iff_toNat_le]
    omega
  · rw [UInt64.le_iff_toNat_le]
    omega
  · have near := close two
    omega

theorem streamStats_ok : ∃ stats, streamStats profile h = .ok stats ∧ StatsExact values stats := by
  unfold streamStats
  by_cases none_ : values = []
  · subst none_
    exact ⟨.single, if_pos holds.count, rfl⟩
  have positive : 0 < h.count := holds.count ▸ List.length_pos_iff.mpr none_
  rw [if_neg positive.ne']
  by_cases few : h.count < 30
  · have withheld : (!h.percentilesMeaningful) = true := by
      rw [percentilesMeaningful, Bool.not_eq_true', decide_eq_false_iff_not]
      exact Nat.not_le.mpr few
    rw [if_pos withheld]
    exact ⟨_, rfl, holds.count, positive, few, extremes holds small none_⟩
  · have shown : ¬ (!h.percentilesMeaningful) = true := by
      rw [percentilesMeaningful, Bool.not_eq_true', decide_eq_false_iff_not, not_not]
      exact Nat.not_lt.mp few
    rw [if_neg shown]
    obtain ⟨p50, is50, near50⟩ := quantile_ok profile holds small none_ 0.50
    obtain ⟨p95, is95, near95⟩ := quantile_ok profile holds small none_ 0.95
    obtain ⟨p99, is99, near99⟩ := quantile_ok profile holds small none_ 0.99
    obtain ⟨p999, is999, near999⟩ := quantile_ok profile holds small none_ 0.999
    simp only [is50, is95, is99, is999, bind, Except.bind]
    exact ⟨_, rfl, holds.count ▸ Nat.not_lt.mp few, extremes holds small none_, near50, near95,
      near99, near999⟩

end

theorem foldl_take_seen {frameId : UInt16} {own : List DecodedFieldbusFrame}
    (profinet : ∀ f ∈ own, f.streamKey = .profinet frameId) (profile : StreamProfile) :
    own.foldl StreamProfile.take profile =
      (own.map fun f => (f.tapTsNs, ioPayload f.raw)).foldl
        (fun profile o => profile.observe o.1 (some o.2)) profile := by
  induction own generalizing profile with
  | nil => rfl
  | cons f own ih =>
      obtain ⟨here, rest⟩ := List.forall_mem_cons.mp profinet
      have watched : f.watchedPayload = some (ioPayload f.raw) := by
        obtain ⟨ts, proto, raw⟩ := f
        cases proto with
        | profinetIrt => rfl
        | ros2Udp | fanucUdp | s7commArrival => cases here
      rw [List.foldl_cons, List.map_cons, List.foldl_cons, ih rest, StreamProfile.take, watched]

theorem streamLine_ok (profile : Profile) {disc : DiscoveryEngine} {key : StreamKey}
    {own : List DecodedFieldbusFrame} (some_ : own ≠ [])
    (keyed : ∀ f ∈ own, f.streamKey = key) (early : ∀ f ∈ own, f.tapTsNs.toNat < 2 ^ 62)
    (held : disc.streams.value key = some (own.foldl StreamProfile.take (.new key))) :
    ∃ line, streamLine profile disc key = .ok line ∧ line.key = key ∧ LineExact own line := by
  obtain ⟨-, -, holds⟩ := foldl_take key own
  have count := (profile_exact key some_).count
  have small : ∀ gap ∈ gaps (own.map (·.tapTsNs)), gap.toNat < 2 ^ 62 :=
    gaps_early (List.forall_mem_map.mpr early)
  obtain ⟨stats, printed, exact_⟩ := streamStats_ok profile holds small
  unfold streamLine
  simp only [held, printed, bind, Except.bind]
  refine ⟨_, rfl, rfl, count, exact_, ?_⟩
  cases key with
  | profinet frameId =>
      refine ⟨⟨frameId, rfl⟩, _, rfl, rfl, togglingBits_increasing _, fun i b => ?_⟩
      have seen := @mem_seen (.profinet frameId)
        (own.map fun f => (f.tapTsNs, ioPayload f.raw)) i b
      rw [StreamProfile.seen, ← foldl_take_seen keyed, List.map_map] at seen
      exact seen
  | udpPort | s7comm =>
      intro frameId other
      cases other

/-! ## The report -/

section
variable {packets : List Packet}

theorem decoded_of_accepted {f : DecodedFieldbusFrame} (accepted : f ∈ acceptedFrames packets) :
    Decodes f.raw f.proto := by
  obtain ⟨packet, -, parsed, -⟩ := acceptedFrames_time accepted
  obtain ⟨-, raw, decodes⟩ := ((parses_exactly _ _).accepts f).mp parsed
  rwa [raw]

theorem mem_framesOf {key : StreamKey} {frames : List DecodedFieldbusFrame}
    {f : DecodedFieldbusFrame} : f ∈ framesOf key frames ↔ f ∈ frames ∧ f.proto.stream = key :=
  Table.mem_own _

theorem stream_value (packets : List Packet) (key : StreamKey) :
    (packets.foldl DiscoveryEngine.discovered .new).streams.value key =
      if framesOf key (acceptedFrames packets) = [] then none
      else some ((framesOf key (acceptedFrames packets)).foldl StreamProfile.take (.new key)) := by
  have value := Table.value_accumulated (·.streamKey) StreamProfile.new StreamProfile.take
    (acceptedFrames packets) key
  rw [own_eq (fun f => decoded_of_accepted) key] at value
  rw [discovered_foldl]
  exact value

theorem mem_streams {key : StreamKey} :
    key ∈ (packets.foldl DiscoveryEngine.discovered .new).streams.entries.map Prod.fst ↔
      framesOf key (acceptedFrames packets) ≠ [] := by
  rw [Table.mem_keys, stream_value]
  split
  · rename_i none_
    simp [none_]
  · rename_i some_
    simp [some_]

theorem rank_inj {a b : StreamKey} (same : a.rank = b.rank) : a = b := by
  have pairs := toLex_inj.mp (show toLex (ofLex a.rank) = toLex (ofLex b.rank) from same)
  cases a <;> cases b <;> simp [StreamKey.rank] at pairs <;>
    simp [← UInt16.toNat_inj, pairs]

theorem lines_ok (profile : Profile) (early : ∀ packet ∈ packets, packet.1.toNat < 2 ^ 62)
    {keys : List StreamKey} (some_ : ∀ key ∈ keys, framesOf key (acceptedFrames packets) ≠ []) :
    ∃ lines, keys.mapM (streamLine profile (packets.foldl DiscoveryEngine.discovered .new)) =
        .ok lines ∧ lines.map (·.key) = keys ∧
      ∀ line ∈ lines, LineExact (framesOf line.key (acceptedFrames packets)) line := by
  induction keys with
  | nil => exact ⟨[], rfl, rfl, nofun⟩
  | cons key keys ih =>
      obtain ⟨here, rest⟩ := List.forall_mem_cons.mp some_
      have keyed : ∀ f ∈ framesOf key (acceptedFrames packets), f.streamKey = key := by
        intro f member
        obtain ⟨accepted, own⟩ := mem_framesOf.mp member
        exact (streamKey_eq (decoded_of_accepted accepted)).trans own
      have soon : ∀ f ∈ framesOf key (acceptedFrames packets), f.tapTsNs.toNat < 2 ^ 62 := by
        intro f member
        obtain ⟨accepted, -⟩ := mem_framesOf.mp member
        obtain ⟨packet, present, -, time⟩ := acceptedFrames_time accepted
        exact time ▸ early packet present
      obtain ⟨line, printed, key_eq, exact_⟩ :=
        streamLine_ok profile here keyed soon ((stream_value packets key).trans (if_neg here))
      obtain ⟨lines, printed', keys_eq, exacts⟩ := ih rest
      refine ⟨line :: lines, ?_, ?_, List.forall_mem_cons.mpr ⟨key_eq ▸ exact_, exacts⟩⟩
      · rw [List.mapM_cons, printed, printed']
        rfl
      · rw [List.map_cons, key_eq, keys_eq]

def sortedKeys (order : ReportOrder) (packets : List Packet) : List StreamKey :=
  Sorting.sortOn StreamKey.rank (order.keys
    ((packets.foldl DiscoveryEngine.discovered .new).streams.entries.map Prod.fst))

theorem sortedKeys_perm (order : ReportOrder) : (sortedKeys order packets).Perm
    ((packets.foldl DiscoveryEngine.discovered .new).streams.entries.map Prod.fst) :=
  (Sorting.sortOn_perm _).trans (order.keys_perm _)

theorem ranks_nodup {keys : List StreamKey} (distinct : keys.Nodup) :
    (keys.map StreamKey.rank).Nodup := distinct.map fun _ _ => rank_inj

theorem sortedKeys_eq (order order' : ReportOrder) :
    sortedKeys order packets = sortedKeys order' packets := by
  have perm := order.keys_perm
    ((packets.foldl DiscoveryEngine.discovered .new).streams.entries.map Prod.fst)
  refine Sorting.sortOn_eq (perm.trans (order'.keys_perm _).symm) (ranks_nodup ?_)
  exact perm.nodup_iff.mpr (Table.distinct _)

theorem sortedKeys_ordered (order : ReportOrder) :
    ((sortedKeys order packets).map StreamKey.rank).Pairwise (· < ·) := by
  refine List.pairwise_map.mpr (Sorting.sortOn_strict (ranks_nodup ?_))
  exact (order.keys_perm _).nodup_iff.mpr (Table.distinct _)

theorem mem_sortedKeys (order : ReportOrder) {key : StreamKey} :
    key ∈ sortedKeys order packets ↔ framesOf key (acceptedFrames packets) ≠ [] :=
  (sortedKeys_perm order).mem_iff.trans mem_streams

theorem sum_lines (order : ReportOrder) :
    ((sortedKeys order packets).map fun key =>
      (framesOf key (acceptedFrames packets)).length).sum = (acceptedFrames packets).length := by
  rw [← classified_eq, DiscoveryEngine.classified, Table.total,
    ((sortedKeys_perm order).map _).sum_eq, List.map_map]
  refine congrArg List.sum (List.map_congr_left fun entry member => ?_)
  obtain ⟨key, stream⟩ := entry
  have held := Table.mem_entries.mp member
  rw [stream_value] at held
  split at held
  · cases held
  · rename_i some_
    obtain rfl := Option.some.inj held
    exact (profile_exact key some_).count.symm

/-! ## The EtherTypes -/

section
variable (order order' : ReportOrder) (table : Table UInt16 Nat)

theorem byCount_perm : (byCount order table).Perm table.entries :=
  (Sorting.sortOn_perm _).trans (order.types_perm _)

theorem orders_perm : (order.types table.entries).Perm (order'.types table.entries) :=
  (order.types_perm _).trans (order'.types_perm _).symm

theorem byCount_ordered : (byCount order table).Pairwise fun a b => b.2 ≤ a.2 :=
  @Sorting.sortOn_ordered _ _ _ (fun entry : UInt16 × Nat => OrderDual.toDual entry.2) _

theorem byCount_counts :
    (byCount order table).map Prod.snd = (byCount order' table).map Prod.snd :=
  @Sorting.keys_sortOn _ _ _ (fun entry : UInt16 × Nat => OrderDual.toDual entry.2) _ _
    (orders_perm order order' table)

theorem byCount_untied (untied : ((byCount order table).map Prod.snd).Nodup) :
    byCount order table = byCount order' table := by
  have distinct := ((Sorting.sortOn_perm _).map Prod.snd).nodup_iff.mp untied
  exact @Sorting.sortOn_eq _ _ _ (fun entry : UInt16 × Nat => OrderDual.toDual entry.2) _ _
    (orders_perm order order' table) distinct

end

theorem countP_reduceOption {α : Type} [DecidableEq α] (xs : List (Option α)) (a : α) :
    xs.reduceOption.countP (fun x => decide (x = a)) = xs.count (some a) := by
  induction xs with
  | nil => rfl
  | cons x xs ih =>
      cases x with
      | none => rw [List.reduceOption_cons_of_none, ih, List.count_cons_of_ne (by simp)]
      | some x =>
          rw [List.reduceOption_cons_of_some, List.countP_cons, ih, List.count_cons]
          simp

theorem unclassified_entries (packets : List Packet) :
    (packets.foldl DiscoveryEngine.discovered .new).unclassified =
      ⟨Table.tally (rejectedTypes packets).reduceOption,
        (rejectedTypes packets).countP (·.isNone)⟩ := by
  rw [discovered_foldl]
  exact congrArg _ (Nat.zero_add _)

def typeLines (order : ReportOrder) (packets : List Packet) : List TypeLine :=
  (byCount order (Table.tally (rejectedTypes packets).reduceOption)).map fun (et, n) =>
    { ethertype := et, frames := n, remark := ethertypeHint et }

theorem typeLines_eq (order : ReportOrder) (packets : List Packet) :
    (if 0 < (rejectedTypes packets).length then typeLines order packets else []) =
      typeLines order packets := by
  split
  · rfl
  · rename_i none_
    have empty : rejectedTypes packets = [] := List.length_eq_zero_iff.mp (by omega)
    have perm := byCount_perm order (Table.tally (rejectedTypes packets).reduceOption)
    rw [empty] at perm
    rw [typeLines, empty, List.perm_nil.mp perm]
    rfl

theorem mem_typeLines (order : ReportOrder) {line : TypeLine} : line ∈ typeLines order packets ↔
    0 < line.frames ∧ line.frames = (rejectedTypes packets).count (some line.ethertype) ∧
      line.remark = ethertypeHint line.ethertype := by
  obtain ⟨et, n, remark⟩ := line
  have entry : (et, n) ∈ byCount order (Table.tally (rejectedTypes packets).reduceOption) ↔
      0 < n ∧ n = (rejectedTypes packets).count (some et) := by
    rw [(byCount_perm _ _).mem_iff, Table.mem_entries, Table.tally_some, countP_reduceOption]
  rw [← and_assoc, ← entry, typeLines, List.mem_map]
  constructor
  · rintro ⟨⟨et', n'⟩, member, is⟩
    cases is
    exact ⟨member, rfl⟩
  · rintro ⟨member, is⟩
    exact ⟨(et, n), member, congrArg (TypeLine.mk et n) is.symm⟩

theorem frames_typeLines (order : ReportOrder) (packets : List Packet) :
    (typeLines order packets).map (·.frames) =
      (byCount order (Table.tally (rejectedTypes packets).reduceOption)).map Prod.snd := by
  rw [typeLines, List.map_map]
  rfl

theorem typeLines_frequent (order : ReportOrder) :
    ((typeLines order packets).map (·.frames)).Pairwise (· ≥ ·) := by
  rw [frames_typeLines, List.pairwise_map]
  exact byCount_ordered order _

theorem sum_typeLines (order : ReportOrder) : ((typeLines order packets).map (·.frames)).sum +
    (rejectedTypes packets).countP (·.isNone) = (rejectedTypes packets).length := by
  have total := Table.total_tally (rejectedTypes packets).reduceOption
  have typed := length_reduceOption (rejectedTypes packets)
  rw [frames_typeLines, ((byCount_perm order _).map _).sum_eq, ← typed, ← total]
  rfl

theorem typeLines_perm (order order' : ReportOrder) :
    (typeLines order packets).Perm (typeLines order' packets) :=
  ((byCount_perm order _).trans (byCount_perm order' _).symm).map _

theorem counts_typeLines (order order' : ReportOrder) :
    (typeLines order packets).map (·.frames) = (typeLines order' packets).map (·.frames) := by
  rw [frames_typeLines, frames_typeLines, byCount_counts order order']

theorem typeLines_untied (order order' : ReportOrder)
    (untied : ((typeLines order packets).map (·.frames)).Nodup) :
    typeLines order packets = typeLines order' packets := by
  rw [frames_typeLines] at untied
  rw [typeLines, typeLines, byCount_untied order order' _ untied]

end

/-! ## The whole report -/

theorem print_eq (profile : Profile) (order : ReportOrder) {packets : List Packet}
    (src : StreamingPcapSource) {lines : List StreamLine}
    (printed : (sortedKeys order packets).mapM
      (streamLine profile (packets.foldl DiscoveryEngine.discovered .new)) = .ok lines) :
    printDiscoveryReport profile order (packets.foldl DiscoveryEngine.discovered .new) src = .ok {
      totalFrames := packets.length
      recordsRead := src.recordsRead
      truncated := src.truncatedRecords
      endedMidRecord := src.endedMidRecord
      classified := (acceptedFrames packets).length
      unclassified := (rejectedTypes packets).length
      unclassifiedPercent := if 0 < packets.length then
          100.0 * (UInt64.ofNat (rejectedTypes packets).length).toFloat /
            (UInt64.ofNat packets.length).toFloat
        else 0.0
      ethertypes := typeLines order packets
      malformed := (rejectedTypes packets).countP (·.isNone)
      streams := lines } := by
  have total : (packets.foldl DiscoveryEngine.discovered .new).totalFrames = packets.length := by
    rw [discovered_foldl]
    exact Nat.zero_add _
  unfold sortedKeys at printed
  unfold printDiscoveryReport
  simp only [printed, bind, Except.bind, pure, Except.pure, total, classified_eq, unclassified_eq,
    unclassified_entries]
  rw [← typeLines_eq order packets]
  rfl

theorem framesReported {packets : List Packet} {order : ReportOrder} {report : DiscoveryReport}
    (counted : report.totalFrames = packets.length ∧ report.recordsRead = packets.length ∧
      report.classified = (acceptedFrames packets).length ∧
      report.unclassified = (rejectedTypes packets).length ∧
      report.malformed = (rejectedTypes packets).countP (·.isNone))
    (percent : report.unclassifiedPercent = if 0 < packets.length then
        100.0 * (UInt64.ofNat (rejectedTypes packets).length).toFloat /
          (UInt64.ofNat packets.length).toFloat
      else 0.0)
    (types : report.ethertypes = typeLines order packets)
    (keys : report.streams.map (·.key) = sortedKeys order packets)
    (lines : ∀ line ∈ report.streams,
      LineExact (framesOf line.key (acceptedFrames packets)) line) :
    FramesReported packets report := by
  have frames : report.streams.map (·.frames) =
      (sortedKeys order packets).map fun key => (framesOf key (acceptedFrames packets)).length := by
    rw [← keys, List.map_map]
    exact List.map_congr_left fun line member => (lines line member).frames
  constructor
  case counted => exact counted
  case percent =>
    rw [percent]
    by_cases none_ : packets = []
    · rw [if_pos none_, none_]
      rfl
    · rw [if_neg none_, if_pos (List.length_pos_iff.mpr none_)]
  case covered =>
    rw [frames, sum_lines, types, counted.2.2.2.2, Nat.add_assoc, sum_typeLines,
      accepted_rejected]
  case ordered =>
    have ordered := @sortedKeys_ordered packets order
    rwa [← keys, List.map_map] at ordered
  case complete =>
    intro key
    rw [keys]
    exact mem_sortedKeys order
  case lines => exact lines
  case frequent => exact types ▸ typeLines_frequent order
  case types => exact fun line => types ▸ mem_typeLines order

theorem report_ok (profile : Profile) {packets : List Packet} {src : StreamingPcapSource}
    (read : src.recordsRead = packets.length)
    (early : ∀ packet ∈ packets, packet.1.toNat < 2 ^ 62) (order : ReportOrder) :
    ∃ report, printDiscoveryReport profile order (packets.foldl DiscoveryEngine.discovered .new)
        src = .ok report ∧ FramesReported packets report ∧
      report.truncated = src.truncatedRecords ∧ report.endedMidRecord = src.endedMidRecord ∧
      ∀ order', ∃ report',
      printDiscoveryReport profile order' (packets.foldl DiscoveryEngine.discovered .new) src =
        .ok report' ∧ AgreeButTies report report' := by
  obtain ⟨lines, printed, keys, exacts⟩ :=
    lines_ok profile early fun key => (mem_sortedKeys order).mp
  refine ⟨_, print_eq profile order src printed, ?_, rfl, rfl, fun order' => ?_⟩
  · exact framesReported ⟨rfl, read, rfl, rfl, rfl⟩ rfl rfl keys exacts
  · rw [sortedKeys_eq order order'] at printed
    refine ⟨_, print_eq profile order' src printed, rfl, counts_typeLines order' order,
      typeLines_perm order' order, fun untied => ?_⟩
    rw [typeLines_untied order order' untied]

theorem discovery_report_exact (profile : Profile) {bytes : List UInt8} {schedule : List Response}
    {s : StreamingPcapSource} (accepted : StreamingPcapSource.new ⟨bytes, schedule⟩ = .ok s)
    {fuel : Nat} (enough : bytes.length < fuel) (order : ReportOrder) :
    ∃ fmt frames ending, magicOf (wordAt false bytes 0) = .classic fmt ∧
      Reads fmt (bytes.drop 24) frames ending ∧
      yieldedFrames profile fuel s = frames.map Prod.fst ∧
      ∃ report, discoverReport profile order fuel ⟨bytes, schedule⟩ = .ok report ∧
        DiscoveryReported frames ending report ∧
        ∀ order', ∃ report', discoverReport profile order' fuel ⟨bytes, schedule⟩ = .ok report' ∧
          AgreeButTies report report' := by
  obtain ⟨fmt, long, magic, at_⟩ := stream_opened accepted
  obtain ⟨frames, ending, reads⟩ := reads_total fmt (bytes.drop 24)
  have few : frames.length < fuel := by
    have size := reads_length reads
    rw [List.length_drop] at size
    omega
  obtain ⟨src, discovered, finished⟩ := eachFrame_eq profile
    (discoverFrame : _ → _ → Except (Stop StreamPcapError) _) reads at_ fuel few .new
  rw [discover_eq] at discovered
  have yielded : yieldedFrames profile fuel s = frames.map Prod.fst :=
    (stream_drain profile reads at_ fuel few).1
  have read : src.recordsRead = (frames.map Prod.fst).length := by
    rw [finished.recordsRead, Nat.zero_add, List.length_map]
  have opened : ∀ order, discoverReport profile order fuel ⟨bytes, schedule⟩ =
      orFault (printDiscoveryReport profile order
        ((frames.map Prod.fst).foldl DiscoveryEngine.discovered .new) src) := by
    intro order
    rw [discoverReport, discover, accepted]
    simp only [bind, Except.bind, discovered]
  have cut : src.truncatedRecords = frames.countP (·.2) := by
    rw [finished.truncatedRecords, Nat.zero_add]
  obtain ⟨report, printed, told, truncated, midRecord, others⟩ :=
    report_ok profile read (reads_times reads) order
  refine ⟨fmt, frames, ending, magic, reads, yielded, report, ?_,
    ⟨told, truncated.trans cut, midRecord.trans finished.endedMidRecord⟩, fun order' => ?_⟩
  · rw [opened, printed]
    rfl
  · obtain ⟨report', printed', agree⟩ := others order'
    refine ⟨report', ?_, agree⟩
    rw [opened, printed']
    rfl

theorem discovery_report_exact_down : ∃ s,
    StreamingPcapSource.new ⟨Cell.downCapture, [.interrupted]⟩ = .ok s ∧
    ∃ fmt frames ending, magicOf (wordAt false Cell.downCapture 0) = .classic fmt ∧
      Reads fmt (Cell.downCapture.drop 24) frames ending ∧
      yieldedFrames .dev 91 s = frames.map Prod.fst ∧ ∃ report,
        discoverReport .dev .inserted 91 ⟨Cell.downCapture, [.interrupted]⟩ = .ok report ∧
        DiscoveryReported frames ending report ∧ ∀ order', ∃ report',
          discoverReport .dev order' 91 ⟨Cell.downCapture, [.interrupted]⟩ = .ok report' ∧
            AgreeButTies report report' := by
  obtain ⟨s, accepted⟩ : ∃ s,
      StreamingPcapSource.new ⟨Cell.downCapture, [.interrupted]⟩ = .ok s := ⟨_, rfl⟩
  exact ⟨s, accepted, discovery_report_exact .dev accepted (by decide) .inserted⟩

end Proof
end CausalWorks
