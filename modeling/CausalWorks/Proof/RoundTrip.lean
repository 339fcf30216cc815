import CausalWorks.Proof.Capture

/-!
# Reading undoes writing

A classic capture, in any of the four formats, reads back as the records that were laid out in it.
-/

namespace CausalWorks
open Delivery (Response)

structure CaptureRecord where
  sec : UInt32
  frac : UInt32
  origLen : UInt32
  captured : List UInt8
  moderate : captured.length ≤ 262144
  deriving DecidableEq, Repr

namespace PcapFormat

def putU32 (fmt : PcapFormat) (w : UInt32) : List UInt8 :=
  if fmt.swapped then (u32ToLeBytes w).reverse else u32ToLeBytes w

def magic (fmt : PcapFormat) : UInt32 := if fmt.nanos then pcapMagicNsecLe else pcapMagicUsecLe

def encodeRecord (fmt : PcapFormat) (r : CaptureRecord) : List UInt8 :=
  fmt.putU32 r.sec ++ (fmt.putU32 r.frac ++ (fmt.putU32 (UInt32.ofNat r.captured.length) ++
    (fmt.putU32 r.origLen ++ r.captured)))

def encode (fmt : PcapFormat) (settings : Vector UInt8 20) (records : List CaptureRecord) :
    List UInt8 :=
  fmt.putU32 fmt.magic ++ (settings.toList ++ records.flatMap fmt.encodeRecord)

end PcapFormat

namespace CaptureRecord

def time (nanos : Bool) (r : CaptureRecord) : Nat := recordTime nanos r.sec r.frac

def isCut (r : CaptureRecord) : Bool := decide (r.captured.length < r.origLen.toNat)

def packet (nanos : Bool) (r : CaptureRecord) : Packet := (UInt64.ofNat (r.time nanos), r.captured)

end CaptureRecord

structure YieldsExactly {σ ε : Type} (frames : List (Nat × List UInt8)) (truncated : Nat)
    (counters : σ → Nat × Nat) (clean : σ → Prop)
    (drained : List (Packet × σ) × Option (Except ε σ)) : Prop where
  frames_eq : drained.1.map (fun frame => (frame.1.1.toNat, frame.1.2)) = frames
  ending : ∃ reader, drained.2 = some (.ok reader) ∧ clean reader ∧
    counters reader = (frames.length, truncated)

def BothYield (profile : Profile) (bytes : List UInt8) (schedule : List Response)
    (frames : List (Nat × List UInt8)) (truncated : Nat) : Prop :=
  ∃ eager stream, PcapReplaySource.fromBytes bytes = .ok eager ∧
    StreamingPcapSource.new ⟨bytes, schedule⟩ = .ok stream ∧ ∀ fuel, frames.length < fuel →
      YieldsExactly frames truncated (fun e => (e.recordsRead, e.truncatedRecords))
        (fun e => e.cursor = e.data.length)
        (drain (PcapReplaySource.nextFrame profile) fuel eager) ∧
      YieldsExactly frames truncated (fun s => (s.recordsRead, s.truncatedRecords))
        (fun s => s.endedMidRecord = false)
        (drain (StreamingPcapSource.nextFrame profile) fuel stream)

/-- What `write_pcap` is given: the seconds fit, and it keeps no more than the frame has. -/
structure Writable (request : UInt64 × Option Nat × List UInt8) : Prop where
  seconds : request.1.toNat / 1000000000 < 2 ^ 32
  kept : ∀ n ∈ request.2.1, n ≤ request.2.2.length
  moderate : request.2.2.length ≤ 262144

def keptOf (request : UInt64 × Option Nat × List UInt8) : List UInt8 :=
  request.2.2.take (request.2.1.getD request.2.2.length)

namespace Proof
variable (fmt : PcapFormat)

theorem length_putU32 (w : UInt32) : (fmt.putU32 w).length = 4 := by
  unfold PcapFormat.putU32
  split <;> rfl

theorem wordAt_putU32 (w : UInt32) (rest : List UInt8) :
    wordAt fmt.swapped (fmt.putU32 w ++ rest) 0 = w := by
  unfold wordAt PcapFormat.putU32
  cases fmt.swapped with
  | false => exact u32FromLeBytes_toLeBytes w
  | true => exact u32FromLeBytes_toLeBytes w

theorem wordAt_append {swapped : Bool} (before rest : List UInt8) {off : Nat}
    (past : before.length ≤ off) :
    wordAt swapped (before ++ rest) off = wordAt swapped rest (off - before.length) := by
  have split := wordAt_drop swapped (before ++ rest) before.length (off - before.length)
  rw [List.drop_left, Nat.add_sub_cancel' past] at split
  exact split.symm

theorem drop_putU32 (w : UInt32) (rest : List UInt8) (n : Nat) :
    (fmt.putU32 w ++ rest).drop (n + 4) = rest.drop n := by
  rw [List.drop_append, length_putU32, Nat.add_sub_cancel,
    List.drop_eq_nil_of_le (by rw [length_putU32]; omega), List.nil_append]

theorem length_encodeRecord (r : CaptureRecord) :
    (fmt.encodeRecord r).length = 16 + r.captured.length := by
  simp only [PcapFormat.encodeRecord, List.length_append, length_putU32]
  omega

theorem wordAt_second (w : UInt32) (rest : List UInt8) (n : Nat) :
    wordAt fmt.swapped (fmt.putU32 w ++ rest) (n + 4) = wordAt fmt.swapped rest n := by
  rw [wordAt_append _ _ (by rw [length_putU32]; omega), length_putU32, Nat.add_sub_cancel]

theorem front_encodeRecord (r : CaptureRecord) (rest : List UInt8) :
    front fmt (fmt.encodeRecord r ++ rest) = .record (r.packet fmt.nanos) r.isCut rest := by
  have length : (fmt.encodeRecord r ++ rest).length = 16 + r.captured.length + rest.length := by
    rw [List.length_append, length_encodeRecord]
  have small : (UInt32.ofNat r.captured.length).toNat = r.captured.length :=
    UInt32.toNat_ofNat_of_lt' (Nat.lt_of_le_of_lt r.moderate (by decide))
  have header : fmt.encodeRecord r ++ rest = fmt.putU32 r.sec ++ (fmt.putU32 r.frac ++
      (fmt.putU32 (UInt32.ofNat r.captured.length) ++ (fmt.putU32 r.origLen ++
        (r.captured ++ rest)))) := by
    simp only [PcapFormat.encodeRecord, List.append_assoc]
  have sec : wordAt fmt.swapped (fmt.encodeRecord r ++ rest) 0 = r.sec := by
    rw [header, wordAt_putU32]
  have frac : wordAt fmt.swapped (fmt.encodeRecord r ++ rest) 4 = r.frac := by
    rw [header, wordAt_second fmt _ _ 0, wordAt_putU32]
  have inclLen : wordAt fmt.swapped (fmt.encodeRecord r ++ rest) 8 =
      UInt32.ofNat r.captured.length := by
    rw [header, wordAt_second fmt _ _ 4, wordAt_second fmt _ _ 0, wordAt_putU32]
  have origLen : wordAt fmt.swapped (fmt.encodeRecord r ++ rest) 12 = r.origLen := by
    rw [header, wordAt_second fmt _ _ 8, wordAt_second fmt _ _ 4, wordAt_second fmt _ _ 0,
      wordAt_putU32]
  have body : (fmt.encodeRecord r ++ rest).drop 16 = r.captured ++ rest := by
    rw [header, drop_putU32, drop_putU32, drop_putU32, drop_putU32, List.drop_zero]
  have moderate : ¬ maxFrame < UInt32.ofNat r.captured.length := by
    rw [UInt32.lt_iff_toNat_lt, small, show maxFrame.toNat = 262144 from rfl]
    have := r.moderate
    omega
  have cut : decide (UInt32.ofNat r.captured.length < r.origLen) = r.isCut := by
    rw [CaptureRecord.isCut, decide_eq_decide, UInt32.lt_iff_toNat_lt, small]
  have some_ : fmt.encodeRecord r ++ rest ≠ [] := by
    rw [← List.length_pos_iff]
    omega
  unfold front
  rw [if_neg some_, if_neg (by omega)]
  simp only [inclLen, if_neg moderate, small]
  rw [if_neg (by omega), sec, frac, origLen, cut, ← List.drop_drop, body, List.take_left,
    List.drop_left]
  rfl

theorem reads_encode (records : List CaptureRecord) : Reads fmt (records.flatMap fmt.encodeRecord)
    (records.map fun r => (r.packet fmt.nanos, r.isCut)) .finished := by
  induction records with
  | nil => exact .stop rfl
  | cons r records ih =>
      rw [List.flatMap_cons, List.map_cons]
      exact .next (front_encodeRecord fmt r _) ih

theorem magicOf_putU32 (rest : List UInt8) :
    magicOf (wordAt false (fmt.putU32 fmt.magic ++ rest) 0) = .classic fmt := by
  rw [← wordAt_take false _ (by omega : 0 + 4 ≤ 4), List.take_left' (length_putU32 fmt fmt.magic)]
  obtain ⟨swapped, nanos⟩ := fmt
  cases swapped <;> cases nanos <;> decide

variable (profile : Profile) (schedule : List Response)

theorem exact_frames {σ τ : Type} {yielded : List (Packet × σ)} {held : List (Packet × τ)}
    (same : yielded.map Prod.fst = held.map Prod.fst) :
    yielded.map (fun frame => (frame.1.1.toNat, frame.1.2)) =
      held.map fun frame => (frame.1.1.toNat, frame.1.2) := by
  have exact_ := congrArg (List.map fun packet : Packet => (packet.1.toNat, packet.2)) same
  rwa [List.map_map, List.map_map] at exact_

theorem bothYield_of_reads {bytes : List UInt8} {frames : List (Packet × Bool)}
    (long : 24 ≤ bytes.length) (magic : magicOf (wordAt false bytes 0) = .classic fmt)
    (reads : Reads fmt (bytes.drop 24) frames .finished) :
    BothYield profile bytes schedule (frames.map fun frame => (frame.1.1.toNat, frame.1.2))
      (frames.countP (·.2)) := by
  have accepted : PcapReplaySource.fromBytes bytes = .ok ⟨bytes, 24, fmt, [], 0, 0, 0⟩ := by
    rw [fromBytes_eq, if_neg (by omega), magic]
  have eagerAt : EagerAt ⟨bytes, 24, fmt, [], 0, 0, 0⟩ fmt (bytes.drop 24) 0 0 :=
    ⟨long, rfl, rfl, rfl, rfl⟩
  obtain ⟨stream, built, streamAt⟩ := stream_opens long magic schedule
  refine ⟨_, stream, accepted, built, ?_⟩
  intro fuel enough
  rw [List.length_map] at enough
  obtain ⟨eagerFrames, after, eagerEnds, atEnd, eagerRead, eagerCut⟩ :=
    eager_drain profile reads rfl eagerAt fuel enough
  obtain ⟨streamFrames, s, streamEnds, finished⟩ := stream_drain profile reads streamAt fuel enough
  simp only [Nat.zero_add] at eagerRead eagerCut finished
  constructor
  · refine ⟨exact_frames eagerFrames, after, eagerEnds, atEnd, ?_⟩
    rw [eagerRead, eagerCut, List.length_map]
  · refine ⟨exact_frames streamFrames, s, streamEnds, finished.endedMidRecord, ?_⟩
    rw [finished.recordsRead, finished.truncatedRecords, List.length_map]

theorem encode_yields (settings : Vector UInt8 20) (records : List CaptureRecord) :
    BothYield profile (fmt.encode settings records) schedule
      (records.map fun r => (r.time fmt.nanos, r.captured)) (records.countP (·.isCut)) := by
  have rest : (fmt.encode settings records).drop 24 = records.flatMap fmt.encodeRecord := by
    rw [PcapFormat.encode, drop_putU32 fmt _ _ 20, List.drop_left' settings.length_toList]
  have long : 24 ≤ (fmt.encode settings records).length := by
    simp only [PcapFormat.encode, List.length_append, length_putU32, settings.length_toList]
    omega
  have both := bothYield_of_reads fmt profile schedule long (magicOf_putU32 fmt _)
    (rest ▸ reads_encode fmt records)
  have exact_ : ∀ r : CaptureRecord, (r.packet fmt.nanos).1.toNat = r.time fmt.nanos := fun r =>
    UInt64.toNat_ofNat_of_lt' (recordTime_lt fmt.nanos r.sec r.frac)
  rw [List.map_map, List.countP_map] at both
  simp only [Function.comp_def, exact_] at both
  exact both

def usecLe : PcapFormat := { swapped := false, nanos := false }

theorem roundedTime {ts : UInt64} (seconds : ts.toNat / 1000000000 < 2 ^ 32) :
    recordTime false (ts / 1000000000).toUInt32 (ts % 1000000000 / 1000).toUInt32 =
      ts.toNat - ts.toNat % 1000 := by
  have billion : (1000000000 : UInt64).toNat = 1000000000 := rfl
  have thousand : (1000 : UInt64).toNat = 1000 := rfl
  simp only [recordTime, UInt64.toNat_toUInt32, UInt64.toNat_div, UInt64.toNat_mod, billion,
    thousand, Bool.false_eq_true, if_false]
  rw [Nat.mod_eq_of_lt seconds]
  omega

theorem writeRecord_ok (v : List UInt8) {request : UInt64 × Option Nat × List UInt8}
    (writable : Writable request) : ∃ r : CaptureRecord,
      writeRecord v request = .ok (v ++ usecLe.encodeRecord r) ∧
      (r.time false, r.captured) = (request.1.toNat - request.1.toNat % 1000, keptOf request) ∧
      r.isCut = decide ((keptOf request).length < request.2.2.length) := by
  obtain ⟨ts, inclOverride, frame⟩ := request
  obtain ⟨seconds, kept, moderate⟩ := writable
  simp only at seconds kept moderate
  have fits : ∀ n ≤ frame.length, (UInt32.ofNat n).toNat = n := fun n le =>
    UInt32.toNat_ofNat_of_lt' (by
      rw [show UInt32.size = 4294967296 from rfl]
      omega)
  have le : inclOverride.getD frame.length ≤ frame.length := by
    cases inclOverride with
    | none => exact Nat.le_refl _
    | some n => exact kept n rfl
  have length : (frame.take (inclOverride.getD frame.length)).length =
      inclOverride.getD frame.length := List.length_take_of_le le
  have inclLen : (inclOverride.map UInt32.ofNat).getD (UInt32.ofNat frame.length) =
      UInt32.ofNat (inclOverride.getD frame.length) := by
    cases inclOverride <;> rfl
  refine ⟨{ sec := (ts / 1000000000).toUInt32, frac := (ts % 1000000000 / 1000).toUInt32
            origLen := UInt32.ofNat frame.length
            captured := frame.take (inclOverride.getD frame.length), moderate := by omega },
    ?_, ?_, ?_⟩
  · simp only [writeRecord, inclLen, fits _ le, prefixAt, if_pos le, bind, Except.bind, pure,
      Except.pure, PcapFormat.encodeRecord, length, usecLe, PcapFormat.putU32, Bool.false_eq_true,
      if_false, List.append_assoc]
  · exact Prod.ext (roundedTime seconds) rfl
  · rw [CaptureRecord.isCut, decide_eq_decide, fits _ (Nat.le_refl _)]
    rfl

theorem writeRecords_ok (v : List UInt8) {requests : List (UInt64 × Option Nat × List UInt8)}
    (writable : ∀ request ∈ requests, Writable request) : ∃ records : List CaptureRecord,
      requests.foldlM writeRecord v = .ok (v ++ records.flatMap usecLe.encodeRecord) ∧
      (records.map fun r => (r.time false, r.captured)) =
        (requests.map fun request => (request.1.toNat - request.1.toNat % 1000, keptOf request)) ∧
      records.countP (·.isCut) =
        requests.countP fun request => decide ((keptOf request).length < request.2.2.length) := by
  induction requests generalizing v with
  | nil => exact ⟨[], by rw [List.flatMap_nil, List.append_nil]; rfl, rfl, rfl⟩
  | cons request requests ih =>
      obtain ⟨here, others⟩ := List.forall_mem_cons.mp writable
      obtain ⟨r, written, frame, cut⟩ := writeRecord_ok v here
      obtain ⟨records, rest, frames, cuts⟩ := ih (v ++ usecLe.encodeRecord r) others
      refine ⟨r :: records, ?_, ?_, ?_⟩
      · rw [List.foldlM_cons, written]
        exact rest.trans (by rw [List.flatMap_cons, List.append_assoc])
      · rw [List.map_cons, List.map_cons, frame, frames]
      · rw [List.countP_cons, List.countP_cons, cut, cuts]

theorem writePcap_yields {requests : List (UInt64 × Option Nat × List UInt8)}
    (writable : ∀ request ∈ requests, Writable request) : ∃ bytes,
      writePcap requests = .ok bytes ∧ BothYield profile bytes schedule
        (requests.map fun request => (request.1.toNat - request.1.toNat % 1000, keptOf request))
        (requests.countP fun request =>
          decide ((keptOf request).length < request.2.2.length)) := by
  obtain ⟨records, written, frames, cuts⟩ := writeRecords_ok (u32ToLeBytes 0xa1b2c3d4 ++
    u16ToLeBytes 2 ++ u16ToLeBytes 4 ++ u32ToLeBytes 0 ++ u32ToLeBytes 0 ++ u32ToLeBytes 65535 ++
      u32ToLeBytes 1) writable
  have yields := encode_yields usecLe profile schedule
    ⟨#[2, 0, 4, 0, 0, 0, 0, 0, 0, 0, 0, 0, 255, 255, 0, 0, 1, 0, 0, 0], rfl⟩ records
  refine ⟨_, written, ?_⟩
  rw [← frames, ← cuts]
  exact yields

theorem reading_undoes_writing :
    (∀ (fmt : PcapFormat) (settings : Vector UInt8 20) (records : List CaptureRecord),
      BothYield profile (fmt.encode settings records) schedule
        (records.map fun r => (r.time fmt.nanos, r.captured)) (records.countP (·.isCut))) ∧
    ∀ requests : List (UInt64 × Option Nat × List UInt8),
      (∀ request ∈ requests, Writable request) → ∃ bytes, writePcap requests = .ok bytes ∧
        BothYield profile bytes schedule
          (requests.map fun request => (request.1.toNat - request.1.toNat % 1000, keptOf request))
          (requests.countP fun request =>
            decide ((keptOf request).length < request.2.2.length)) :=
  ⟨fun fmt settings records => encode_yields fmt profile schedule settings records,
    fun _ writable => writePcap_yields profile schedule writable⟩

theorem reading_undoes_writing_cut :
    (∀ (fmt : PcapFormat) (settings : Vector UInt8 20) (records : List CaptureRecord),
      BothYield .dev (fmt.encode settings records) [.interrupted, .chunk 6]
        (records.map fun r => (r.time fmt.nanos, r.captured)) (records.countP (·.isCut))) ∧
    ∃ bytes, writePcap [(1500, some 2, [7, 8, 9]), (4294967295999999999, none, [])] = .ok bytes ∧
      BothYield .dev bytes [.interrupted, .chunk 6]
        [(1000, [7, 8]), (4294967295999999000, [])] 1 := by
  obtain ⟨format, fixture⟩ := reading_undoes_writing .dev [.interrupted, .chunk 6]
  refine ⟨format, fixture [(1500, some 2, [7, 8, 9]), (4294967295999999999, none, [])] ?_⟩
  intro request member
  rcases List.mem_cons.mp member with rfl | member
  · exact ⟨by decide, by simp, by decide⟩
  · obtain rfl := List.mem_singleton.mp member
    exact ⟨by decide, by simp, by decide⟩

end Proof
end CausalWorks
