import CausalWorks.Replay
import CausalWorks.Stream

/-!
# The two readers agree

Both readers refine one decoder of the bytes that are still to come, so they yield the same frames
and stop at the same place, however the bytes are delivered.
-/

namespace CausalWorks
open Delivery (Source Response)

/-! ## The format -/

def wordAt (swapped : Bool) (bytes : List UInt8) (off : Nat) : UInt32 :=
  let byte (i : Nat) := bytes.getD (off + i) 0
  if swapped then u32FromBeBytes (byte 0) (byte 1) (byte 2) (byte 3)
  else u32FromLeBytes (byte 0) (byte 1) (byte 2) (byte 3)

def recordTime (nanos : Bool) (sec frac : UInt32) : Nat :=
  sec.toNat * 1000000000 + frac.toNat * if nanos then 1 else 1000

inductive Front where
  | finished
  | cutHeader
  | tooLong (length : UInt32)
  | cutBody (claimed : UInt32) (available : Nat)
  | record (packet : Packet) (truncated : Bool) (rest : List UInt8)
  deriving DecidableEq, Repr

def front (fmt : PcapFormat) (bytes : List UInt8) : Front :=
  if bytes = [] then .finished
  else if bytes.length < 16 then .cutHeader
  else
    let inclLen := wordAt fmt.swapped bytes 8
    if maxFrame < inclLen then .tooLong inclLen
    else if bytes.length - 16 < inclLen.toNat then .cutBody inclLen (bytes.length - 16)
    else
      let time := recordTime fmt.nanos (wordAt fmt.swapped bytes 0) (wordAt fmt.swapped bytes 4)
      .record (UInt64.ofNat time, (bytes.drop 16).take inclLen.toNat)
        (decide (inclLen < wordAt fmt.swapped bytes 12)) (bytes.drop (16 + inclLen.toNat))

/-! ## What it means to agree -/

def eagerView (frame : Packet × PcapReplaySource) : Packet × Nat × Nat :=
  (frame.1, frame.2.recordsRead, frame.2.truncatedRecords)

def streamView (frame : Packet × StreamingPcapSource) : Packet × Nat × Nat :=
  (frame.1, frame.2.recordsRead, frame.2.truncatedRecords)

def SameEnding : Option (Except (Stop PcapError) PcapReplaySource) →
    Option (Except (Stop StreamPcapError) StreamingPcapSource) → Prop
  | some (.ok _), some (.ok s) => s.endedMidRecord = false
  | some (.error (.err (.truncatedRecord _))), some (.ok s) => s.endedMidRecord = true
  | some (.error (.err (.truncatedData _ _))), some (.ok s) => s.endedMidRecord = true
  | some (.error (.err (.implausibleLength length))),
      some (.error (.err (.implausibleLength length'))) => length = length'
  | _, _ => False

structure SameRun (length : Nat)
    (eager : List (Packet × PcapReplaySource) × Option (Except (Stop PcapError) PcapReplaySource))
    (stream : List (Packet × StreamingPcapSource) ×
      Option (Except (Stop StreamPcapError) StreamingPcapSource)) : Prop where
  frames : eager.1.map eagerView = stream.1.map streamView
  few : eager.1.length ≤ (length - 24) / 16
  ending : SameEnding eager.2 stream.2

def ReadersAgree (profile : Profile) (bytes : List UInt8) (schedule : List Response) : Prop :=
  match PcapReplaySource.fromBytes bytes, StreamingPcapSource.new ⟨bytes, schedule⟩ with
  | .ok eager, .ok stream => ∀ fuel, (bytes.length - 24) / 16 < fuel →
      SameRun bytes.length (drain (PcapReplaySource.nextFrame profile) fuel eager)
        (drain (StreamingPcapSource.nextFrame profile) fuel stream)
  | .error (.err (.truncatedRecord _)), .error (.err (.io .unexpectedEof)) => bytes.length < 24
  | .error (.err .isPcapng), .error (.err .isPcapng) => True
  | .error (.err (.badMagic magic)), .error (.err (.badMagic magic')) => magic = magic'
  | _, _ => False

namespace Proof

theorem rdU32_ok {ε : Type} (swapped : Bool) {buf : List UInt8} {off : Nat}
    (inside : off + 4 ≤ buf.length) :
    (rdU32 swapped buf off : Except (Stop ε) UInt32) = .ok (wordAt swapped buf off) := by
  rw [rdU32, byteAt_ok (by omega : off < buf.length), byteAt_ok (by omega : off + 1 < buf.length),
    byteAt_ok (by omega : off + 2 < buf.length), byteAt_ok (by omega : off + 3 < buf.length)]
  have byte : ∀ i (small : off + i < buf.length), buf.getD (off + i) 0 = buf[off + i] := by
    intro i small
    rw [List.getD_eq_getElem?_getD, List.getElem?_eq_getElem small, Option.getD_some]
  have first := byte 0 (by omega)
  simp only [Nat.add_zero] at first
  simp only [bind, Except.bind, pure, Except.pure, wordAt, Nat.add_zero, first, byte 1 (by omega),
    byte 2 (by omega), byte 3 (by omega)]

theorem wordAt_drop (swapped : Bool) (bytes : List UInt8) (start off : Nat) :
    wordAt swapped (bytes.drop start) off = wordAt swapped bytes (start + off) := by
  simp only [wordAt, List.getD_eq_getElem?_getD, List.getElem?_drop, Nat.add_assoc]

theorem wordAt_take (swapped : Bool) (bytes : List UInt8) {size off : Nat}
    (inside : off + 4 ≤ size) :
    wordAt swapped (bytes.take size) off = wordAt swapped bytes off := by
  have same : ∀ i < 4, (bytes.take size).getD (off + i) 0 = bytes.getD (off + i) 0 := by
    intro i small
    rw [List.getD_eq_getElem?_getD, List.getElem?_take_of_lt (by omega),
      List.getD_eq_getElem?_getD]
  simp only [wordAt, same 0 (by omega), same 1 (by omega), same 2 (by omega), same 3 (by omega)]

theorem recordTime_lt (nanos : Bool) (sec frac : UInt32) : recordTime nanos sec frac < 2 ^ 64 := by
  have secLt := UInt32.toNat_lt sec
  have fracLt := UInt32.toNat_lt frac
  unfold recordTime
  split <;> omega

theorem mulU64_ok (profile : Profile) {x : UInt32} {y : UInt64}
    (small : x.toNat * y.toNat < 2 ^ 64) : profile.mulU64 x.toUInt64 y = .ok (x.toUInt64 * y) ∧
      (x.toUInt64 * y).toNat = x.toNat * y.toNat := by
  constructor
  · exact mulU64_of_lt profile _ _ (by rwa [UInt32.toNat_toUInt64])
  · rw [UInt64.toNat_mul, UInt32.toNat_toUInt64, Nat.mod_eq_of_lt small]

theorem addU64_ok (profile : Profile) {x y : UInt64} (small : x.toNat + y.toNat < 2 ^ 64) :
    profile.addU64 x y = .ok (UInt64.ofNat (x.toNat + y.toNat)) := by
  rw [addU64_of_lt profile x y small, UInt64.ofNat_add, UInt64.ofNat_toNat, UInt64.ofNat_toNat]

theorem tsNanos_ok (profile : Profile) (nanos : Bool) (sec frac : UInt32) :
    tsNanos profile nanos sec.toUInt64 frac.toUInt64 =
      .ok (UInt64.ofNat (recordTime nanos sec frac)) := by
  have secLt := UInt32.toNat_lt sec
  have fracLt := UInt32.toNat_lt frac
  have seconds : sec.toNat * (1000000000 : UInt64).toNat < 2 ^ 64 := by
    rw [show (1000000000 : UInt64).toNat = 1000000000 from rfl]
    omega
  have fraction : frac.toNat * (1000 : UInt64).toNat < 2 ^ 64 := by
    rw [show (1000 : UInt64).toNat = 1000 from rfl]
    omega
  obtain ⟨secs, secsIs⟩ := mulU64_ok profile seconds
  obtain ⟨micros, microsIs⟩ := mulU64_ok profile fraction
  have bound := recordTime_lt nanos sec frac
  rw [tsNanos, secs]
  simp only [bind, Except.bind]
  cases nanos with
  | true =>
      have total : recordTime true sec frac =
          (sec.toUInt64 * 1000000000).toNat + frac.toUInt64.toNat := by
        rw [secsIs, UInt32.toNat_toUInt64, recordTime, if_pos rfl, Nat.mul_one]
        rfl
      rw [total] at bound ⊢
      simp only [if_true]
      exact addU64_ok profile bound
  | false =>
      have total : recordTime false sec frac =
          (sec.toUInt64 * 1000000000).toNat + (frac.toUInt64 * 1000).toNat := by
        rw [secsIs, microsIs]
        rfl
      rw [total] at bound ⊢
      rw [micros]
      simp only [Bool.false_eq_true, if_false]
      exact addU64_ok profile bound

/-! ## One record -/

variable {profile : Profile} {fmt : PcapFormat} {bytes : List UInt8} {read truncated : Nat}

structure EagerAt (e : PcapReplaySource) (fmt : PcapFormat) (bytes : List UInt8)
    (read truncated : Nat) : Prop where
  inside : e.cursor ≤ e.data.length
  rest : e.data.drop e.cursor = bytes
  fmt_eq : e.fmt = fmt
  recordsRead : e.recordsRead = read
  truncatedRecords : e.truncatedRecords = truncated

def EagerSteps (profile : Profile) (e : PcapReplaySource) (fmt : PcapFormat)
    (read truncated : Nat) : Front → Prop
  | .finished => e.nextFrame profile = .ok (none, e)
  | .cutHeader => e.nextFrame profile = .error (.err (.truncatedRecord e.cursor))
  | .tooLong length => e.nextFrame profile = .error (.err (.implausibleLength length))
  | .cutBody claimed available =>
      e.nextFrame profile = .error (.err (.truncatedData claimed available))
  | .record packet cut rest => ∃ after, e.nextFrame profile = .ok (some packet, after) ∧
      EagerAt after fmt rest (read + 1) (if cut then truncated + 1 else truncated)

variable (profile) in
theorem eager_step {e : PcapReplaySource} (at_ : EagerAt e fmt bytes read truncated) :
    EagerSteps profile e fmt read truncated (front fmt bytes) := by
  obtain ⟨inside, rest, rfl, rfl, rfl⟩ := at_
  have length : bytes.length = e.data.length - e.cursor := by
    rw [← rest, List.length_drop]
  unfold front
  by_cases empty : bytes = []
  · rw [if_pos empty]
    rw [empty, List.length_nil] at length
    have done : e.cursor = e.data.length := by omega
    show e.nextFrame profile = _
    rw [PcapReplaySource.nextFrame, if_pos (by omega), if_pos done]
    rfl
  rw [if_neg empty]
  have some_ := List.length_pos_iff.mpr empty
  by_cases short : bytes.length < 16
  · rw [if_pos short]
    show e.nextFrame profile = _
    rw [PcapReplaySource.nextFrame, if_pos (by omega), if_neg (by omega)]
  rw [if_neg short]
  have word : ∀ off ≤ 12, (rdU32 e.fmt.swapped e.data (e.cursor + off) :
      Except (Stop PcapError) UInt32) = .ok (wordAt e.fmt.swapped bytes off) := by
    intro off small
    rw [rdU32_ok _ (by omega), ← rest, wordAt_drop]
  have first := word 0 (by omega)
  rw [Nat.add_zero] at first
  have whole : ¬ e.data.length < e.cursor + 16 := by omega
  have remaining : e.data.length - (e.cursor + 16) = bytes.length - 16 := by omega
  by_cases large : maxFrame < wordAt e.fmt.swapped bytes 8
  · rw [if_pos large]
    show e.nextFrame profile = _
    simp only [PcapReplaySource.nextFrame, if_neg whole, first, word 4 (by omega),
      word 8 (by omega), word 12 (by omega), bind, Except.bind, if_pos large]
  rw [if_neg large]
  by_cases cut : bytes.length - 16 < (wordAt e.fmt.swapped bytes 8).toNat
  · rw [if_pos cut]
    show e.nextFrame profile = _
    simp only [PcapReplaySource.nextFrame, if_neg whole, first, word 4 (by omega),
      word 8 (by omega), word 12 (by omega), bind, Except.bind, if_neg large, remaining,
      if_pos cut]
  rw [if_neg cut]
  have body : (sliceAt e.data (e.cursor + 16) (wordAt e.fmt.swapped bytes 8).toNat :
      Except (Stop PcapError) (List UInt8)) =
        .ok ((bytes.drop 16).take (wordAt e.fmt.swapped bytes 8).toNat) := by
    rw [sliceAt, if_pos (by omega), ← rest, List.drop_drop]
  refine ⟨?after, ?step, ?at_⟩
  case step =>
    simp only [PcapReplaySource.nextFrame, if_neg whole, first, word 4 (by omega),
      word 8 (by omega), word 12 (by omega), bind, Except.bind, if_neg large, remaining,
      if_neg cut, tsNanos_ok, orFault, body, pure, Except.pure]
    rfl
  case at_ =>
    constructor
    · show e.cursor + 16 + (wordAt e.fmt.swapped bytes 8).toNat ≤ e.data.length
      omega
    · show e.data.drop (e.cursor + 16 + (wordAt e.fmt.swapped bytes 8).toNat) = _
      rw [← rest, List.drop_drop, Nat.add_assoc]
    · rfl
    · rfl
    · simp only [decide_eq_true_eq]

structure StreamAt (s : StreamingPcapSource) (fmt : PcapFormat) (bytes : List UInt8)
    (read truncated : Nat) : Prop where
  buffered : 0 < s.rdr.capacity
  rest : s.rdr.pending = bytes
  fmt_eq : s.fmt = fmt
  recordsRead : s.recordsRead = read
  truncatedRecords : s.truncatedRecords = truncated
  unfinished : s.endedMidRecord = false

def StreamSteps (profile : Profile) (s : StreamingPcapSource) (fmt : PcapFormat)
    (read truncated : Nat) : Front → Prop
  | .finished => ∃ after, s.nextFrame profile = .ok (none, after) ∧ after.endedMidRecord = false
  | .cutHeader | .cutBody _ _ =>
      ∃ after, s.nextFrame profile = .ok (none, after) ∧ after.endedMidRecord = true
  | .tooLong length => s.nextFrame profile = .error (.err (.implausibleLength length))
  | .record packet cut rest => ∃ after, s.nextFrame profile = .ok (some packet, after) ∧
      StreamAt after fmt rest (read + 1) (if cut then truncated + 1 else truncated)

theorem fillBuf_ok {rdr : Delivery.BufReader UInt8} (buffered : 0 < rdr.capacity) (want : Nat) :
    ∃ after, fillBuf rdr want = .ok (rdr.pending.take want, after) ∧ 0 < after.capacity ∧
      after.pending = rdr.pending.drop want := by
  obtain ⟨after, done, capacity, rest⟩ :=
    Delivery.BufReader.fill_ok want _ rdr [] buffered (Nat.le_refl _)
  simp only [List.length_nil, Nat.sub_zero, List.nil_append] at done rest
  exact ⟨after, by rw [fillBuf, done], by omega, rest⟩

theorem readFullOrEof_ok {rdr : Delivery.BufReader UInt8} (buffered : 0 < rdr.capacity) :
    ∃ after, readFullOrEof rdr 16 =
        .ok (if rdr.pending = [] then .eof
          else if rdr.pending.length < 16 then .cutShort else .full,
          rdr.pending.take 16, after) ∧
      0 < after.capacity ∧ after.pending = rdr.pending.drop 16 := by
  obtain ⟨after, filled, buffered', rest⟩ := fillBuf_ok buffered 16
  refine ⟨after, ?_, buffered', rest⟩
  simp only [readFullOrEof, filled, bind, Except.bind]
  by_cases empty : rdr.pending = []
  · simp [empty, pure, Except.pure]
  · have length : (rdr.pending.take 16).length = min 16 rdr.pending.length := List.length_take
    by_cases short : rdr.pending.length < 16
    · rw [if_pos (by omega), if_neg empty, if_pos short, if_neg (by simpa using empty)]
      rfl
    · rw [if_neg (by omega), if_neg empty, if_neg short]
      rfl

theorem readExactOrShort_ok {rdr : Delivery.BufReader UInt8} (buffered : 0 < rdr.capacity)
    (want : Nat) : ∃ after, readExactOrShort rdr want =
        .ok (decide (want ≤ rdr.pending.length), rdr.pending.take want, after) ∧
      0 < after.capacity ∧ after.pending = rdr.pending.drop want := by
  obtain ⟨after, filled, buffered', rest⟩ := fillBuf_ok buffered want
  refine ⟨after, ?_, buffered', rest⟩
  have whole : want ≤ (rdr.pending.take want).length ↔ want ≤ rdr.pending.length := by
    rw [List.length_take, le_min_iff, and_iff_right (Nat.le_refl want)]
  simp only [readExactOrShort, filled, bind, Except.bind, pure, Except.pure, whole]

theorem rdU32_header {ε : Type} (swapped : Bool) (long : 16 ≤ bytes.length) {off : Nat}
    (small : off ≤ 12) :
    (rdU32 swapped (bytes.take 16) off : Except (Stop ε) UInt32) =
      .ok (wordAt swapped bytes off) := by
  rw [rdU32_ok _ (by rw [List.length_take_of_le long]; omega), wordAt_take _ _ (by omega)]

theorem length_resize (scratch : List UInt8) (len : Nat) :
    (StreamingPcapSource.resize scratch len).length = len := by
  simp only [StreamingPcapSource.resize, List.length_append, List.length_take,
    List.length_replicate]
  omega

variable (profile) in
theorem stream_step {s : StreamingPcapSource} (at_ : StreamAt s fmt bytes read truncated) :
    StreamSteps profile s fmt read truncated (front fmt bytes) := by
  obtain ⟨buffered, rest, rfl, rfl, rfl, unfinished⟩ := at_
  obtain ⟨rdr, header, buffered', rest'⟩ := readFullOrEof_ok buffered
  rw [rest] at header rest'
  unfold front
  by_cases empty : bytes = []
  · rw [if_pos empty] at header ⊢
    refine ⟨{ s with rdr }, ?_, unfinished⟩
    simp only [StreamingPcapSource.nextFrame, header, bind, Except.bind, orFault]
    rfl
  rw [if_neg empty] at header ⊢
  by_cases short : bytes.length < 16
  · rw [if_pos short] at header ⊢
    refine ⟨{ s with rdr, endedMidRecord := true }, ?_, rfl⟩
    simp only [StreamingPcapSource.nextFrame, header, bind, Except.bind, orFault]
    rfl
  rw [if_neg short] at header ⊢
  have word : ∀ off ≤ 12, (rdU32 s.fmt.swapped (bytes.take 16) off :
      Except (Stop StreamPcapError) UInt32) = .ok (wordAt s.fmt.swapped bytes off) :=
    fun off small => rdU32_header s.fmt.swapped (Nat.le_of_not_lt short) small
  by_cases large : maxFrame < wordAt s.fmt.swapped bytes 8
  · rw [if_pos large]
    show s.nextFrame profile = _
    simp only [StreamingPcapSource.nextFrame, header, orFault, word 0 (by omega),
      word 4 (by omega), word 8 (by omega), word 12 (by omega), bind, Except.bind, if_pos large]
  rw [if_neg large]
  obtain ⟨rdr', body, buffered'', rest''⟩ :=
    readExactOrShort_ok buffered' (wordAt s.fmt.swapped bytes 8).toNat
  rw [rest'] at body rest''
  by_cases cut : bytes.length - 16 < (wordAt s.fmt.swapped bytes 8).toNat
  · rw [if_pos cut]
    have missing : ¬ (wordAt s.fmt.swapped bytes 8).toNat ≤ (bytes.drop 16).length := by
      rw [List.length_drop]
      omega
    refine ⟨?after, ?step, ?flag⟩
    case step =>
      simp only [StreamingPcapSource.nextFrame, header, orFault, word 0 (by omega),
        word 4 (by omega), word 8 (by omega), word 12 (by omega), bind, Except.bind,
        if_neg large, body, missing, decide_false, if_true, pure, Except.pure]
      rfl
    case flag => rfl
  rw [if_neg cut]
  have whole : (wordAt s.fmt.swapped bytes 8).toNat ≤ (bytes.drop 16).length := by
    rw [List.length_drop]
    omega
  -- The body covers the whole scratch buffer, so nothing of an earlier record is left in it.
  have kept : (StreamingPcapSource.resize s.scratch (wordAt s.fmt.swapped bytes 8).toNat).drop
      (wordAt s.fmt.swapped bytes 8).toNat = [] := by
    rw [List.drop_eq_nil_iff, length_resize]
  refine ⟨?next, ?yields, ?at_⟩
  case yields =>
    simp only [StreamingPcapSource.nextFrame, header, orFault, word 0 (by omega),
      word 4 (by omega), word 8 (by omega), word 12 (by omega), bind, Except.bind, if_neg large,
      body, whole, decide_true, List.length_take_of_le whole, kept, List.append_nil, tsNanos_ok,
      reduceCtorEq, if_false, pure, Except.pure]
    rfl
  case at_ =>
    constructor
    · exact buffered''
    · rw [← List.drop_drop]
      exact rest''
    · rfl
    · rfl
    · simp only [decide_eq_true_eq]
    · exact unfinished

/-! ## The constructors -/

theorem fromBytes_eq (data : List UInt8) : PcapReplaySource.fromBytes data =
    if data.length < 24 then .error (.err (.truncatedRecord 0))
    else match magicOf (wordAt false data 0) with
      | .classic fmt => .ok ⟨data, 24, fmt, [], 0, 0, 0⟩
      | .pcapng => .error (.err .isPcapng)
      | .other magic => .error (.err (.badMagic magic)) := by
  unfold PcapReplaySource.fromBytes
  by_cases short : data.length < 24
  · rw [if_pos short, if_pos short]
  · rw [if_neg short, if_neg short, rdU32_ok _ (by omega)]
    rfl

theorem new_cases (source : Source UInt8) :
    (source.items.length < 24 ∧
      StreamingPcapSource.new source = .error (.err (.io .unexpectedEof))) ∨
    24 ≤ source.items.length ∧ match magicOf (wordAt false source.items 0) with
      | .classic fmt => ∃ s, StreamingPcapSource.new source = .ok s ∧
          StreamAt s fmt (source.items.drop 24) 0 0
      | .pcapng => StreamingPcapSource.new source = .error (.err .isPcapng)
      | .other magic => StreamingPcapSource.new source = .error (.err (.badMagic magic)) := by
  have buffered : 0 < (Delivery.BufReader.withCapacity (1 <<< 20) source).capacity := by
    simp [Delivery.BufReader.withCapacity]
  obtain ⟨rdr, header, buffered', rest⟩ := fillBuf_ok buffered 24
  rw [Delivery.BufReader.pending_withCapacity] at header rest
  have taken : (source.items.take 24).length = min 24 source.items.length := List.length_take
  unfold StreamingPcapSource.new
  by_cases short : source.items.length < 24
  · left
    refine ⟨short, ?_⟩
    have less : (source.items.take 24).length < 24 := by omega
    simp only [readExact, header, orFault, bind, Except.bind, if_pos less]
  · right
    refine ⟨by omega, ?_⟩
    have enough : ¬ (source.items.take 24).length < 24 := by omega
    have magic : (rdU32 false (source.items.take 24) 0 : Except (Stop StreamPcapError) UInt32) =
        .ok (wordAt false source.items 0) := by
      rw [rdU32_ok _ (by omega), wordAt_take _ _ (by omega)]
    simp only [readExact, header, orFault, bind, Except.bind, if_neg enough, pure, Except.pure,
      magic]
    cases magicOf (wordAt false source.items 0) with
    | pcapng | other => rfl
    | classic fmt => exact ⟨_, rfl, buffered', rest, rfl, rfl, rfl, rfl⟩

/-! ## Whole captures -/

theorem front_record {packet : Packet} {cut : Bool} {rest : List UInt8}
    (is : front fmt bytes = .record packet cut rest) : rest.length + 16 ≤ bytes.length := by
  unfold front at is
  simp only at is
  split at is
  · cases is
  split at is
  · cases is
  rename_i long
  split at is
  · cases is
  split at is
  · cases is
  obtain ⟨-, -, rfl⟩ := Front.record.inj is
  rw [List.length_drop]
  omega

variable (profile) in
theorem drain_same (fuel : Nat) {e : PcapReplaySource} {s : StreamingPcapSource}
    (eager : EagerAt e fmt bytes read truncated) (stream : StreamAt s fmt bytes read truncated)
    (enough : bytes.length / 16 < fuel) :
    let eagerRun := drain (PcapReplaySource.nextFrame profile) fuel e
    let streamRun := drain (StreamingPcapSource.nextFrame profile) fuel s
    eagerRun.1.map eagerView = streamRun.1.map streamView ∧
      16 * eagerRun.1.length ≤ bytes.length ∧ SameEnding eagerRun.2 streamRun.2 := by
  induction fuel generalizing e s bytes read truncated with
  | zero => omega
  | succ fuel ih =>
      have eagerStep := eager_step profile eager
      have streamStep := stream_step profile stream
      simp only [drain]
      cases is : front fmt bytes with
      | finished =>
          rw [is] at eagerStep streamStep
          obtain ⟨after, step, flag⟩ := streamStep
          rw [show e.nextFrame profile = _ from eagerStep, step]
          exact ⟨rfl, Nat.zero_le _, flag⟩
      | cutHeader =>
          rw [is] at eagerStep streamStep
          obtain ⟨after, step, flag⟩ := streamStep
          rw [show e.nextFrame profile = _ from eagerStep, step]
          exact ⟨rfl, Nat.zero_le _, flag⟩
      | cutBody claimed available =>
          rw [is] at eagerStep streamStep
          obtain ⟨after, step, flag⟩ := streamStep
          rw [show e.nextFrame profile = _ from eagerStep, step]
          exact ⟨rfl, Nat.zero_le _, flag⟩
      | tooLong length =>
          rw [is] at eagerStep streamStep
          rw [show e.nextFrame profile = _ from eagerStep,
            show s.nextFrame profile = _ from streamStep]
          exact ⟨rfl, Nat.zero_le _, rfl⟩
      | record packet cut rest =>
          have shorter := front_record is
          rw [is] at eagerStep streamStep
          obtain ⟨e', eagerNext, eager'⟩ := eagerStep
          obtain ⟨s', streamNext, stream'⟩ := streamStep
          obtain ⟨frames, few, ending⟩ := ih eager' stream' (by omega)
          rw [eagerNext, streamNext]
          refine ⟨?_, ?_, ending⟩
          · simp only [List.map_cons, frames, eagerView, streamView, eager'.recordsRead,
              eager'.truncatedRecords, stream'.recordsRead, stream'.truncatedRecords]
          · rw [List.length_cons]
            omega

theorem readers_agree (profile : Profile) (bytes : List UInt8) (schedule : List Response) :
    ReadersAgree profile bytes schedule := by
  unfold ReadersAgree
  rw [fromBytes_eq]
  rcases new_cases { items := bytes, schedule } with ⟨short, new⟩ | ⟨long, new⟩
  · rw [if_pos short, new]
    exact short
  · rw [if_neg (by simpa using long)]
    cases magic : magicOf (wordAt false bytes 0) with
    | pcapng =>
        simp only [magic] at new
        rw [new]
        trivial
    | other magic' =>
        simp only [magic] at new
        rw [new]
    | classic fmt =>
        simp only [magic] at new
        obtain ⟨s, built, stream⟩ := new
        rw [built]
        intro fuel enough
        have eager : EagerAt ⟨bytes, 24, fmt, [], 0, 0, 0⟩ fmt (bytes.drop 24) 0 0 :=
          ⟨long, rfl, rfl, rfl, rfl⟩
        have length : (bytes.drop 24).length = bytes.length - 24 := List.length_drop
        obtain ⟨frames, few, ending⟩ := drain_same profile fuel eager stream (by
          rwa [length])
        exact ⟨frames, by omega, ending⟩

end Proof
end CausalWorks
