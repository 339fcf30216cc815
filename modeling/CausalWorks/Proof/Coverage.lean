import CausalWorks.Proof.Capture
import CausalWorks.Proof.Streams
import Mathlib.Data.List.ReduceOption

/-!
# Coverage accounting

Discovery and preflight run over a capture in loops of their own, with counters of their own. Both
sort its frames by what the parser says, so the counters add up and agree.
-/

namespace CausalWorks
open Keyed (Table)
open Delivery (Response)

def acceptedFrames (packets : List Packet) : List DecodedFieldbusFrame :=
  packets.filterMap fun packet => (parseFrame packet.1 packet.2).toOption

def rejectedTypes (packets : List Packet) : List (Option UInt16) :=
  packets.filterMap fun packet =>
    match parseFrame packet.1 packet.2 with
    | .ok _ => none
    | .error _ => some (rawEthertype packet.2)

namespace PreflightScan

def noteTag (s : PreflightStats) (buf : List UInt8) : PreflightStats :=
  if 14 ≤ buf.length ∧ octet buf 12 = 0x81 ∧ octet buf 13 = 0x00 then
    { s with vlanFrames := s.vlanFrames + 1 }
  else s

def noteType (s : PreflightStats) (buf : List UInt8) : PreflightStats :=
  match rawEthertype buf with
  | some et => { s with ethertypes := s.ethertypes.upsert et 0 (· + 1) }
  | none => { s with malformed := s.malformed + 1 }

def noteHeaders (s : PreflightStats) (buf : List UInt8) : PreflightStats :=
  noteType (noteTag { s with total := s.total + 1 } buf) buf

def scanned (self : PreflightScan) (packet : Packet) : PreflightScan :=
  let s := noteHeaders self.stats packet.2
  { self.noteTime packet.1 with
    stats := match parseFrame packet.1 packet.2 with
      | .ok _ => { s with classifiable := s.classifiable + 1 }
      | .error _ => { s with unclassified := s.unclassified + 1 } }

end PreflightScan

structure CoverageConserved (disc : DiscoveryEngine) (src : StreamingPcapSource)
    (stats : PreflightStats) : Prop where
  discovered : disc.totalFrames = src.recordsRead
  preflighted : stats.total = src.recordsRead
  classified : disc.classified = stats.classifiable
  unclassified : disc.unclassifiedTotal = stats.unclassified
  malformed : disc.unclassified.malformed = stats.malformed
  covered : stats.classifiable + stats.unclassified = stats.total
  typed : stats.ethertypes.total id + stats.malformed = stats.total
  bounded : ∀ et, (disc.unclassified.byEthertype.value et).getD 0 ≤
    (stats.ethertypes.value et).getD 0

namespace Proof
variable {ε : Type}

theorem noteTime_stats (scan : PreflightScan) (ts : UInt64) :
    (scan.noteTime ts).stats = scan.stats := by
  unfold PreflightScan.noteTime
  split
  · rfl
  split
  · rfl
  · rfl

theorem isTagged_ok (buf : List UInt8) : (PreflightScan.isTagged buf : Except (Stop ε) Bool) =
    .ok (decide (14 ≤ buf.length ∧ octet buf 12 = 0x81 ∧ octet buf 13 = 0x00)) := by
  unfold PreflightScan.isTagged
  by_cases short : buf.length < 14
  · have few : ¬ 14 ≤ buf.length := by omega
    rw [if_pos short]
    simp [few]
    rfl
  · have long : 14 ≤ buf.length := by omega
    rw [if_neg short, byteAt_octet (by omega : 12 < buf.length),
      byteAt_octet (by omega : 13 < buf.length)]
    simp [long]
    rfl

theorem scanFrame_eq (scan : PreflightScan) (packet : Packet) :
    (scan.scanFrame packet : Except (Stop ε) PreflightScan) = .ok (scan.scanned packet) := by
  obtain ⟨ts, buf⟩ := packet
  unfold PreflightScan.scanFrame PreflightScan.scanned PreflightScan.noteHeaders
    PreflightScan.noteType PreflightScan.noteTag tryParse
  simp only [isTagged_ok, ethertypeOf_ok, bind, Except.bind, noteTime_stats, decide_eq_true_eq]
  rcases parseFrame_cases ts buf with ⟨proto, parsed⟩ | ⟨error, failed⟩
  · simp only [parsed]
    rfl
  · simp only [failed]
    rfl

section
variable {packet : Packet} (packets : List Packet)

theorem acceptedFrames_ok {f : DecodedFieldbusFrame}
    (parsed : parseFrame packet.1 packet.2 = .ok f) :
    acceptedFrames (packet :: packets) = f :: acceptedFrames packets := by
  rw [acceptedFrames, List.filterMap_cons, parsed]
  rfl

theorem acceptedFrames_err {stop : Stop ParseError}
    (failed : parseFrame packet.1 packet.2 = .error stop) :
    acceptedFrames (packet :: packets) = acceptedFrames packets := by
  rw [acceptedFrames, List.filterMap_cons, failed]
  rfl

theorem rejectedTypes_ok {f : DecodedFieldbusFrame}
    (parsed : parseFrame packet.1 packet.2 = .ok f) :
    rejectedTypes (packet :: packets) = rejectedTypes packets := by
  rw [rejectedTypes, List.filterMap_cons, parsed]
  rfl

theorem rejectedTypes_err {stop : Stop ParseError}
    (failed : parseFrame packet.1 packet.2 = .error stop) :
    rejectedTypes (packet :: packets) = rawEthertype packet.2 :: rejectedTypes packets := by
  rw [rejectedTypes, List.filterMap_cons, failed]
  rfl

end

theorem discovered_foldl (disc : DiscoveryEngine) (packets : List Packet) :
    packets.foldl DiscoveryEngine.discovered disc =
      { totalFrames := disc.totalFrames + packets.length
        streams := (acceptedFrames packets).foldl (Table.accumulate (·.streamKey) .new .take)
          disc.streams
        unclassified :=
          { byEthertype := (rejectedTypes packets).reduceOption.foldl Table.count
              disc.unclassified.byEthertype
            malformed := disc.unclassified.malformed +
              (rejectedTypes packets).countP (·.isNone) } } := by
  induction packets generalizing disc with
  | nil => rfl
  | cons packet packets ih =>
      rw [List.foldl_cons, ih, List.length_cons, Nat.add_comm packets.length, ← Nat.add_assoc]
      rcases parseFrame_cases packet.1 packet.2 with ⟨proto, parsed⟩ | ⟨error, failed⟩
      · simp only [DiscoveryEngine.discovered, parsed, acceptedFrames_ok _ parsed,
          rejectedTypes_ok _ parsed]
        rfl
      · rw [acceptedFrames_err _ failed, rejectedTypes_err _ failed]
        cases type : rawEthertype packet.2 with
        | some et =>
            simp only [DiscoveryEngine.discovered, failed, type,
              DiscoveryEngine.observeUnclassified, List.reduceOption_cons_of_some,
              List.countP_cons, Option.isNone_some]
            rfl
        | none =>
            simp only [DiscoveryEngine.discovered, failed, type,
              DiscoveryEngine.observeUnclassified, List.reduceOption_cons_of_none,
              List.countP_cons, Option.isNone_none, if_true]
            rw [Nat.add_comm (List.countP _ _), ← Nat.add_assoc]

structure Scanned (packets : List Packet) (before after : PreflightStats) : Prop where
  total : after.total = before.total + packets.length
  classifiable : after.classifiable = before.classifiable + (acceptedFrames packets).length
  unclassified : after.unclassified = before.unclassified + (rejectedTypes packets).length
  malformed : after.malformed =
    before.malformed + (packets.map fun packet => rawEthertype packet.2).countP (·.isNone)
  ethertypes : after.ethertypes =
    (packets.map fun packet => rawEthertype packet.2).reduceOption.foldl Table.count
      before.ethertypes

theorem noteTag_eq (s : PreflightStats) (buf : List UInt8) :
    ∃ n, PreflightScan.noteTag s buf = { s with vlanFrames := n } := by
  unfold PreflightScan.noteTag
  split
  · exact ⟨_, rfl⟩
  · exact ⟨s.vlanFrames, rfl⟩

theorem noteHeaders_scanned (s : PreflightStats) (buf : List UInt8) :
    (PreflightScan.noteHeaders s buf).total = s.total + 1 ∧
      (PreflightScan.noteHeaders s buf).classifiable = s.classifiable ∧
      (PreflightScan.noteHeaders s buf).unclassified = s.unclassified ∧
      (PreflightScan.noteHeaders s buf).malformed =
        s.malformed + [rawEthertype buf].countP (·.isNone) ∧
      (PreflightScan.noteHeaders s buf).ethertypes =
        [rawEthertype buf].reduceOption.foldl Table.count s.ethertypes := by
  unfold PreflightScan.noteHeaders PreflightScan.noteType
  obtain ⟨n, tag⟩ := noteTag_eq { s with total := s.total + 1 } buf
  rw [tag]
  cases rawEthertype buf with
  | some et => exact ⟨rfl, rfl, rfl, rfl, rfl⟩
  | none => exact ⟨rfl, rfl, rfl, rfl, rfl⟩

theorem scanned_one (scan : PreflightScan) (packet : Packet) :
    Scanned [packet] scan.stats (scan.scanned packet).stats := by
  obtain ⟨total, classifiable, unclassified, malformed, ethertypes⟩ :=
    noteHeaders_scanned scan.stats packet.2
  unfold PreflightScan.scanned
  rcases parseFrame_cases packet.1 packet.2 with ⟨proto, parsed⟩ | ⟨error, failed⟩
  · simp only [parsed]
    constructor
    · exact total
    · rw [acceptedFrames_ok _ parsed]
      exact congrArg (· + 1) classifiable
    · rw [rejectedTypes_ok _ parsed]
      exact unclassified
    · exact malformed
    · exact ethertypes
  · simp only [failed]
    constructor
    · exact total
    · rw [acceptedFrames_err _ failed]
      exact classifiable
    · rw [rejectedTypes_err _ failed]
      exact congrArg (· + 1) unclassified
    · exact malformed
    · exact ethertypes

theorem Scanned.cons {packet : Packet} {packets : List Packet} {before mid after : PreflightStats}
    (here : Scanned [packet] before mid) (rest : Scanned packets mid after) :
    Scanned (packet :: packets) before after := by
  have accepted : (acceptedFrames (packet :: packets)).length =
      (acceptedFrames [packet]).length + (acceptedFrames packets).length := by
    rw [← List.length_append, acceptedFrames, acceptedFrames, acceptedFrames,
      ← List.filterMap_append]
    rfl
  have rejected : (rejectedTypes (packet :: packets)).length =
      (rejectedTypes [packet]).length + (rejectedTypes packets).length := by
    rw [← List.length_append, rejectedTypes, rejectedTypes, rejectedTypes, ← List.filterMap_append]
    rfl
  constructor
  · rw [rest.total, here.total, List.length_cons, List.length_cons, List.length_nil]
    omega
  · rw [rest.classifiable, here.classifiable, accepted, Nat.add_assoc]
  · rw [rest.unclassified, here.unclassified, rejected, Nat.add_assoc]
  · rw [rest.malformed, here.malformed, List.map_cons, List.map_cons, List.map_nil,
      List.countP_cons, List.countP_cons, List.countP_nil]
    omega
  · rw [rest.ethertypes, here.ethertypes, ← List.foldl_append, ← List.reduceOption_append]
    rfl

theorem scanned_foldl (scan : PreflightScan) (packets : List Packet) :
    Scanned packets scan.stats (packets.foldl PreflightScan.scanned scan).stats := by
  induction packets generalizing scan with
  | nil => exact ⟨rfl, rfl, rfl, rfl, rfl⟩
  | cons packet packets ih => exact (scanned_one scan packet).cons (ih (scan.scanned packet))

theorem scan_eq (scan : PreflightScan) (packets : List Packet) :
    (packets.foldlM PreflightScan.scanFrame scan : Except (Stop ε) PreflightScan) =
      .ok (packets.foldl PreflightScan.scanned scan) := by
  have pass : (PreflightScan.scanFrame : _ → _ → Except (Stop ε) PreflightScan) =
      fun scan packet => pure (scan.scanned packet) := by
    funext scan packet
    exact scanFrame_eq scan packet
  rw [pass]
  exact List.foldlM_pure

theorem length_reduceOption {α : Type} (xs : List (Option α)) :
    xs.reduceOption.length + xs.countP (·.isNone) = xs.length := by
  rw [List.length_eq_reduceOption_length_add_filter_none, List.countP_eq_length_filter]

theorem classified_eq (packets : List Packet) :
    (packets.foldl DiscoveryEngine.discovered .new).classified =
      (acceptedFrames packets).length := by
  rw [discovered_foldl]
  refine Table.total_accumulated (fun profile => profile.lastTsNs.isSome = true) ?first ?more _
  case first =>
    intro key f
    rw [take_lastTsNs, take_interarrival]
    exact ⟨rfl, rfl⟩
  case more =>
    intro profile f started
    obtain ⟨prev, is⟩ := Option.isSome_iff_exists.mp started
    rw [take_lastTsNs, take_interarrival, StreamProfile.recordGap, is]
    exact ⟨rfl, rfl⟩

theorem unclassified_eq (packets : List Packet) :
    (packets.foldl DiscoveryEngine.discovered .new).unclassifiedTotal =
      (rejectedTypes packets).length := by
  have tally : ((rejectedTypes packets).reduceOption.foldl Table.count Table.empty).total id =
      (rejectedTypes packets).reduceOption.length := Table.total_tally _
  rw [discovered_foldl, DiscoveryEngine.unclassifiedTotal]
  simp only [DiscoveryEngine.new, tally, Nat.zero_add]
  exact length_reduceOption _

theorem parse_short {ts : UInt64} {buf : List UInt8} (short : buf.length < 14) :
    parseFrame ts buf = .error (.err (.truncated buf.length)) := if_pos short

theorem rejected_none (packets : List Packet) :
    (rejectedTypes packets).countP (·.isNone) =
      (packets.map fun packet => rawEthertype packet.2).countP (·.isNone) := by
  induction packets with
  | nil => rfl
  | cons packet packets ih =>
      rw [List.map_cons, List.countP_cons]
      rcases parseFrame_cases packet.1 packet.2 with ⟨proto, parsed⟩ | ⟨error, failed⟩
      · have typed : (rawEthertype packet.2).isNone = false := by
          by_cases short : packet.2.length < 14
          · rw [parse_short short] at parsed
            cases parsed
          · unfold rawEthertype
            rw [if_neg short]
            split
            · rfl
            · rfl
        rw [rejectedTypes_ok _ parsed, ih, typed]
        rfl
      · rw [rejectedTypes_err _ failed, List.countP_cons, ih]

theorem rejected_sublist (packets : List Packet) :
    (rejectedTypes packets).Sublist (packets.map fun packet => rawEthertype packet.2) := by
  induction packets with
  | nil => exact List.nil_sublist _
  | cons packet packets ih =>
      rw [List.map_cons]
      rcases parseFrame_cases packet.1 packet.2 with ⟨proto, parsed⟩ | ⟨error, failed⟩
      · rw [rejectedTypes_ok _ parsed]
        exact ih.cons _
      · rw [rejectedTypes_err _ failed]
        exact ih.cons_cons _

theorem accepted_rejected (packets : List Packet) :
    (acceptedFrames packets).length + (rejectedTypes packets).length = packets.length := by
  induction packets with
  | nil => rfl
  | cons packet packets ih =>
      rcases parseFrame_cases packet.1 packet.2 with ⟨proto, parsed⟩ | ⟨error, failed⟩
      · rw [acceptedFrames_ok _ parsed, rejectedTypes_ok _ parsed, List.length_cons,
          List.length_cons]
        omega
      · rw [acceptedFrames_err _ failed, rejectedTypes_err _ failed, List.length_cons,
          List.length_cons]
        omega

theorem stats_eq (packets : List Packet) :
    Scanned packets {} (packets.foldl PreflightScan.scanned {}).stats := scanned_foldl {} packets

theorem conserved (packets : List Packet) {src src' : StreamingPcapSource}
    (read : src.recordsRead = packets.length) :
    CoverageConserved (packets.foldl DiscoveryEngine.discovered .new) src
      ((packets.foldl PreflightScan.scanned {}).finish src') := by
  obtain ⟨total, classifiable, unclassified, malformed, ethertypes⟩ := stats_eq packets
  simp only [Nat.zero_add] at total classifiable unclassified malformed
  -- A frame has an EtherType in the raw bytes, or it is malformed.
  have counted := Table.total_tally
    (packets.map fun packet => rawEthertype packet.2).reduceOption
  have typed := length_reduceOption (packets.map fun packet => rawEthertype packet.2)
  rw [List.length_map] at typed
  have all := accepted_rejected packets
  constructor
  case discovered =>
    rw [discovered_foldl, read]
    exact Nat.zero_add _
  case preflighted => exact total.trans read.symm
  case classified => exact (classified_eq packets).trans classifiable.symm
  case unclassified => exact (unclassified_eq packets).trans unclassified.symm
  case malformed =>
    rw [discovered_foldl]
    exact (Nat.zero_add _).trans ((rejected_none packets).trans malformed.symm)
  case covered =>
    show (packets.foldl PreflightScan.scanned {}).stats.classifiable +
      (packets.foldl PreflightScan.scanned {}).stats.unclassified =
        (packets.foldl PreflightScan.scanned {}).stats.total
    omega
  case typed =>
    show (packets.foldl PreflightScan.scanned {}).stats.ethertypes.total id +
      (packets.foldl PreflightScan.scanned {}).stats.malformed =
        (packets.foldl PreflightScan.scanned {}).stats.total
    rw [ethertypes, malformed, total, ← typed, ← counted]
    rfl
  case bounded =>
    intro et
    have seen : (packets.foldl PreflightScan.scanned {}).stats.ethertypes =
        Table.tally (packets.map fun packet => rawEthertype packet.2).reduceOption := ethertypes
    have rejected : (packets.foldl DiscoveryEngine.discovered .new).unclassified.byEthertype =
        Table.tally (rejectedTypes packets).reduceOption := by
      rw [discovered_foldl]
      rfl
    show _ ≤ (((packets.foldl PreflightScan.scanned {}).stats.ethertypes).value et).getD 0
    rw [seen, rejected, Table.value_tally, Table.value_tally]
    exact ((rejected_sublist packets).filterMap id).countP_le

theorem coverage_conserved (profile : Profile) {bytes : List UInt8}
    (schedule schedule' : List Response) {s : StreamingPcapSource}
    (accepted : StreamingPcapSource.new ⟨bytes, schedule⟩ = .ok s) {fuel : Nat}
    (enough : bytes.length < fuel) : ∃ disc src verdict stats,
      discover profile fuel ⟨bytes, schedule⟩ = .ok (disc, src) ∧
      computePreflight profile fuel ⟨bytes, schedule'⟩ = .ok (verdict, stats) ∧
      CoverageConserved disc src stats := by
  obtain ⟨fmt, long, magic, at_⟩ := stream_opened accepted
  obtain ⟨s', accepted', at'⟩ := stream_opens long magic schedule'
  obtain ⟨frames, ending, reads⟩ := reads_total fmt (bytes.drop 24)
  have few : frames.length < fuel := by
    have size := reads_length reads
    rw [List.length_drop] at size
    omega
  obtain ⟨src, discovered, finished⟩ :=
    eachFrame_eq profile discoverFrame reads at_ fuel few .new
  obtain ⟨src', preflighted, -⟩ := eachFrame_eq profile
    (PreflightScan.scanFrame : _ → _ → Except (Stop Empty) _) reads at' fuel few {}
  rw [discover_eq] at discovered
  rw [scan_eq] at preflighted
  let scan := (frames.map Prod.fst).foldl PreflightScan.scanned {}
  have read : src.recordsRead = (frames.map Prod.fst).length := by
    rw [finished.recordsRead, Nat.zero_add, List.length_map]
  refine ⟨_, src, (scan.finish src').verdict, scan.finish src', ?_, ?_,
    conserved (frames.map Prod.fst) read⟩
  · rw [discover, accepted]
    exact discovered
  · rw [computePreflight, accepted']
    simp only [preflighted]
    rfl

theorem coverage_conserved_body : ∃ disc src verdict stats,
    discover .dev 43 ⟨twoByteCapture, []⟩ = .ok (disc, src) ∧
    computePreflight .dev 43 ⟨twoByteCapture, [.interrupted]⟩ = .ok (verdict, stats) ∧
    CoverageConserved disc src stats := by
  obtain ⟨s, accepted⟩ : ∃ s, StreamingPcapSource.new ⟨twoByteCapture, []⟩ = .ok s := ⟨_, rfl⟩
  exact coverage_conserved .dev [] [.interrupted] accepted (by decide)

end Proof
end CausalWorks
