import CausalWorks.Proof.Timing
import CausalWorks.Proof.Transport
import CausalWorks.Proof.Vlan

/-!
# The origin of time

A capture whose clock was set differently has every timestamp moved by the same amount. No tool
reports anything else of it, but for the moved timestamps themselves.
-/

namespace CausalWorks
open Keyed (Table)

def Packet.later (d : UInt64) (packet : Packet) : Packet := (packet.1 + d, packet.2)

def DecodedFieldbusFrame.later (d : UInt64) (self : DecodedFieldbusFrame) : DecodedFieldbusFrame :=
  { self with tapTsNs := self.tapTsNs + d }

def StateTransition.later (d : UInt64) (self : StateTransition) : StateTransition :=
  { self with tsNs := self.tsNs + d }

def StreamProfile.later (d : UInt64) (self : StreamProfile) : StreamProfile :=
  { self with lastTsNs := self.lastTsNs.map (· + d) }

def Fits (d ts : UInt64) : Prop := ts.toNat + d.toNat < 2 ^ 64

structure OriginFree (packets : List Packet) (d : UInt64) : Prop where
  completes : ∀ (CAP : Nat) profile nodes edges tripNode, 0 < CAP →
    ((∃ results, replayResults CAP profile (.new nodes edges tripNode) packets = .ok results) ↔
      ∃ results, replayResults CAP profile (.new nodes edges tripNode)
        (packets.map (Packet.later d)) = .ok results)
  engine : ∀ (CAP : Nat) profile nodes edges tripNode results, 0 < CAP →
    replayResults CAP profile (.new nodes edges tripNode) packets = .ok results →
    replayResults CAP profile (.new nodes edges tripNode) (packets.map (Packet.later d)) =
      .ok (results.map (Option.map (·.map (·.later d))))
  discovery : ∀ ε, ∃ disc disc',
    (packets.foldlM discoverFrame .new : Except (Stop ε) DiscoveryEngine) = .ok disc ∧
    ((packets.map (Packet.later d)).foldlM discoverFrame .new : Except (Stop ε) _) = .ok disc' ∧
    (∀ key, disc'.streams.value key = (disc.streams.value key).map (·.later d)) ∧
    disc'.unclassified = disc.unclassified ∧ disc'.totalFrames = disc.totalFrames
  preflight : ∀ ε, ∃ scan scan',
    (packets.foldlM PreflightScan.scanFrame {} : Except (Stop ε) PreflightScan) = .ok scan ∧
    ((packets.map (Packet.later d)).foldlM PreflightScan.scanFrame {} : Except (Stop ε) _) =
      .ok scan' ∧ ∀ src, scan'.finish src = scan.finish src

namespace Proof
variable {d : UInt64} {packets : List Packet} {manifest : DependencyManifest}

theorem toNat_later {ts : UInt64} (fits : Fits d ts) : (ts + d).toNat = ts.toNat + d.toNat := by
  rw [UInt64.toNat_add, Nat.mod_eq_of_lt fits]

theorem saturatingSub_later {t u : UInt64} (ht : Fits d t) (hu : Fits d u) :
    saturatingSub (u + d) (t + d) = saturatingSub u t := by
  rw [← UInt64.toNat_inj, saturatingSub_toNat, saturatingSub_toNat, toNat_later ht, toNat_later hu]
  omega

theorem parse_later (packet : Packet) :
    (∃ proto, parseFrame packet.1 packet.2 = .ok ⟨packet.1, proto, packet.2⟩ ∧
      parseFrame (packet.1 + d) packet.2 = .ok ⟨packet.1 + d, proto, packet.2⟩) ∨
    ∃ error error', parseFrame packet.1 packet.2 = .error (.err error) ∧
      parseFrame (packet.1 + d) packet.2 = .error (.err error') := by
  rcases parseFrame_cases packet.1 packet.2 with ⟨proto, parsed⟩ | ⟨error, failed⟩
  · exact Or.inl ⟨proto, parsed, parseFrame_iff.mpr (parseFrame_iff.mp parsed)⟩
  · rcases parseFrame_cases (packet.1 + d) packet.2 with ⟨proto, parsed⟩ | ⟨error', failed'⟩
    · rw [parseFrame_iff.mpr (parseFrame_iff.mp parsed)] at failed
      cases failed
    · exact Or.inr ⟨error, error', failed, failed'⟩

theorem acceptedFrames_later (packets : List Packet) :
    acceptedFrames (packets.map (Packet.later d)) =
      (acceptedFrames packets).map (DecodedFieldbusFrame.later d) := by
  induction packets with
  | nil => rfl
  | cons packet packets ih =>
      rw [List.map_cons]
      rcases @parse_later d packet with ⟨proto, parsed, parsed'⟩ | ⟨error, error', failed, failed'⟩
      · rw [acceptedFrames_ok packets parsed, List.map_cons, ← ih]
        exact acceptedFrames_ok _ parsed'
      · rw [acceptedFrames_err packets failed, ← ih]
        exact acceptedFrames_err _ failed'

theorem reading_later (packet : Packet) :
    reading manifest (packet.later d) = reading manifest packet := by
  rw [reading_eq, reading_eq]
  rcases @parse_later d packet with ⟨proto, parsed, parsed'⟩ | ⟨error, error', failed, failed'⟩
  · rw [parsed, show parseFrame (packet.later d).1 (packet.later d).2 = _ from parsed']
    rfl
  · rw [failed, show parseFrame (packet.later d).1 (packet.later d).2 = _ from failed']

theorem later_relabels (d : UInt64) : Relabels (StateTransition.later d) :=
  ⟨fun _ => rfl, fun _ => rfl⟩

theorem keepsSpans_later {instances : List StateTransition}
    (fits : ∀ t ∈ instances, Fits d t.tsNs) : KeepsSpans (StateTransition.later d) instances :=
  fun t ht u hu => saturatingSub_later (fits t ht) (fits u hu)

theorem capture_later (history : History) (packet : Packet) :
    manifest.capture (history.map (·.later d)) (packet.later d) =
      ((manifest.capture history packet).1.map (·.later d),
        (manifest.capture history packet).2.map (·.later d)) := by
  rw [capture_eq, capture_eq, reading_later]
  cases reading manifest packet with
  | none => rfl
  | some assigned =>
      have trips := @isTrip_map _ manifest (later_relabels d) history
        ⟨.ofNat history.length, assigned.1, packet.1, assigned.2⟩
      simp only [List.length_map]
      rw [show (⟨.ofNat history.length, assigned.1, (packet.later d).1, assigned.2⟩ :
          StateTransition) = StateTransition.later d ⟨.ofNat history.length, assigned.1, packet.1,
            assigned.2⟩ from rfl, trips]
      split <;> rfl

theorem analyses_later {keep : Nat} {history : History} (packets : List Packet)
    (early : ∀ t ∈ history, Fits d t.tsNs) (fits : ∀ packet ∈ packets, Fits d packet.1) :
    analyses manifest.capture manifest (List.take keep) (history.map (·.later d))
        (packets.map (Packet.later d)) =
      (analyses manifest.capture manifest (List.take keep) history packets).map
        (Option.map (·.map (·.later d))) := by
  induction packets generalizing history with
  | nil => rfl
  | cons packet packets ih =>
      obtain ⟨now, rest⟩ := List.forall_mem_cons.mp fits
      have early' : ∀ t ∈ (manifest.capture history packet).1, Fits d t.tsNs := by
        rcases capture_cases manifest history packet with same | ⟨t, -, time, pushed, -⟩
        · rwa [same]
        · rw [pushed]
          exact List.forall_mem_cons.mpr ⟨time ▸ now, early⟩
      simp only [List.map_cons, analyses, capture_later]
      rw [ih early' rest, Option.map_map]
      congr 1
      cases tripped : (manifest.capture history packet).2 with
      | none => rfl
      | some trip =>
          rw [capture_trip tripped] at early' ⊢
          rw [Option.map_some, Option.map_some, Option.map_some, Function.comp_apply,
            ← List.map_take]
          congr 1
          refine attribution_map (keepsSpans_later fun t member => ?_) (later_relabels d)
          rcases List.mem_cons.mp member with rfl | older
          · exact early' t List.mem_cons_self
          · exact early' t (List.mem_of_mem_take older)

theorem own_later (key : StreamKey) (frames : List DecodedFieldbusFrame) :
    Table.own (·.streamKey) key (frames.map (·.later d)) =
      (Table.own (·.streamKey) key frames).map (·.later d) := by
  rw [Table.own, Table.own, List.filter_map]
  rfl

theorem comparePayload_later (profile : StreamProfile) (payload : Option (List UInt8)) :
    (profile.later d).comparePayload payload = (profile.comparePayload payload).later d := by
  cases payload with
  | none => rfl
  | some p =>
      unfold StreamProfile.comparePayload StreamProfile.later
      by_cases first : profile.firstPayload.isEmpty = true
      · simp only [first, if_true]
      · simp only [first, if_false, Bool.false_eq_true]

theorem take_later {profile : StreamProfile} {f : DecodedFieldbusFrame}
    (before : ∀ ts ∈ profile.lastTsNs, Fits d ts) (now : Fits d f.tapTsNs) :
    (profile.later d).take (f.later d) = (profile.take f).later d := by
  have gap : (profile.later d).recordGap (f.tapTsNs + d) =
      (profile.recordGap f.tapTsNs).later d := by
    obtain ⟨key, interarrival, lastTsNs, firstPayload, xorMask, aligned⟩ := profile
    cases lastTsNs with
    | none => rfl
    | some prev =>
        simp only [StreamProfile.later, StreamProfile.recordGap, Option.map_some,
          saturatingSub_later (before prev rfl) now]
  unfold StreamProfile.take StreamProfile.observe
  rw [show (f.later d).tapTsNs = f.tapTsNs + d from rfl, gap, ← comparePayload_later]
  rfl

theorem foldl_take_later {profile : StreamProfile} (frames : List DecodedFieldbusFrame)
    (before : ∀ ts ∈ profile.lastTsNs, Fits d ts) (fits : ∀ f ∈ frames, Fits d f.tapTsNs) :
    (frames.map (·.later d)).foldl StreamProfile.take (profile.later d) =
      (frames.foldl StreamProfile.take profile).later d := by
  induction frames generalizing profile with
  | nil => rfl
  | cons f frames ih =>
      obtain ⟨now, rest⟩ := List.forall_mem_cons.mp fits
      rw [List.map_cons, List.foldl_cons, List.foldl_cons, take_later before now]
      refine ih (fun ts last => ?_) rest
      rw [take_lastTsNs] at last
      obtain rfl := Option.some.inj last
      exact now

theorem stream_later (frames : List DecodedFieldbusFrame)
    (fits : ∀ f ∈ frames, Fits d f.tapTsNs) (key : StreamKey) :
    ((frames.map (·.later d)).foldl (Table.accumulate (·.streamKey) StreamProfile.new
        StreamProfile.take) Table.empty).value key =
      ((frames.foldl (Table.accumulate (·.streamKey) StreamProfile.new StreamProfile.take)
        Table.empty).value key).map (StreamProfile.later d) := by
  rw [Table.value_accumulated, Table.value_accumulated, own_later]
  by_cases none_ : Table.own (·.streamKey) key frames = []
  · rw [none_]
    rfl
  · rw [if_neg none_, if_neg (by simpa using none_), Option.map_some]
    have fresh : (StreamProfile.new key).later d = .new key := rfl
    rw [← fresh]
    refine congrArg some (foldl_take_later _ ?_ ?_)
    · exact fun ts is => by cases is
    · exact fun f own => fits f (List.mem_filter.mp own).1

theorem rejectedTypes_later (packets : List Packet) :
    rejectedTypes (packets.map (Packet.later d)) = rejectedTypes packets := by
  induction packets with
  | nil => rfl
  | cons packet packets ih =>
      rw [List.map_cons]
      rcases @parse_later d packet with ⟨proto, parsed, parsed'⟩ | ⟨error, error', failed, failed'⟩
      · rw [rejectedTypes_ok packets parsed, ← ih]
        exact rejectedTypes_ok _ parsed'
      · rw [rejectedTypes_err packets failed, ← ih]
        exact rejectedTypes_err _ failed'

structure ScanLater (d : UInt64) (scan scan' : PreflightScan) : Prop where
  stats : scan'.stats = scan.stats
  minDelta : scan'.minDelta = scan.minDelta
  firstTs : scan'.firstTs = scan.firstTs.map (· + d)
  lastTs : scan.firstTs ≠ none → scan'.lastTs = scan.lastTs + d
  fits : ∀ ts ∈ scan.firstTs, Fits d ts ∧ Fits d scan.lastTs

theorem noteTime_later {scan scan' : PreflightScan} (later : ScanLater d scan scan') {ts : UInt64}
    (now : Fits d ts) : ScanLater d (scan.noteTime ts) (scan'.noteTime (ts + d)) := by
  obtain ⟨stats, firstTs, lastTs, minDelta⟩ := scan
  obtain ⟨stats', firstTs', lastTs', minDelta'⟩ := scan'
  obtain ⟨stats_eq, min_eq, first_eq, last, fits⟩ := later
  dsimp only at stats_eq min_eq first_eq last fits
  subst stats_eq min_eq first_eq
  cases firstTs with
  | none => exact ⟨rfl, rfl, rfl, fun _ => rfl, fun _ is => by cases is; exact ⟨now, now⟩⟩
  | some first =>
      obtain ⟨start, before⟩ := fits first rfl
      have lastTs_eq : lastTs' = lastTs + d := last (by simp)
      have forward : lastTs + d ≤ ts + d ↔ lastTs ≤ ts := by
        rw [UInt64.le_iff_toNat_le, UInt64.le_iff_toNat_le, toNat_later before, toNat_later now]
        omega
      have gap : ts + d - (lastTs + d) = ts - lastTs := by grind
      subst lastTs_eq
      unfold PreflightScan.noteTime
      simp only [Option.map_some, Option.isNone_some, Bool.false_eq_true, if_false, forward, gap]
      split
      · exact ⟨rfl, rfl, rfl, fun _ => rfl, fun _ is => by cases is; exact ⟨start, now⟩⟩
      · exact ⟨rfl, rfl, rfl, fun _ => rfl, fun _ is => by cases is; exact ⟨start, now⟩⟩

theorem scanned_later {scan scan' : PreflightScan} (later : ScanLater d scan scan')
    {packet : Packet} (now : Fits d packet.1) :
    ScanLater d (scan.scanned packet) (scan'.scanned (packet.later d)) := by
  obtain ⟨-, minDelta, firstTs, lastTs, fits⟩ := noteTime_later later now
  refine ⟨?_, minDelta, firstTs, lastTs, fits⟩
  unfold PreflightScan.scanned
  rcases @parse_later d packet with ⟨proto, parsed, parsed'⟩ | ⟨error, error', failed, failed'⟩
  · simp only [Packet.later, parsed, parsed', later.stats]
  · simp only [Packet.later, failed, failed', later.stats]

theorem scan_later {scan scan' : PreflightScan} (later : ScanLater d scan scan')
    (fits : ∀ packet ∈ packets, Fits d packet.1) : ScanLater d
      (packets.foldl PreflightScan.scanned scan)
      ((packets.map (Packet.later d)).foldl PreflightScan.scanned scan') := by
  induction packets generalizing scan scan' with
  | nil => exact later
  | cons packet packets ih =>
      obtain ⟨now, rest⟩ := List.forall_mem_cons.mp fits
      exact ih (scanned_later later now) rest

theorem finish_later {scan scan' : PreflightScan} (later : ScanLater d scan scan')
    (src : StreamingPcapSource) : scan'.finish src = scan.finish src := by
  obtain ⟨stats, minDelta, firstTs, lastTs, fits⟩ := later
  have span : (scan'.firstTs.map fun f => saturatingSub scan'.lastTs f) =
      scan.firstTs.map fun f => saturatingSub scan.lastTs f := by
    rw [firstTs, Option.map_map]
    cases first : scan.firstTs with
    | none => rfl
    | some f =>
        obtain ⟨start, last⟩ := fits f first
        rw [lastTs (by simp [first]), Option.map_some, Option.map_some, Function.comp_apply,
          saturatingSub_later start last]
  unfold PreflightScan.finish
  rw [span, stats, minDelta]

theorem origin_free {packets : List Packet} {d : UInt64}
    (fits : ∀ packet ∈ packets, packet.1.toNat + d.toNat < 2 ^ 64) : OriginFree packets d := by
  have frames : ∀ f ∈ acceptedFrames packets, Fits d f.tapTsNs := by
    intro f accepted
    obtain ⟨packet, member, -, time⟩ := acceptedFrames_time accepted
    exact time ▸ fits packet member
  have completes : ∀ (CAP : Nat) profile nodes edges tripNode, 0 < CAP →
      ((∃ results, replayResults CAP profile (.new nodes edges tripNode) packets = .ok results) ↔
        ∃ results, replayResults CAP profile (.new nodes edges tripNode)
          (packets.map (Packet.later d)) = .ok results) := by
    intro CAP profile nodes edges tripNode positive
    have indexed := new_indexed nodes edges tripNode
    have few : (packets.map (Packet.later d)).countP (claimed (.new nodes edges tripNode)) =
        packets.countP (claimed (.new nodes edges tripNode)) := by
      rw [List.countP_map]
      exact List.countP_congr fun packet _ => by
        rw [Function.comp_apply, claimed, reading_later, claimed]
    rw [replayResults_iff positive indexed, replayResults_iff positive indexed,
      acceptedFrames_later, List.forall_mem_map, few]
    have same : ∀ f : DecodedFieldbusFrame, (DependencyManifest.new nodes edges tripNode).classify
        profile (f.later d) = (DependencyManifest.new nodes edges tripNode).classify profile f :=
      fun f => classify_proto profile _ rfl
    simp only [same]
    exact Iff.rfl
  constructor
  case completes => exact completes
  case engine =>
    intro CAP profile nodes edges tripNode results positive done
    have indexed := new_indexed nodes edges tripNode
    obtain ⟨results', done'⟩ := (completes CAP profile nodes edges tripNode positive).mp ⟨_, done⟩
    rw [done', replayResults_eq positive indexed done, replayResults_eq positive indexed done']
    exact congrArg Except.ok (@analyses_later d _ CAP [] packets (by simp) fits)
  case discovery =>
    intro ε
    refine ⟨_, _, discover_eq _ _, discover_eq _ _, ?_⟩
    rw [discovered_foldl, discovered_foldl, acceptedFrames_later, rejectedTypes_later,
      List.length_map]
    exact ⟨stream_later _ frames, rfl, rfl⟩
  case preflight =>
    intro ε
    have later := @scan_later d packets {} {} ⟨rfl, rfl, rfl, fun is => absurd rfl is,
      fun _ is => by cases is⟩ fits
    exact ⟨_, _, scan_eq _ _, scan_eq _ _, finish_later later⟩

theorem origin_free_cell : OriginFree
    [(0, Cell.plcBytes true), (1, []), (5, Cell.plcBytes false)] 1000 :=
  origin_free (by decide)

end Proof
end CausalWorks
