import CausalWorks.Proof.Detection
import CausalWorks.Proof.Truncation
import CausalWorks.Proof.Vlan

/-!
# The snapshot length that a frame survives

A capture tool keeps the first bytes of every frame. An accepted frame is still accepted when it is
cut behind its extent, and rejected when it is cut before.
-/

namespace CausalWorks

/-- How many bytes of an accepted frame the parser needs. -/
def extent (buf : List UInt8) : Nat :=
  let L := linkEnd buf
  let U := L + 4 * ihl buf L
  if beWord buf (L - 2) = 0x8892 then L + 3
  else if octet buf (L + 9) = 6 then U + 8
  else U + (beWord buf (U + 4)).toNat

def Packet.snapped (snaplen : Nat) (packet : Packet) : Packet := (packet.1, packet.2.take snaplen)

def Packet.survivor (snaplen : Nat) (packet : Packet) : Packet :=
  if extent packet.2 ≤ snaplen then packet else (packet.1, [])

structure SnapLength (snaplen : Nat) (packets : List Packet) : Prop where
  kept_iff : ∀ packet ∈ packets, ∀ proto,
    parseFrame packet.1 packet.2 = .ok ⟨packet.1, proto, packet.2⟩ →
      (parseFrame packet.1 (packet.2.take snaplen) =
          .ok ⟨packet.1, proto, packet.2.take snaplen⟩ ↔ extent packet.2 ≤ snaplen) ∧
      (snaplen < extent packet.2 →
        ∃ error, parseFrame packet.1 (packet.2.take snaplen) = .error (.err error))
  engine : ∀ (CAP : Nat) profile manifest,
    replayResults CAP profile manifest (packets.map (Packet.snapped snaplen)) =
      replayResults CAP profile manifest (packets.map (Packet.survivor snaplen))
  unharmed : (∀ packet ∈ packets, ∀ f, parseFrame packet.1 packet.2 = .ok f →
      extent packet.2 ≤ snaplen) → ∀ (CAP : Nat) profile manifest,
    replayResults CAP profile manifest (packets.map (Packet.snapped snaplen)) =
      replayResults CAP profile manifest packets

namespace Proof
variable {buf : List UInt8} {L snaplen : Nat} {proto : IndustrialProtocol}

theorem behind_link (buf : List UInt8) : 14 ≤ linkEnd buf := by
  unfold linkEnd
  split <;> omega

theorem extent_profinet (etherType : beWord buf (linkEnd buf - 2) = 0x8892) :
    extent buf = linkEnd buf + 3 := if_pos etherType

theorem extent_s7comm (ip : Ipv4At buf (linkEnd buf) 6) :
    extent buf = linkEnd buf + 4 * ihl buf (linkEnd buf) + 8 := by
  unfold extent
  dsimp only
  rw [ip.etherType, ip.transport_eq]
  rfl

theorem extent_udp (ip : Ipv4At buf (linkEnd buf) 17) :
    extent buf = linkEnd buf + 4 * ihl buf (linkEnd buf) +
      (beWord buf (linkEnd buf + 4 * ihl buf (linkEnd buf) + 4)).toNat := by
  unfold extent
  dsimp only
  rw [ip.etherType, ip.transport_eq]
  rfl

section
variable {cut : List UInt8} (leading : cut <+: buf)
include leading

theorem ipv4At_survives {transport : UInt8} (behind : 2 ≤ L) (ip : Ipv4At buf L transport)
    (room : L + 4 * ihl buf L + 8 ≤ cut.length) : Ipv4At cut L transport := by
  obtain ⟨etherType, words, -, transport_eq⟩ := ip
  rw [← beWord_leading leading (by omega)] at etherType
  rw [← octet_leading leading (by omega)] at transport_eq
  rw [← ihl_leading leading (by omega)] at words room
  exact ⟨etherType, words, room, transport_eq⟩

theorem udpAt_survives {U : Nat} (datagram : UdpAt buf U)
    (room : U + (beWord buf (U + 4)).toNat ≤ cut.length) : UdpAt cut U := by
  obtain ⟨header, -⟩ := datagram
  have enough : U + 8 ≤ cut.length := by omega
  rw [← beWord_leading leading (by omega)] at header room
  exact ⟨header, room⟩

theorem grammar_survives (accepted : Grammar buf (linkEnd buf) proto)
    (room : extent buf ≤ cut.length) : Grammar cut (linkEnd buf) proto := by
  have behind := behind_link buf
  cases accepted with
  | profinet etherType size =>
      rw [extent_profinet etherType] at room
      rw [← beWord_leading leading (by omega)] at etherType
      rw [← beWord_leading leading (by omega), ← octet_leading leading (by omega)]
      exact .profinet etherType room
  | s7comm ip port =>
      rw [extent_s7comm ip] at room
      have ip' := ipv4At_survives leading (by omega) ip room
      rw [← beWord_leading leading (by omega), ← beWord_leading leading (by omega),
        ← ihl_leading leading (by omega)] at port
      exact .s7comm ip' port
  | fanuc ip datagram port pose =>
      rw [extent_udp ip] at room
      have header := datagram.header
      have ip' := ipv4At_survives leading (by omega) ip (by omega)
      have datagram' := udpAt_survives leading datagram room
      have long := pose
      rw [← beWord_leading leading (by omega), ← ihl_leading leading (by omega)] at port pose
      rw [← leFloat_leading leading (by omega), ← leFloat_leading leading (by omega),
        ← leFloat_leading leading (by omega), ← ihl_leading leading (by omega)]
      rw [← ihl_leading leading (by omega)] at datagram'
      exact .fanuc ip' datagram' port pose
  | ros2 ip datagram port =>
      rw [extent_udp ip] at room
      have header := datagram.header
      have ip' := ipv4At_survives leading (by omega) ip (by omega)
      have datagram' := udpAt_survives leading datagram room
      rw [← beWord_leading leading (by omega), ← ihl_leading leading (by omega)] at port
      rw [← beWord_leading leading (by omega), ← beWord_leading leading (by omega),
        ← ihl_leading leading (by omega)]
      rw [← ihl_leading leading (by omega)] at datagram'
      exact .ros2 ip' datagram' port

theorem extent_of_accepted (accepted : Grammar cut (linkEnd buf) proto) :
    extent buf ≤ cut.length := by
  have behind := behind_link buf
  have whole := grammar_leading leading (by omega) accepted
  cases accepted with
  | profinet etherType size =>
      rw [beWord_leading leading (by omega)] at etherType
      rwa [extent_profinet etherType]
  | s7comm ip port =>
      have size := ip.size
      rw [extent_s7comm (ipv4At_leading leading (by omega) ip), ← ihl_leading leading (by omega)]
      exact size
  | fanuc ip datagram port pose =>
      have room := ip.size
      have size := datagram.size
      rw [extent_udp (ipv4At_leading leading (by omega) ip), ← ihl_leading leading (by omega),
        ← beWord_leading leading (by omega)]
      exact size
  | ros2 ip datagram port =>
      have room := ip.size
      have size := datagram.size
      rw [extent_udp (ipv4At_leading leading (by omega) ip), ← ihl_leading leading (by omega),
        ← beWord_leading leading (by omega)]
      exact size

end

theorem parse_cut {ts : UInt64} (parsed : parseFrame ts buf = .ok ⟨ts, proto, buf⟩)
    (snaplen : Nat) :
    (extent buf ≤ snaplen ∧
      parseFrame ts (buf.take snaplen) = .ok ⟨ts, proto, buf.take snaplen⟩) ∨
    snaplen < extent buf ∧
      ∃ error, parseFrame ts (buf.take snaplen) = .error (.err error) := by
  obtain ⟨whole, accepted⟩ := parseFrame_iff.mp parsed
  have leading := List.take_prefix snaplen buf
  have bounds := extent_of_accepted (List.prefix_rfl) accepted
  have length : (buf.take snaplen).length = min snaplen buf.length := List.length_take
  have behind := behind_link buf
  have needs : linkEnd buf ≤ extent buf := by
    cases accepted with
    | profinet etherType size => rw [extent_profinet etherType]; omega
    | s7comm ip port => rw [extent_s7comm ip]; omega
    | fanuc ip datagram port pose => rw [extent_udp ip]; omega
    | ros2 ip datagram port => rw [extent_udp ip]; omega
  rcases Nat.lt_or_ge snaplen (extent buf) with short | enough
  · refine Or.inr ⟨short, ?_⟩
    rcases parseFrame_cases ts (buf.take snaplen) with ⟨proto', accepted'⟩ | ⟨error, rejected⟩
    · obtain ⟨link, grammar⟩ := parseFrame_iff.mp accepted'
      have long := (behind_link (buf.take snaplen)).trans link
      rw [linkEnd_leading leading long] at grammar
      have extent_le := extent_of_accepted leading grammar
      omega
    · exact ⟨error, rejected⟩
  · have room : extent buf ≤ (buf.take snaplen).length := by omega
    refine Or.inl ⟨enough, parseFrame_iff.mpr ?_⟩
    rw [Decodes, linkEnd_leading leading (by omega)]
    exact ⟨needs.trans room, grammar_survives leading accepted room⟩

theorem parse_nil (ts : UInt64) : ∃ error, parseFrame ts [] = .error (.err error) :=
  ⟨_, rfl⟩

theorem parse_cut_rejected {ts : UInt64} {error : ParseError}
    (failed : parseFrame ts buf = .error (.err error)) (snaplen : Nat) :
    ∃ error, parseFrame ts (buf.take snaplen) = .error (.err error) := by
  rcases parseFrame_cases ts (buf.take snaplen) with ⟨proto, accepted⟩ | ⟨error, rejected⟩
  · rw [parseFrame_leading (List.take_prefix snaplen buf) accepted] at failed
    cases failed
  · exact ⟨error, rejected⟩

theorem feed_snapped {CAP : Nat} (profile : Profile) (s : CausalGraphObserver CAP)
    (snaplen : Nat) (packet : Packet) :
    s.feed profile (packet.snapped snaplen) = s.feed profile (packet.survivor snaplen) := by
  obtain ⟨ts, buf⟩ := packet
  rcases parseFrame_cases ts buf with ⟨proto, parsed⟩ | ⟨error, failed⟩
  · rcases parse_cut parsed snaplen with ⟨enough, cut⟩ | ⟨short, error, cut⟩
    · have reads : s.manifest.classify profile ⟨ts, proto, buf.take snaplen⟩ =
          s.manifest.classify profile ⟨ts, proto, buf⟩ := classify_proto profile s.manifest rfl
      simp only [CausalGraphObserver.feed, Packet.snapped, Packet.survivor, if_pos enough, cut,
        parsed, CausalGraphObserver.observe, reads]
    · obtain ⟨error', empty⟩ := parse_nil ts
      simp only [CausalGraphObserver.feed, Packet.snapped, Packet.survivor,
        if_neg (Nat.not_le.mpr short), cut, empty]
  · obtain ⟨error', cut⟩ := parse_cut_rejected failed snaplen
    obtain ⟨error'', empty⟩ := parse_nil ts
    unfold Packet.survivor
    split
    · simp only [CausalGraphObserver.feed, Packet.snapped, cut, failed]
    · simp only [CausalGraphObserver.feed, Packet.snapped, cut, empty]

theorem replay_alike {CAP : Nat} {profile : Profile} {f g : Packet → Packet}
    {packets : List Packet} (alike : ∀ packet ∈ packets, ∀ s : CausalGraphObserver CAP,
      s.feed profile (f packet) = s.feed profile (g packet)) (s : CausalGraphObserver CAP) :
    s.replay profile (packets.map f) = s.replay profile (packets.map g) := by
  induction packets generalizing s with
  | nil => rfl
  | cons packet packets ih =>
      obtain ⟨here, rest⟩ := List.forall_mem_cons.mp alike
      simp only [List.map_cons, CausalGraphObserver.replay, here, ih rest]

theorem feed_survivor {CAP : Nat} (profile : Profile) (s : CausalGraphObserver CAP)
    {snaplen : Nat} {packet : Packet}
    (fits : ∀ f, parseFrame packet.1 packet.2 = .ok f → extent packet.2 ≤ snaplen) :
    s.feed profile (packet.survivor snaplen) = s.feed profile packet := by
  obtain ⟨ts, buf⟩ := packet
  rcases parseFrame_cases ts buf with ⟨proto, parsed⟩ | ⟨error, failed⟩
  · rw [Packet.survivor, if_pos (fits _ parsed)]
  · obtain ⟨error', empty⟩ := parse_nil ts
    unfold Packet.survivor
    split
    · rfl
    · simp only [CausalGraphObserver.feed, empty, failed]

theorem snap_length (snaplen : Nat) (packets : List Packet) : SnapLength snaplen packets := by
  have engine : ∀ (CAP : Nat) profile manifest,
      replayResults CAP profile manifest (packets.map (Packet.snapped snaplen)) =
        replayResults CAP profile manifest (packets.map (Packet.survivor snaplen)) := by
    intro CAP profile manifest
    unfold replayResults
    rw [replay_alike fun packet _ s => feed_snapped profile s snaplen packet]
  constructor
  case kept_iff =>
    intro packet _ proto parsed
    rcases parse_cut parsed snaplen with ⟨enough, cut⟩ | ⟨short, error, cut⟩
    · exact ⟨iff_of_true cut enough, fun short => absurd enough (Nat.not_le.mpr short)⟩
    · refine ⟨iff_of_false (fun kept => ?_) (Nat.not_le.mpr short), fun _ => ⟨error, cut⟩⟩
      rw [cut] at kept
      cases kept
  case engine => exact engine
  case unharmed =>
    intro fits CAP profile manifest
    have same : ∀ s : CausalGraphObserver CAP,
        s.replay profile (packets.map (Packet.survivor snaplen)) =
          s.replay profile (packets.map id) :=
      replay_alike fun packet member s => feed_survivor profile s (fits packet member)
    rw [engine]
    unfold replayResults
    rw [same, List.map_id]

end Proof
end CausalWorks
