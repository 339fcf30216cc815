import CausalWorks.Proof.Streams

/-!
# VLAN transparency

A VLAN tag moves everything behind the link header by four bytes, and every reader of the headers
moves with it.
-/

namespace CausalWorks

def insertTag (hi lo : UInt8) (buf : List UInt8) : List UInt8 :=
  buf.take 12 ++ ([0x81, 0x00, hi, lo] ++ buf.drop 12)

structure Untagged (buf : List UInt8) : Prop where
  whole : 14 ≤ buf.length
  etherType : beWord buf 12 ≠ 0x8100

structure SameDecode (buf buf' : List UInt8) : Prop where
  accepts : ∀ ts proto, parseFrame ts buf = .ok ⟨ts, proto, buf⟩ ↔
    parseFrame ts buf' = .ok ⟨ts, proto, buf'⟩
  ethertype : ∀ ε, (ethertypeOf buf : Except (Stop ε) _) = ethertypeOf buf'
  payload : ∀ ε, (profinetIoPayload buf : Except (Stop ε) _) = profinetIoPayload buf'
  port : ∀ ε, (udpDstPort buf : Except (Stop ε) _) = udpDstPort buf'

inductive MayTag : Packet → Packet → Prop
  | same (packet : Packet) : MayTag packet packet
  | tagged (ts : UInt64) {buf : List UInt8} (untagged : Untagged buf) (hi lo : UInt8) :
      MayTag (ts, buf) (ts, insertTag hi lo buf)

namespace Proof

structure SameBehind (buf : List UInt8) (L : Nat) (buf' : List UInt8) (L' : Nat) : Prop where
  whole : L ≤ buf.length
  whole' : L' ≤ buf'.length
  rest : buf.drop L = buf'.drop L'
  etherType : beWord buf (L - 2) = beWord buf' (L' - 2)

namespace SameBehind
variable {buf buf' : List UInt8} {L L' : Nat}

theorem symm (same : SameBehind buf L buf' L') : SameBehind buf' L' buf L :=
  ⟨same.whole', same.whole, same.rest.symm, same.etherType.symm⟩

variable (same : SameBehind buf L buf' L')
include same

theorem length : buf.length + L' = buf'.length + L := by
  have left := congrArg List.length same.rest
  rw [List.length_drop, List.length_drop] at left
  have := same.whole
  have := same.whole'
  omega

theorem octet_eq (i : Nat) : octet buf (L + i) = octet buf' (L' + i) := by
  have left := congrArg (fun rest : List UInt8 => rest.getD i 0) same.rest
  simp only [List.getD_eq_getElem?_getD, List.getElem?_drop] at left
  simpa only [octet, List.getD_eq_getElem?_getD] using left

theorem word_eq (i : Nat) : beWord buf (L + i) = beWord buf' (L' + i) := by
  rw [beWord, beWord, same.octet_eq i, Nat.add_assoc, same.octet_eq (i + 1), ← Nat.add_assoc]

theorem ihl_eq : ihl buf L = ihl buf' L' := by
  have first := same.octet_eq 0
  rw [Nat.add_zero, Nat.add_zero] at first
  rw [ihl, ihl, first]

theorem transport_word (i : Nat) :
    beWord buf (L + 4 * ihl buf L + i) = beWord buf' (L' + 4 * ihl buf' L' + i) := by
  rw [same.ihl_eq, Nat.add_assoc, Nat.add_assoc, same.word_eq]

theorem transport_float (i : Nat) :
    leFloat buf (L + 4 * ihl buf L + i) = leFloat buf' (L' + 4 * ihl buf' L' + i) := by
  simp only [same.ihl_eq, leFloat, Nat.add_assoc, same.octet_eq]

theorem ipv4 {transport : UInt8} (ip : Ipv4At buf L transport) : Ipv4At buf' L' transport := by
  obtain ⟨etherType, words, size, transport_eq⟩ := ip
  have length := same.length
  rw [same.ihl_eq] at words size
  exact ⟨same.etherType ▸ etherType, words, by omega, same.octet_eq 9 ▸ transport_eq⟩

theorem udp (datagram : UdpAt buf (L + 4 * ihl buf L)) : UdpAt buf' (L' + 4 * ihl buf' L') := by
  obtain ⟨header, size⟩ := datagram
  have length := same.length
  rw [same.transport_word] at header size
  rw [same.ihl_eq] at size
  exact ⟨header, by omega⟩

theorem grammar {proto : IndustrialProtocol} (accepted : Grammar buf L proto) :
    Grammar buf' L' proto := by
  have length := same.length
  cases accepted with
  | profinet etherType size =>
      have frameId := same.word_eq 0
      rw [Nat.add_zero, Nat.add_zero] at frameId
      rw [frameId, same.octet_eq 2]
      exact .profinet (same.etherType ▸ etherType) (by omega)
  | s7comm ip port =>
      have source := same.transport_word 0
      rw [Nat.add_zero, Nat.add_zero] at source
      rw [source, same.transport_word 2] at port
      exact .s7comm (same.ipv4 ip) port
  | fanuc ip datagram port pose =>
      rw [same.transport_word] at port pose
      rw [same.transport_float 8, same.transport_float 12, same.transport_float 16]
      exact .fanuc (same.ipv4 ip) (same.udp datagram) port pose
  | ros2 ip datagram port =>
      rw [same.transport_word] at port
      rw [same.transport_word 2, same.transport_word 4]
      exact .ros2 (same.ipv4 ip) (same.udp datagram) port

theorem portBehind_eq : portBehind buf L = portBehind buf' L' := by
  have length := same.length
  have header := same.ihl_eq
  have short : buf.length < L + 20 ↔ buf'.length < L' + 20 := by omega
  have cut : buf.length < L + 4 * ihl buf L + 4 ↔ buf'.length < L' + 4 * ihl buf' L' + 4 := by
    omega
  unfold portBehind
  simp only [same.etherType, same.transport_word 2, short, cut]

end SameBehind

section
variable {buf : List UInt8}

theorem length_insertTag (untagged : Untagged buf) (hi lo : UInt8) :
    (insertTag hi lo buf).length = buf.length + 4 := by
  have := untagged.whole
  simp only [insertTag, List.length_append, List.length_take, List.length_drop, List.length_cons,
    List.length_nil]
  omega

theorem drop_insertTag (untagged : Untagged buf) (hi lo : UInt8) (i : Nat) :
    (insertTag hi lo buf).drop (i + 16) = buf.drop (i + 12) := by
  have addresses : (buf.take 12).length = 12 :=
    List.length_take_of_le (Nat.le_trans (by decide) untagged.whole)
  rw [insertTag, List.drop_append, addresses, List.drop_eq_nil_of_le (by omega), List.nil_append,
    show i + 16 - 12 = i + [(0x81 : UInt8), 0x00, hi, lo].length from rfl, List.drop_append,
    List.drop_eq_nil_of_le (Nat.le_add_left _ _), List.nil_append, Nat.add_sub_cancel,
    List.drop_drop, Nat.add_comm]

theorem word_insertTag (untagged : Untagged buf) (hi lo : UInt8) :
    beWord (insertTag hi lo buf) 12 = 0x8100 := by
  have addresses : (buf.take 12).length = 12 :=
    List.length_take_of_le (Nat.le_trans (by decide) untagged.whole)
  have first : octet (insertTag hi lo buf) 12 = 0x81 := by
    simp [octet, insertTag, addresses]
  have second : octet (insertTag hi lo buf) 13 = 0x00 := by
    simp [octet, insertTag, List.getElem?_append_right, addresses]
  rw [beWord, first, second]
  rfl

theorem sameBehind_insertTag (untagged : Untagged buf) (hi lo : UInt8) :
    SameBehind buf 14 (insertTag hi lo buf) 18 where
  whole := untagged.whole
  whole' := by
    rw [length_insertTag untagged]
    have := untagged.whole
    omega
  rest := (drop_insertTag untagged hi lo 2).symm
  etherType := by
    have moved : ∀ i, octet (insertTag hi lo buf) (i + 16) = octet buf (i + 12) := by
      intro i
      have left := congrArg (fun rest : List UInt8 => rest.getD 0 0)
        (drop_insertTag untagged hi lo i)
      simp only [List.getD_eq_getElem?_getD, List.getElem?_drop, Nat.add_zero] at left
      simpa only [octet, List.getD_eq_getElem?_getD] using left
    show beWord buf 12 = beWord (insertTag hi lo buf) 16
    rw [beWord, beWord, moved 0, moved 1]

theorem same_decode (untagged : Untagged buf) (hi lo : UInt8) :
    SameDecode buf (insertTag hi lo buf) := by
  have same := sameBehind_insertTag untagged hi lo
  have link : linkEnd buf = 14 := if_neg untagged.etherType
  have link' : linkEnd (insertTag hi lo buf) = 18 := if_pos (word_insertTag untagged hi lo)
  constructor
  case accepts =>
    intro ts proto
    rw [parseFrame_iff, parseFrame_iff, Decodes, Decodes, link, link']
    exact ⟨fun ⟨_, accepted⟩ => ⟨same.whole', same.grammar accepted⟩,
      fun ⟨_, accepted⟩ => ⟨same.whole, same.symm.grammar accepted⟩⟩
  case ethertype =>
    intro ε
    have whole := same.whole
    have whole' := same.whole'
    rw [ethertypeOf_ok, ethertypeOf_ok, rawEthertype, rawEthertype, link, link',
      if_neg (by omega), if_pos whole, if_neg (by omega), if_pos whole', same.etherType]
  case payload =>
    intro ε
    rw [profinetIoPayload_ok, profinetIoPayload_ok, ioPayload, ioPayload, link, link',
      if_pos same.whole, if_pos same.whole', drop_insertTag untagged hi lo 4]
  case port =>
    intro ε
    rw [udpDstPort_ok, udpDstPort_ok, rawPort, rawPort, link, link', if_pos same.whole,
      if_pos same.whole', same.portBehind_eq]

end

theorem mayTag_decode {packet packet' : Packet} (tag : MayTag packet packet') :
    packet.1 = packet'.1 ∧ SameDecode packet.2 packet'.2 := by
  cases tag with
  | same => exact ⟨rfl, fun _ _ => Iff.rfl, fun _ => rfl, fun _ => rfl, fun _ => rfl⟩
  | tagged ts untagged hi lo => exact ⟨rfl, same_decode untagged hi lo⟩

theorem parse_same (ts : UInt64) {buf buf' : List UInt8} (same : SameDecode buf buf') :
    (∃ proto, parseFrame ts buf = .ok ⟨ts, proto, buf⟩ ∧
      parseFrame ts buf' = .ok ⟨ts, proto, buf'⟩) ∨
    ∃ error error', parseFrame ts buf = .error (.err error) ∧
      parseFrame ts buf' = .error (.err error') := by
  rcases parseFrame_cases ts buf with ⟨proto, parsed⟩ | ⟨error, failed⟩
  · exact Or.inl ⟨proto, parsed, (same.accepts ts proto).mp parsed⟩
  · -- The two errors may differ: a short frame is reported with its own length.
    rcases parseFrame_cases ts buf' with ⟨proto, parsed⟩ | ⟨error', failed'⟩
    · rw [(same.accepts ts proto).mpr parsed] at failed
      cases failed
    · exact Or.inr ⟨error, error', failed, failed'⟩

theorem classify_proto (profile : Profile) (manifest : DependencyManifest)
    {f f' : DecodedFieldbusFrame} (same : f.proto = f'.proto) :
    manifest.classify profile f = manifest.classify profile f' := by
  have matches_ : ∀ m : NodeMatcher, m.matchesFrame profile f = m.matchesFrame profile f' := by
    intro m
    simp only [NodeMatcher.matchesFrame, same]
  unfold DependencyManifest.classify
  induction manifest.nodes.entries with
  | nil => rfl
  | cons entry entries ih => simp only [classifyEntries, matches_, ih]

theorem feed_mayTag {CAP : Nat} (profile : Profile) (s : CausalGraphObserver CAP)
    {packet packet' : Packet} (tag : MayTag packet packet') :
    s.feed profile packet = s.feed profile packet' := by
  obtain ⟨time, same⟩ := mayTag_decode tag
  obtain ⟨ts, buf⟩ := packet
  obtain ⟨ts', buf'⟩ := packet'
  obtain rfl : ts = ts' := time
  rcases parse_same ts same with ⟨proto, parsed, parsed'⟩ | ⟨error, error', failed, failed'⟩
  · have reads : s.manifest.classify profile ⟨ts, proto, buf⟩ =
        s.manifest.classify profile ⟨ts, proto, buf'⟩ := classify_proto profile s.manifest rfl
    simp only [CausalGraphObserver.feed, parsed, parsed', CausalGraphObserver.observe, reads]
  · simp only [CausalGraphObserver.feed, failed, failed']

theorem replay_mayTag {CAP : Nat} (profile : Profile) (s : CausalGraphObserver CAP)
    {packets packets' : List Packet} (tags : List.Forall₂ MayTag packets packets') :
    s.replay profile packets = s.replay profile packets' := by
  induction tags generalizing s with
  | nil => rfl
  | cons tag _ ih => simp only [CausalGraphObserver.replay, feed_mayTag profile s tag, ih]

theorem sameDecode_raw {buf buf' : List UInt8} (same : SameDecode buf buf') :
    rawEthertype buf = rawEthertype buf' ∧ ioPayload buf = ioPayload buf' ∧
      rawPort buf = rawPort buf' := by
  have ethertype := same.ethertype Empty
  have payload := same.payload Empty
  have port := same.port Empty
  rw [ethertypeOf_ok, ethertypeOf_ok] at ethertype
  rw [profinetIoPayload_ok, profinetIoPayload_ok] at payload
  rw [udpDstPort_ok, udpDstPort_ok] at port
  exact ⟨Except.ok.inj ethertype, Except.ok.inj payload, Except.ok.inj port⟩

theorem discovered_mayTag (disc : DiscoveryEngine) {packet packet' : Packet}
    (tag : MayTag packet packet') : disc.discovered packet = disc.discovered packet' := by
  obtain ⟨time, same⟩ := mayTag_decode tag
  obtain ⟨ts, buf⟩ := packet
  obtain ⟨ts', buf'⟩ := packet'
  obtain rfl : ts = ts' := time
  obtain ⟨ethertype, payload, port⟩ := sameDecode_raw same
  rcases parse_same ts same with ⟨proto, parsed, parsed'⟩ | ⟨error, error', failed, failed'⟩
  · have key : (⟨ts, proto, buf⟩ : DecodedFieldbusFrame).streamKey =
        (⟨ts, proto, buf'⟩ : DecodedFieldbusFrame).streamKey := by
      simp only [DecodedFieldbusFrame.streamKey, port]
    have watched : (⟨ts, proto, buf⟩ : DecodedFieldbusFrame).watchedPayload =
        (⟨ts, proto, buf'⟩ : DecodedFieldbusFrame).watchedPayload := by
      simp only [DecodedFieldbusFrame.watchedPayload, payload]
    simp only [DiscoveryEngine.discovered, parsed, parsed', DiscoveryEngine.observed,
      Keyed.Table.accumulate, StreamProfile.take, key, watched]
  · simp only [DiscoveryEngine.discovered, failed, failed', ethertype]

theorem discover_mayTag (disc : DiscoveryEngine) {packets packets' : List Packet}
    (tags : List.Forall₂ MayTag packets packets') :
    packets.foldl DiscoveryEngine.discovered disc =
      packets'.foldl DiscoveryEngine.discovered disc := by
  induction tags generalizing disc with
  | nil => rfl
  | cons tag _ ih => rw [List.foldl_cons, List.foldl_cons, discovered_mayTag disc tag, ih]

theorem vlan_transparent :
    (∀ buf, Untagged buf → ∀ hi lo, SameDecode buf (insertTag hi lo buf)) ∧
    ∀ packets packets', List.Forall₂ MayTag packets packets' →
      (∀ (CAP : Nat) (profile : Profile) (manifest : DependencyManifest),
        replayResults CAP profile manifest packets =
          replayResults CAP profile manifest packets') ∧
      ∀ ε, (packets.foldlM discoverFrame .new : Except (Stop ε) DiscoveryEngine) =
        packets'.foldlM discoverFrame .new := by
  refine ⟨fun _ untagged hi lo => same_decode untagged hi lo, fun packets packets' tags => ⟨?_, ?_⟩⟩
  · intro CAP profile manifest
    rw [replayResults, replayResults, replay_mayTag profile _ tags]
  · intro ε
    rw [discover_eq, discover_eq, discover_mayTag _ tags]

theorem plcBytes_untagged (interlock : Bool) : Untagged (Cell.plcBytes interlock) := by
  cases interlock <;> exact ⟨by decide, by decide⟩

theorem vlan_transparent_cell :
    SameDecode (Cell.plcBytes true) (insertTag 0x20 0x05 (Cell.plcBytes true)) ∧
    replayResults 4 .release Cell.manifest [(10, Cell.plcBytes true), (20, Cell.plcBytes false)] =
      replayResults 4 .release Cell.manifest
        [(10, Cell.plcBytes true), (20, insertTag 0x20 0x05 (Cell.plcBytes false))] := by
  obtain ⟨frames, captures⟩ := vlan_transparent
  refine ⟨frames _ (plcBytes_untagged true) _ _, (captures _ _ ?_).1 4 .release Cell.manifest⟩
  exact .cons (.same _) (.cons (.tagged 20 (plcBytes_untagged false) _ _) .nil)

end Proof
end CausalWorks
