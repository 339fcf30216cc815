import CausalWorks.DemoRun
import CausalWorks.Proof.Coverage
import CausalWorks.Proof.Profiles
import CausalWorks.Proof.Sighting
import CausalWorks.Proof.Vlan

/-!
# Anonymised captures

An integrator may overwrite the octets of a frame that no tool reads: hardware and network
addresses, checksums, the payload of a datagram that is no pose. No tool can tell the two captures
apart.
-/

namespace CausalWorks

/-- The octets of a frame on which the output of some tool depends. -/
inductive Bears (buf : List UInt8) (i : Nat) : Prop
  | link (at_ : i = 12 ∨ i = 13)
  | inner (tagged : beWord buf 12 = 0x8100) (at_ : i = 16 ∨ i = 17)
  | profinet (type : beWord buf (linkEnd buf - 2) = 0x8892) (at_ : linkEnd buf ≤ i)
  | header (type : beWord buf (linkEnd buf - 2) = 0x0800)
      (at_ : i = linkEnd buf ∨ i = linkEnd buf + 9)
  | port (type : beWord buf (linkEnd buf - 2) = 0x0800)
      (known : octet buf (linkEnd buf + 9) = 6 ∨ octet buf (linkEnd buf + 9) = 17) {U : Nat}
      (transport : U = linkEnd buf + 4 * ihl buf (linkEnd buf)) (at_ : i = U + 2 ∨ i = U + 3)
  | source (type : beWord buf (linkEnd buf - 2) = 0x0800) (tcp : octet buf (linkEnd buf + 9) = 6)
      {U : Nat} (transport : U = linkEnd buf + 4 * ihl buf (linkEnd buf)) (at_ : i = U ∨ i = U + 1)
  | length (type : beWord buf (linkEnd buf - 2) = 0x0800) (udp : octet buf (linkEnd buf + 9) = 17)
      {U : Nat} (transport : U = linkEnd buf + 4 * ihl buf (linkEnd buf))
      (at_ : i = U + 4 ∨ i = U + 5)
  | pose (type : beWord buf (linkEnd buf - 2) = 0x0800) (udp : octet buf (linkEnd buf + 9) = 17)
      {U : Nat} (transport : U = linkEnd buf + 4 * ihl buf (linkEnd buf))
      (robot : beWord buf (U + 2) = 60008) (at_ : U + 8 ≤ i ∧ i < U + 20)

structure AlikeFrames (buf buf' : List UInt8) : Prop where
  length : buf.length = buf'.length
  octets : ∀ i, Bears buf i → octet buf i = octet buf' i

def AlikePackets (packet packet' : Packet) : Prop :=
  packet.1 = packet'.1 ∧ AlikeFrames packet.2 packet'.2

structure ToolsAgree (packets packets' : List Packet) : Prop where
  engine : ∀ (CAP : Nat) profile manifest,
    replayResults CAP profile manifest packets = replayResults CAP profile manifest packets'
  run : ∀ {JsonError : Type} profile (toJson : CausalTrace → Except JsonError String) start,
    packets.foldlM (ManifestRun.step profile toJson) start =
      packets'.foldlM (ManifestRun.step profile toJson) start
  demo : ∀ {JsonError : Type} profile (toJson : CausalTrace → Except JsonError String) start,
    packets.foldlM (DemoRun.step profile toJson) start =
      packets'.foldlM (DemoRun.step profile toJson) start
  discovery : ∀ ε, (packets.foldlM discoverFrame .new : Except (Stop ε) DiscoveryEngine) =
    packets'.foldlM discoverFrame .new
  preflight : ∀ ε, (packets.foldlM PreflightScan.scanFrame {} : Except (Stop ε) PreflightScan) =
    packets'.foldlM PreflightScan.scanFrame {}

namespace Proof

section
variable {buf buf' : List UInt8} (alike : AlikeFrames buf buf')

theorem word_alike {i : Nat} (hi : octet buf i = octet buf' i)
    (lo : octet buf (i + 1) = octet buf' (i + 1)) : beWord buf i = beWord buf' i := by
  rw [beWord, beWord, hi, lo]

include alike

theorem link_alike : beWord buf 12 = beWord buf' 12 :=
  word_alike (alike.octets 12 (.link (Or.inl rfl))) (alike.octets 13 (.link (Or.inr rfl)))

theorem linkEnd_alike : linkEnd buf = linkEnd buf' := by
  rw [linkEnd, linkEnd, link_alike alike]

theorem type_alike : beWord buf (linkEnd buf - 2) = beWord buf' (linkEnd buf - 2) := by
  by_cases tagged : beWord buf 12 = 0x8100
  · rw [show linkEnd buf = 18 from if_pos tagged]
    exact word_alike (alike.octets 16 (.inner tagged (Or.inl rfl)))
      (alike.octets 17 (.inner tagged (Or.inr rfl)))
  · rw [show linkEnd buf = 14 from if_neg tagged]
    exact link_alike alike

section Ipv4
variable (type : beWord buf (linkEnd buf - 2) = 0x0800)
include type

theorem ihl_alike : ihl buf (linkEnd buf) = ihl buf' (linkEnd buf) := by
  rw [ihl, ihl, alike.octets _ (.header type (Or.inl rfl))]

theorem transport_alike : octet buf (linkEnd buf + 9) = octet buf' (linkEnd buf + 9) :=
  alike.octets _ (.header type (Or.inr rfl))

theorem port_alike (known : octet buf (linkEnd buf + 9) = 6 ∨ octet buf (linkEnd buf + 9) = 17) :
    beWord buf (linkEnd buf + 4 * ihl buf (linkEnd buf) + 2) =
      beWord buf' (linkEnd buf + 4 * ihl buf (linkEnd buf) + 2) :=
  word_alike (alike.octets _ (.port type known rfl (Or.inl rfl)))
    (alike.octets _ (.port type known rfl (Or.inr rfl)))

theorem source_alike (tcp : octet buf (linkEnd buf + 9) = 6) :
    beWord buf (linkEnd buf + 4 * ihl buf (linkEnd buf)) =
      beWord buf' (linkEnd buf + 4 * ihl buf (linkEnd buf)) :=
  word_alike (alike.octets _ (.source type tcp rfl (Or.inl rfl)))
    (alike.octets _ (.source type tcp rfl (Or.inr rfl)))

theorem size_alike (udp : octet buf (linkEnd buf + 9) = 17) :
    beWord buf (linkEnd buf + 4 * ihl buf (linkEnd buf) + 4) =
      beWord buf' (linkEnd buf + 4 * ihl buf (linkEnd buf) + 4) :=
  word_alike (alike.octets _ (.length type udp rfl (Or.inl rfl)))
    (alike.octets _ (.length type udp rfl (Or.inr rfl)))

theorem pose_alike (udp : octet buf (linkEnd buf + 9) = 17)
    (robot : beWord buf (linkEnd buf + 4 * ihl buf (linkEnd buf) + 2) = 60008) {i : Nat}
    (inside : 8 ≤ i ∧ i + 4 ≤ 20) :
    leFloat buf (linkEnd buf + 4 * ihl buf (linkEnd buf) + i) =
      leFloat buf' (linkEnd buf + 4 * ihl buf (linkEnd buf) + i) := by
  have same : ∀ j, 8 ≤ j ∧ j < 20 →
      octet buf (linkEnd buf + 4 * ihl buf (linkEnd buf) + j) =
        octet buf' (linkEnd buf + 4 * ihl buf (linkEnd buf) + j) :=
    fun j at_ => alike.octets _ (.pose type udp rfl robot ⟨by omega, by omega⟩)
  simp only [leFloat, Nat.add_assoc]
  simp only [Nat.add_assoc] at same
  rw [same i (by omega), same (i + 1) (by omega), same (i + 2) (by omega), same (i + 3) (by omega)]

end Ipv4

theorem bears_alike {i : Nat} (bears : Bears buf' i) : Bears buf i := by
  have link := linkEnd_alike alike
  have types := type_alike alike
  cases bears with
  | link at_ => exact .link at_
  | inner tagged at_ => exact .inner ((link_alike alike).trans tagged) at_
  | profinet type at_ => exact .profinet (by rwa [types, link]) (by rwa [link])
  | header type at_ => exact .header (by rwa [types, link]) (by rwa [link])
  | port type known transport at_ =>
      rw [← link, ← types] at type
      rw [← link, ← transport_alike alike type] at known
      rw [← link, ← ihl_alike alike type] at transport
      exact .port type known transport at_
  | source type tcp transport at_ =>
      rw [← link, ← types] at type
      rw [← link, ← transport_alike alike type] at tcp
      rw [← link, ← ihl_alike alike type] at transport
      exact .source type tcp transport at_
  | length type udp transport at_ =>
      rw [← link, ← types] at type
      rw [← link, ← transport_alike alike type] at udp
      rw [← link, ← ihl_alike alike type] at transport
      exact .length type udp transport at_
  | pose type udp transport robot at_ =>
      rw [← link, ← types] at type
      rw [← link, ← transport_alike alike type] at udp
      rw [← link, ← ihl_alike alike type] at transport
      subst transport
      rw [← port_alike alike type (Or.inr udp)] at robot
      exact .pose type udp rfl robot at_

theorem alike_symm : AlikeFrames buf' buf :=
  ⟨alike.length.symm, fun i bears => (alike.octets i (bears_alike alike bears)).symm⟩

theorem ipv4_alike {transport : UInt8} (ip : Ipv4At buf (linkEnd buf) transport) :
    Ipv4At buf' (linkEnd buf) transport := by
  obtain ⟨type, words, size, transport_eq⟩ := ip
  have header := ihl_alike alike type
  refine ⟨(type_alike alike).symm.trans type, header ▸ words, ?_,
    (transport_alike alike type).symm.trans transport_eq⟩
  rw [← header, ← alike.length]
  exact size

theorem grammar_alike {proto : IndustrialProtocol} (accepted : Grammar buf (linkEnd buf) proto) :
    Grammar buf' (linkEnd buf) proto := by
  have length := alike.length
  cases accepted with
  | profinet type size =>
      have payload : ∀ i, octet buf (linkEnd buf + i) = octet buf' (linkEnd buf + i) :=
        fun i => alike.octets _ (.profinet type (Nat.le_add_right _ i))
      have frameId : beWord buf (linkEnd buf) = beWord buf' (linkEnd buf) :=
        word_alike (payload 0) (payload 1)
      rw [frameId, payload 2]
      exact .profinet ((type_alike alike).symm.trans type) (by omega)
  | s7comm ip ports =>
      have header := ihl_alike alike ip.etherType
      rw [source_alike alike ip.etherType ip.transport_eq, port_alike alike ip.etherType
        (Or.inl ip.transport_eq), header] at ports
      exact .s7comm (ipv4_alike alike ip) ports
  | fanuc ip datagram robot long =>
      obtain ⟨whole, inside⟩ := datagram
      have type := ip.etherType
      have udp := ip.transport_eq
      have header := ihl_alike alike type
      rw [pose_alike alike type udp robot (i := 8) (by omega),
        pose_alike alike type udp robot (i := 12) (by omega),
        pose_alike alike type udp robot (i := 16) (by omega), header]
      rw [size_alike alike type udp, header] at whole inside long
      rw [port_alike alike type (Or.inr udp), header] at robot
      exact .fanuc (ipv4_alike alike ip) ⟨whole, by omega⟩ robot long
  | ros2 ip datagram other =>
      obtain ⟨whole, inside⟩ := datagram
      have type := ip.etherType
      have udp := ip.transport_eq
      have header := ihl_alike alike type
      rw [port_alike alike type (Or.inr udp), size_alike alike type udp, header]
      rw [size_alike alike type udp, header] at whole inside
      rw [port_alike alike type (Or.inr udp), header] at other
      exact .ros2 (ipv4_alike alike ip) ⟨whole, by omega⟩ other

theorem decodes_alike {proto : IndustrialProtocol} (decodes : Decodes buf proto) :
    Decodes buf' proto := by
  obtain ⟨whole, accepted⟩ := decodes
  rw [Decodes, ← linkEnd_alike alike, ← alike.length]
  exact ⟨whole, grammar_alike alike accepted⟩

theorem raw_alike : rawEthertype buf = rawEthertype buf' := by
  rw [rawEthertype, rawEthertype, ← linkEnd_alike alike, ← alike.length, type_alike alike]

theorem tag_alike : (14 ≤ buf.length ∧ octet buf 12 = 0x81 ∧ octet buf 13 = 0x00) ↔
    14 ≤ buf'.length ∧ octet buf' 12 = 0x81 ∧ octet buf' 13 = 0x00 := by
  rw [alike.length, alike.octets 12 (.link (Or.inl rfl)), alike.octets 13 (.link (Or.inr rfl))]

theorem payload_alike {frameId : UInt16} {bit : Bool} {status : UInt8}
    (decodes : Decodes buf (.profinetIrt frameId bit status)) : ioPayload buf = ioPayload buf' := by
  obtain ⟨whole, accepted⟩ := decodes
  cases accepted with
  | profinet type size =>
      rw [ioPayload, ioPayload, ← linkEnd_alike alike, ← alike.length, if_pos whole, if_pos whole]
      refine List.ext_getElem (by rw [List.length_drop, List.length_drop, alike.length]) ?_
      intro i inside inside'
      rw [List.length_drop] at inside inside'
      have same := alike.octets (linkEnd buf + 2 + i) (.profinet type (by omega))
      rw [octet, octet, List.getD_eq_getElem?_getD, List.getD_eq_getElem?_getD,
        List.getElem?_eq_getElem (by omega), List.getElem?_eq_getElem (by omega)] at same
      rw [List.getElem_drop, List.getElem_drop]
      exact same

theorem parse_alike (ts : UInt64) :
    (∃ proto, Decodes buf proto ∧ parseFrame ts buf = .ok ⟨ts, proto, buf⟩ ∧
      parseFrame ts buf' = .ok ⟨ts, proto, buf'⟩) ∨
    ∃ error error', parseFrame ts buf = .error (.err error) ∧
      parseFrame ts buf' = .error (.err error') := by
  rcases parseFrame_cases ts buf with ⟨proto, parsed⟩ | ⟨error, failed⟩
  · have decodes := parseFrame_iff.mp parsed
    exact Or.inl ⟨proto, decodes, parsed, parseFrame_iff.mpr (decodes_alike alike decodes)⟩
  · rcases parseFrame_cases ts buf' with ⟨proto, parsed⟩ | ⟨error', failed'⟩
    · have decodes := decodes_alike (alike_symm alike) (parseFrame_iff.mp parsed)
      rw [parseFrame_iff.mpr decodes] at failed
      cases failed
    · exact Or.inr ⟨error, error', failed, failed'⟩

theorem parsed_alike {ε σ : Type} {ts : UInt64}
    {next : Except ParseError DecodedFieldbusFrame → Except (Stop ε) σ}
    (blind : ∀ proto, next (.ok ⟨ts, proto, buf⟩) = next (.ok ⟨ts, proto, buf'⟩))
    (skips : ∀ error error', next (.error error) = next (.error error')) :
    tryParse ts buf >>= next = tryParse ts buf' >>= next := by
  unfold tryParse
  rcases parse_alike alike ts with ⟨proto, -, parsed, parsed'⟩ | ⟨error, error', failed, failed'⟩
  · rw [parsed, parsed']
    exact blind proto
  · rw [failed, failed']
    exact skips error error'

end

theorem observe_proto {CAP : Nat} (profile : Profile) (engine : CausalGraphObserver CAP)
    (ts : UInt64) (proto : IndustrialProtocol) (buf buf' : List UInt8) :
    engine.observe profile ⟨ts, proto, buf⟩ = engine.observe profile ⟨ts, proto, buf'⟩ := by
  have reads : engine.manifest.classify profile ⟨ts, proto, buf⟩ =
      engine.manifest.classify profile ⟨ts, proto, buf'⟩ := classify_proto profile _ rfl
  simp only [CausalGraphObserver.observe, reads]

section
variable {packet packet' : Packet} (alike : AlikePackets packet packet')
include alike

theorem feed_alike {CAP : Nat} (profile : Profile) (s : CausalGraphObserver CAP) :
    s.feed profile packet = s.feed profile packet' := by
  obtain ⟨ts, buf⟩ := packet
  obtain ⟨ts', buf'⟩ := packet'
  obtain ⟨rfl, same⟩ : ts = ts' ∧ AlikeFrames buf buf' := alike
  rcases parse_alike same ts with ⟨proto, -, parsed, parsed'⟩ | ⟨error, error', failed, failed'⟩
  · simp only [CausalGraphObserver.feed, parsed, parsed', observe_proto profile s ts proto buf buf']
  · simp only [CausalGraphObserver.feed, failed, failed']

theorem discovered_alike (disc : DiscoveryEngine) :
    disc.discovered packet = disc.discovered packet' := by
  obtain ⟨ts, buf⟩ := packet
  obtain ⟨ts', buf'⟩ := packet'
  obtain ⟨rfl, same⟩ : ts = ts' ∧ AlikeFrames buf buf' := alike
  rcases parse_alike same ts with ⟨proto, decodes, parsed, parsed'⟩ |
    ⟨error, error', failed, failed'⟩
  · have key : (⟨ts, proto, buf⟩ : DecodedFieldbusFrame).streamKey =
        (⟨ts, proto, buf'⟩ : DecodedFieldbusFrame).streamKey := by
      rw [streamKey_eq (f := ⟨ts, proto, buf⟩) decodes,
        streamKey_eq (f := ⟨ts, proto, buf'⟩) (decodes_alike same decodes)]
    have watched : (⟨ts, proto, buf⟩ : DecodedFieldbusFrame).watchedPayload =
        (⟨ts, proto, buf'⟩ : DecodedFieldbusFrame).watchedPayload := by
      cases proto with
      | profinetIrt => exact congrArg some (payload_alike same decodes)
      | ros2Udp | fanucUdp | s7commArrival => rfl
    simp only [DiscoveryEngine.discovered, parsed, parsed', DiscoveryEngine.observed,
      Keyed.Table.accumulate, StreamProfile.take, key, watched]
  · simp only [DiscoveryEngine.discovered, failed, failed', raw_alike same]

theorem scanned_alike (scan : PreflightScan) : scan.scanned packet = scan.scanned packet' := by
  obtain ⟨ts, buf⟩ := packet
  obtain ⟨ts', buf'⟩ := packet'
  obtain ⟨rfl, same⟩ : ts = ts' ∧ AlikeFrames buf buf' := alike
  have headers : ∀ s, PreflightScan.noteHeaders s buf = PreflightScan.noteHeaders s buf' := by
    intro s
    simp only [PreflightScan.noteHeaders, PreflightScan.noteType, PreflightScan.noteTag,
      tag_alike same, raw_alike same]
  rcases parse_alike same ts with ⟨proto, -, parsed, parsed'⟩ | ⟨error, error', failed, failed'⟩
  · simp only [PreflightScan.scanned, headers, parsed, parsed']
  · simp only [PreflightScan.scanned, headers, failed, failed']

variable {JsonError : Type} (profile : Profile) (toJson : CausalTrace → Except JsonError String)

theorem step_alike (state : ManifestRun) :
    state.step profile toJson packet = state.step profile toJson packet' := by
  obtain ⟨ts, buf⟩ := packet
  obtain ⟨ts', buf'⟩ := packet'
  obtain ⟨rfl, same⟩ : ts = ts' ∧ AlikeFrames buf buf' := alike
  unfold ManifestRun.step
  refine parsed_alike same (fun proto => ?_) fun _ _ => rfl
  simp only [observe_proto profile state.engine ts proto buf buf']

theorem demo_step_alike (state : DemoRun) :
    state.step profile toJson packet = state.step profile toJson packet' := by
  obtain ⟨ts, buf⟩ := packet
  obtain ⟨ts', buf'⟩ := packet'
  obtain ⟨rfl, same⟩ : ts = ts' ∧ AlikeFrames buf buf' := alike
  unfold DemoRun.step
  refine parsed_alike same (fun proto => ?_) fun _ _ => rfl
  have logged : ∀ log, DemoRun.pushEvent log ⟨ts, proto, buf⟩ =
      DemoRun.pushEvent log ⟨ts, proto, buf'⟩ := fun _ => rfl
  simp only [logged, observe_proto profile state.engine ts proto buf buf']

end

section
variable {packets packets' : List Packet} (alike : List.Forall₂ AlikePackets packets packets')
include alike

theorem replay_alikes {CAP : Nat} (profile : Profile) (s : CausalGraphObserver CAP) :
    s.replay profile packets = s.replay profile packets' := by
  induction alike generalizing s with
  | nil => rfl
  | cons here _ ih => simp only [CausalGraphObserver.replay, feed_alike here, ih]

theorem foldlM_alike {σ ε : Type} {step : σ → Packet → Except ε σ}
    (blind : ∀ {packet packet'}, AlikePackets packet packet' → ∀ s, step s packet = step s packet')
    (s : σ) : packets.foldlM step s = packets'.foldlM step s := by
  induction alike generalizing s with
  | nil => rfl
  | cons here _ ih =>
      rw [List.foldlM_cons, List.foldlM_cons, blind here]
      exact congrArg _ (funext ih)

theorem anonymised_alike : ToolsAgree packets packets' where
  engine CAP profile manifest := by
    rw [replayResults, replayResults, replay_alikes alike]
  run profile toJson := foldlM_alike alike fun here => step_alike here profile toJson
  demo profile toJson := foldlM_alike alike fun here => demo_step_alike here profile toJson
  discovery ε := by
    refine foldlM_alike alike (fun here disc => ?_) _
    rw [discoverFrame_eq, discoverFrame_eq, discovered_alike here]
  preflight ε := by
    refine foldlM_alike alike (fun here scan => ?_) _
    rw [scanFrame_eq, scanFrame_eq, scanned_alike here]

end

def blankedBytes : List UInt8 :=
  [2, 2, 2, 2, 2, 2, 3, 3, 3, 3, 3, 3, 0x08, 0x00, 0x45, 9, 9, 9, 9, 9, 9, 9, 9, 17, 9, 9, 10, 0, 0,
    1, 10, 0, 0, 2, 5, 5, 0x1c, 0xe8, 0, 20, 6, 6] ++ List.replicate 12 7

theorem blanked_alike : AlikeFrames (udpBytes 7400) blankedBytes := by
  refine ⟨by decide, fun i bears => ?_⟩
  have transport_eq : ∀ {U}, U = linkEnd (udpBytes 7400) +
      4 * ihl (udpBytes 7400) (linkEnd (udpBytes 7400)) → U = 34 := fun is => is.trans (by decide)
  cases bears with
  | link at_ => rcases at_ with rfl | rfl <;> rfl
  | inner tagged => exact absurd tagged (by decide)
  | profinet type => exact absurd type (by decide)
  | header _ at_ => rcases at_ with rfl | rfl <;> rfl
  | port _ _ transport at_ =>
      obtain rfl := transport_eq transport
      rcases at_ with rfl | rfl <;> rfl
  | source _ tcp => exact absurd tcp (by decide)
  | length _ _ transport at_ =>
      obtain rfl := transport_eq transport
      rcases at_ with rfl | rfl <;> rfl
  | pose _ _ transport robot =>
      obtain rfl := transport_eq transport
      exact absurd robot (by decide)

theorem anonymised_alike_datagram :
    ToolsAgree [(10, udpBytes 7400), (20, Cell.plcBytes true), (30, Cell.plcBytes false)]
      [(10, blankedBytes), (20, Cell.plcBytes true), (30, Cell.plcBytes false)] :=
  anonymised_alike (.cons ⟨rfl, blanked_alike⟩
    (.cons ⟨rfl, rfl, fun _ _ => rfl⟩ (.cons ⟨rfl, rfl, fun _ _ => rfl⟩ .nil)))

end Proof
end CausalWorks
