import CausalWorks.Pcap
import CausalWorks.Proof.Ingest

/-!
# What the parser accepts

The frames that `parseFrame` accepts and what it reads from them, by their bytes alone. Every other
input is an error value: no read goes past the end.
-/

namespace CausalWorks

def octet (buf : List UInt8) (i : Nat) : UInt8 := buf.getD i 0

def beWord (buf : List UInt8) (i : Nat) : UInt16 :=
  UInt16.ofNat ((octet buf i).toNat * 256 + (octet buf (i + 1)).toNat)

def leFloat (buf : List UInt8) (i : Nat) : F32Bits :=
  UInt32.ofNat ((octet buf i).toNat + (octet buf (i + 1)).toNat * 2 ^ 8 +
    (octet buf (i + 2)).toNat * 2 ^ 16 + (octet buf (i + 3)).toNat * 2 ^ 24)

/-- Where the link header, with at most one VLAN tag, ends. -/
def linkEnd (buf : List UInt8) : Nat := if beWord buf 12 = 0x8100 then 18 else 14

def ihl (buf : List UInt8) (L : Nat) : Nat := (octet buf L).toNat % 16

structure Ipv4At (buf : List UInt8) (L : Nat) (transport : UInt8) : Prop where
  etherType : beWord buf (L - 2) = 0x0800
  words : 5 ≤ ihl buf L
  size : L + 4 * ihl buf L + 8 ≤ buf.length
  transport_eq : octet buf (L + 9) = transport

structure UdpAt (buf : List UInt8) (U : Nat) : Prop where
  header : 8 ≤ (beWord buf (U + 4)).toNat
  size : U + (beWord buf (U + 4)).toNat ≤ buf.length

/-- The frames with a link header of `L` bytes, and what they decode to. -/
inductive Grammar (buf : List UInt8) (L : Nat) : IndustrialProtocol → Prop
  | profinet (etherType : beWord buf (L - 2) = 0x8892) (size : L + 3 ≤ buf.length) :
      Grammar buf L (.profinetIrt (beWord buf L) (decide ((octet buf (L + 2)).toNat % 2 = 1))
        (octet buf (L + 2)))
  | s7comm (ip : Ipv4At buf L 6) (port : beWord buf (L + 4 * ihl buf L) = 102 ∨
      beWord buf (L + 4 * ihl buf L + 2) = 102) : Grammar buf L (.s7commArrival 102)
  | fanuc (ip : Ipv4At buf L 17) (udp : UdpAt buf (L + 4 * ihl buf L))
      (port : beWord buf (L + 4 * ihl buf L + 2) = 60008)
      (pose : 20 ≤ (beWord buf (L + 4 * ihl buf L + 4)).toNat) :
      Grammar buf L (.fanucUdp (leFloat buf (L + 4 * ihl buf L + 8))
        (leFloat buf (L + 4 * ihl buf L + 12)) (leFloat buf (L + 4 * ihl buf L + 16)))
  | ros2 (ip : Ipv4At buf L 17) (udp : UdpAt buf (L + 4 * ihl buf L))
      (port : beWord buf (L + 4 * ihl buf L + 2) ≠ 60008) :
      Grammar buf L (.ros2Udp (beWord buf (L + 4 * ihl buf L + 2))
        (UInt16.ofNat ((beWord buf (L + 4 * ihl buf L + 4)).toNat - 8)))

def Decodes (buf : List UInt8) (proto : IndustrialProtocol) : Prop :=
  linkEnd buf ≤ buf.length ∧ Grammar buf (linkEnd buf) proto

structure ParsesExactly (ts : UInt64) (buf : List UInt8) : Prop where
  accepts : ∀ f, parseFrame ts buf = .ok f ↔ f.tapTsNs = ts ∧ f.raw = buf ∧ Decodes buf f.proto
  rejects : (∀ proto, ¬ Decodes buf proto) → ∃ error, parseFrame ts buf = .error (.err error)
  inBounds : ∀ fault, parseFrame ts buf ≠ .error (.fault fault)

namespace Proof
variable {buf : List UInt8} {ts : UInt64} {proto : IndustrialProtocol}

theorem byteAt_octet {ε : Type} {i : Nat} (inside : i < buf.length) :
    (byteAt buf i : Except (Stop ε) UInt8) = .ok (octet buf i) := by
  rw [byteAt_ok inside, octet, List.getD_eq_getElem?_getD, List.getElem?_eq_getElem inside,
    Option.getD_some]

theorem u16At_beWord {ε : Type} {i : Nat} (inside : i + 2 ≤ buf.length) :
    (u16At buf i : Except (Stop ε) UInt16) = .ok (beWord buf i) := by
  rw [u16At, byteAt_octet (by omega : i < buf.length),
    byteAt_octet (by omega : i + 1 < buf.length)]
  simp only [bind, Except.bind, pure, Except.pure, Except.ok.injEq]
  apply UInt16.toNat_inj.mp
  have hi := (octet buf i).toNat_lt
  have lo := (octet buf (i + 1)).toNat_lt
  have fits : (octet buf i).toNat <<< 8 % 2 ^ 16 = (octet buf i).toNat <<< 8 := by
    rw [Nat.shiftLeft_eq]
    omega
  simp only [beWord, UInt16.toNat_or, UInt16.toNat_shiftLeft, UInt8.toNat_toUInt16,
    UInt16.reduceToNat, Nat.reduceMod, fits, UInt16.toNat_ofNat']
  rw [Nat.or_comm, or_shiftLeft _ _ lo]
  omega

theorem readU16_beWord {i : Nat} (inside : i + 2 ≤ buf.length) :
    readU16 buf i = .ok (beWord buf i) := u16At_beWord inside

theorem readF32_leFloat {i : Nat} (inside : i + 4 ≤ buf.length) :
    readF32 buf i = .ok (leFloat buf i) := by
  rw [readF32, byteAt_octet (by omega : i < buf.length),
    byteAt_octet (by omega : i + 1 < buf.length), byteAt_octet (by omega : i + 2 < buf.length),
    byteAt_octet (by omega : i + 3 < buf.length)]
  simp only [bind, Except.bind, pure, Except.pure, Except.ok.injEq]
  apply UInt32.toNat_inj.mp
  have whole := u32FromLeBytes_toNat (octet buf i) (octet buf (i + 1)) (octet buf (i + 2))
    (octet buf (i + 3))
  rw [u32FromLeBytes] at whole
  have b0 := (octet buf i).toNat_lt
  have b1 := (octet buf (i + 1)).toNat_lt
  have b2 := (octet buf (i + 2)).toNat_lt
  have b3 := (octet buf (i + 3)).toNat_lt
  rw [whole, leFloat, UInt32.toNat_ofNat', Nat.mod_eq_of_lt (by omega)]

theorem lowBit (b : UInt8) : (b &&& 0x01 != 0) = decide (b.toNat % 2 = 1) := by
  rw [Bool.eq_iff_iff, bne_iff_ne, decide_eq_true_eq, ne_eq, ← UInt8.toNat_inj, UInt8.toNat_and]
  simp only [UInt8.reduceToNat, Nat.and_one_is_mod]
  omega

theorem lowNibble (b : UInt8) : (b &&& 0x0F).toNat = b.toNat % 16 := by
  rw [UInt8.toNat_and]
  exact Nat.and_two_pow_sub_one_eq_mod _ 4

theorem parseProfinet_iff {L : Nat} : parseProfinet ts buf L = .ok ⟨ts, proto, buf⟩ ↔
    L + 3 ≤ buf.length ∧ proto = .profinetIrt (beWord buf L)
      (decide ((octet buf (L + 2)).toNat % 2 = 1)) (octet buf (L + 2)) := by
  unfold parseProfinet
  by_cases short : buf.length < L + 3
  · simp only [if_pos short, fail, reduceCtorEq, false_iff]
    omega
  · simp only [if_neg short, readU16_beWord (by omega : L + 2 ≤ buf.length),
      byteAt_octet (by omega : L + 2 < buf.length), bind, Except.bind, pure, Except.pure, lowBit,
      Except.ok.injEq, DecodedFieldbusFrame.mk.injEq, true_and, and_true, eq_comm (b := proto)]
    exact ⟨fun is => ⟨by omega, is⟩, And.right⟩

theorem parseTcp_iff {l4Off : Nat} : parseTcp ts buf l4Off = .ok ⟨ts, proto, buf⟩ ↔
    l4Off + 4 ≤ buf.length ∧ (beWord buf l4Off = 102 ∨ beWord buf (l4Off + 2) = 102) ∧
      proto = .s7commArrival 102 := by
  unfold parseTcp
  by_cases short : buf.length < l4Off + 4
  · simp only [if_pos short, fail, reduceCtorEq, false_iff]
    omega
  · simp only [if_neg short, readU16_beWord (by omega : l4Off + 2 ≤ buf.length),
      readU16_beWord (by omega : l4Off + 2 + 2 ≤ buf.length), bind, Except.bind, pure,
      Except.pure]
    by_cases port : beWord buf l4Off = s7commTcpPort ∨ beWord buf (l4Off + 2) = s7commTcpPort
    · have same : (if beWord buf (l4Off + 2) = s7commTcpPort then beWord buf (l4Off + 2)
          else beWord buf l4Off) = s7commTcpPort := by
        split
        · assumption
        · exact port.resolve_right (by assumption)
      simp only [if_pos port, same, Except.ok.injEq, DecodedFieldbusFrame.mk.injEq, true_and,
        and_true, eq_comm (b := proto)]
      exact ⟨fun is => ⟨by omega, port, is⟩, fun is => is.2.2⟩
    · simp only [if_neg port, fail, reduceCtorEq, false_iff]
      exact fun is => port is.2.1

theorem payloadLen_eq (w : UInt16) : saturatingSubU16 w 8 = UInt16.ofNat (w.toNat - 8) := by
  apply UInt16.toNat_inj.mp
  have bound := w.toNat_lt
  rw [saturatingSubU16_toNat, UInt16.toNat_ofNat', Nat.mod_eq_of_lt (by omega)]
  rfl

theorem parseUdp_iff {U : Nat} (header : U + 8 ≤ buf.length) :
    parseUdp ts buf U = .ok ⟨ts, proto, buf⟩ ↔ UdpAt buf U ∧
      (beWord buf (U + 2) = 60008 ∧ 20 ≤ (beWord buf (U + 4)).toNat ∧
          proto = .fanucUdp (leFloat buf (U + 8)) (leFloat buf (U + 12)) (leFloat buf (U + 16)) ∨
        beWord buf (U + 2) ≠ 60008 ∧ proto = .ros2Udp (beWord buf (U + 2))
          (UInt16.ofNat ((beWord buf (U + 4)).toNat - 8))) := by
  have eight : ∀ w : UInt16, (saturatingSubU16 w 8).toNat = w.toNat - 8 :=
    fun w => saturatingSubU16_toNat w 8
  unfold parseUdp
  simp only [readU16_beWord (by omega : U + 2 + 2 ≤ buf.length),
    readU16_beWord (by omega : U + 4 + 2 ≤ buf.length), bind, Except.bind, pure, Except.pure]
  by_cases bad : (beWord buf (U + 4)).toNat < 8 ∨ buf.length < U + (beWord buf (U + 4)).toNat
  · simp only [if_pos bad, fail, reduceCtorEq, false_iff]
    rintro ⟨⟨enough, size⟩, -⟩
    omega
  simp only [if_neg bad]
  have udp : UdpAt buf U := ⟨by omega, by omega⟩
  by_cases port : beWord buf (U + 2) = fanucPosePort
  · simp only [if_pos port, eight]
    by_cases pose : (beWord buf (U + 4)).toNat - 8 < 12
    · simp only [if_pos pose, fail, reduceCtorEq, false_iff]
      rintro ⟨-, ⟨-, enough, -⟩ | ⟨other, -⟩⟩
      · omega
      · exact other port
    · simp only [if_neg pose, readF32_leFloat (by omega : U + 8 + 4 ≤ buf.length),
        readF32_leFloat (by omega : U + 8 + 4 + 4 ≤ buf.length),
        readF32_leFloat (by omega : U + 8 + 8 + 4 ≤ buf.length), Except.ok.injEq,
        DecodedFieldbusFrame.mk.injEq, true_and, and_true, eq_comm (b := proto), Nat.add_assoc,
        Nat.reduceAdd]
      constructor
      · exact fun is => ⟨udp, Or.inl ⟨port, by omega, is⟩⟩
      · rintro ⟨-, ⟨-, -, is⟩ | ⟨other, -⟩⟩
        · exact is
        · exact absurd port other
  · simp only [if_neg port, payloadLen_eq, Except.ok.injEq, DecodedFieldbusFrame.mk.injEq,
      true_and, and_true, eq_comm (b := proto)]
    constructor
    · exact fun is => ⟨udp, Or.inr ⟨port, is⟩⟩
    · rintro ⟨-, ⟨same, -⟩ | ⟨-, is⟩⟩
      · exact absurd same port
      · exact is

def TransportAt (buf : List UInt8) (L l4 : Nat) (proto : IndustrialProtocol) : Prop :=
  octet buf (L + 9) = 6 ∧ (beWord buf l4 = 102 ∨ beWord buf (l4 + 2) = 102) ∧
      proto = .s7commArrival 102 ∨
    octet buf (L + 9) = 17 ∧ UdpAt buf l4 ∧
      (beWord buf (l4 + 2) = 60008 ∧ 20 ≤ (beWord buf (l4 + 4)).toNat ∧
          proto = .fanucUdp (leFloat buf (l4 + 8)) (leFloat buf (l4 + 12)) (leFloat buf (l4 + 16)) ∨
        beWord buf (l4 + 2) ≠ 60008 ∧ proto = .ros2Udp (beWord buf (l4 + 2))
          (UInt16.ofNat ((beWord buf (l4 + 4)).toNat - 8)))

theorem parseIpv4Udp_iff {L : Nat} : parseIpv4Udp ts buf L = .ok ⟨ts, proto, buf⟩ ↔
    5 ≤ ihl buf L ∧ L + 4 * ihl buf L + 8 ≤ buf.length ∧
      TransportAt buf L (L + 4 * ihl buf L) proto := by
  unfold parseIpv4Udp
  by_cases short : buf.length < L + 20
  · simp only [if_pos short, fail, reduceCtorEq, false_iff]
    omega
  simp only [if_neg short, byteAt_octet (by omega : L < buf.length), bind, Except.bind, lowNibble]
  rw [show (octet buf L).toNat % 16 = ihl buf L from rfl, Nat.mul_comm (ihl buf L)]
  by_cases bad : ihl buf L < 5 ∨ buf.length < L + 4 * ihl buf L + 8
  · simp only [if_pos bad, fail, reduceCtorEq, false_iff]
    omega
  simp only [if_neg bad, byteAt_octet (by omega : L + 9 < buf.length)]
  have whole : 5 ≤ ihl buf L ∧ L + 4 * ihl buf L + 8 ≤ buf.length := by omega
  unfold TransportAt
  by_cases tcp : octet buf (L + 9) = ipv4ProtoTcp
  · rw [if_pos tcp, parseTcp_iff]
    constructor
    · exact fun ⟨_, port, is⟩ => ⟨whole.1, whole.2, Or.inl ⟨tcp, port, is⟩⟩
    · rintro ⟨-, -, ⟨-, port, is⟩ | ⟨udp, -⟩⟩
      · exact ⟨by omega, port, is⟩
      · exact absurd (tcp.symm.trans udp) (by decide)
  rw [if_neg tcp]
  by_cases other : octet buf (L + 9) ≠ ipv4ProtoUdp
  · simp only [if_pos other, fail, reduceCtorEq, false_iff]
    rintro ⟨-, -, ⟨same, -⟩ | ⟨same, -⟩⟩
    · exact tcp same
    · exact other same
  · rw [if_neg other, parseUdp_iff whole.2]
    constructor
    · exact fun is => ⟨whole.1, whole.2, Or.inr ⟨not_not.mp other, is⟩⟩
    · rintro ⟨-, -, ⟨same, -⟩ | ⟨-, is⟩⟩
      · exact absurd same tcp
      · exact is

theorem parseEthertype_iff {L : Nat} :
    parseEthertype ts buf (beWord buf (L - 2)) L = .ok ⟨ts, proto, buf⟩ ↔ Grammar buf L proto := by
  unfold parseEthertype
  by_cases profinet : beWord buf (L - 2) = ethertypeProfinet
  · rw [if_pos profinet, parseProfinet_iff]
    constructor
    · rintro ⟨size, rfl⟩
      exact .profinet profinet size
    · rintro (⟨_, size⟩ | ⟨ip, -⟩ | ⟨ip, -, -, -⟩ | ⟨ip, -, -⟩)
      · exact ⟨size, rfl⟩
      all_goals exact absurd (profinet.symm.trans ip.etherType) (by decide)
  rw [if_neg profinet]
  by_cases ipv4 : beWord buf (L - 2) = ethertypeIpv4
  · rw [if_pos ipv4, parseIpv4Udp_iff]
    constructor
    · rintro ⟨words, size, ⟨tcp, port, rfl⟩ | ⟨udp, datagram, ⟨port, pose, rfl⟩ | ⟨port, rfl⟩⟩⟩
      · exact .s7comm ⟨ipv4, words, size, tcp⟩ port
      · exact .fanuc ⟨ipv4, words, size, udp⟩ datagram port pose
      · exact .ros2 ⟨ipv4, words, size, udp⟩ datagram port
    · rintro (⟨same, -⟩ | ⟨ip, port⟩ | ⟨ip, udp, port, pose⟩ | ⟨ip, udp, port⟩)
      · exact absurd same profinet
      · exact ⟨ip.words, ip.size, Or.inl ⟨ip.transport_eq, port, rfl⟩⟩
      · exact ⟨ip.words, ip.size, Or.inr ⟨ip.transport_eq, udp, Or.inl ⟨port, pose, rfl⟩⟩⟩
      · exact ⟨ip.words, ip.size, Or.inr ⟨ip.transport_eq, udp, Or.inr ⟨port, rfl⟩⟩⟩
  · simp only [if_neg ipv4, fail, reduceCtorEq, false_iff]
    rintro (⟨same, -⟩ | ⟨ip, -⟩ | ⟨ip, -, -, -⟩ | ⟨ip, -, -⟩)
    · exact profinet same
    all_goals exact ipv4 ip.etherType

theorem parseFrame_iff : parseFrame ts buf = .ok ⟨ts, proto, buf⟩ ↔ Decodes buf proto := by
  unfold parseFrame Decodes
  by_cases short : buf.length < ethHdrLen
  · have few : buf.length < 14 := short
    have link : 14 ≤ linkEnd buf := by
      unfold linkEnd
      split <;> omega
    simp only [if_pos short, fail, reduceCtorEq, false_iff]
    omega
  have long : 14 ≤ buf.length := Nat.not_lt.mp short
  simp only [if_neg short, readU16_beWord (by omega : 12 + 2 ≤ buf.length), bind, Except.bind]
  by_cases tagged : beWord buf 12 = ethertypeVlan
  · rw [if_pos tagged, show linkEnd buf = 18 from if_pos tagged]
    by_cases cut : buf.length < ethHdrLen + vlanTagLen
    · have few : buf.length < 18 := cut
      simp only [if_pos cut, fail, reduceCtorEq, false_iff]
      omega
    · have whole : 18 ≤ buf.length := Nat.not_lt.mp cut
      have accepted : parseEthertype ts buf (beWord buf 16) 18 = .ok ⟨ts, proto, buf⟩ ↔
          Grammar buf 18 proto := @parseEthertype_iff buf ts proto 18
      simp only [if_neg cut, readU16_beWord (by omega : 16 + 2 ≤ buf.length)]
      exact accepted.trans ⟨fun is => ⟨whole, is⟩, And.right⟩
  · rw [if_neg tagged, show linkEnd buf = 14 from if_neg tagged]
    have accepted : parseEthertype ts buf (beWord buf 12) 14 = .ok ⟨ts, proto, buf⟩ ↔
        Grammar buf 14 proto := @parseEthertype_iff buf ts proto 14
    exact accepted.trans ⟨fun is => ⟨long, is⟩, And.right⟩

theorem parses_exactly (ts : UInt64) (buf : List UInt8) : ParsesExactly ts buf := by
  have cases_ := parseFrame_cases ts buf
  constructor
  case accepts =>
    intro f
    constructor
    · intro parsed
      rcases cases_ with ⟨proto, is⟩ | ⟨error, is⟩
      · obtain rfl := Except.ok.inj (is.symm.trans parsed)
        exact ⟨rfl, rfl, parseFrame_iff.mp is⟩
      · rw [is] at parsed
        cases parsed
    · rintro ⟨rfl, rfl, decodes⟩
      exact parseFrame_iff.mpr decodes
  case rejects =>
    intro unreadable
    rcases cases_ with ⟨proto, is⟩ | ⟨error, is⟩
    · exact absurd (parseFrame_iff.mp is) (unreadable proto)
    · exact ⟨error, is⟩
  case inBounds =>
    intro fault is
    rcases cases_ with ⟨proto, is'⟩ | ⟨error, is'⟩
    · rw [is'] at is
      cases is
    · rw [is'] at is
      cases is

end Proof
end CausalWorks
