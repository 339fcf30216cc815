import CausalWorks.Proof.Grammar

/-!
# Truncated frames

Every field of an accepted frame lies inside the lengths that the parser has checked. So a frame
that lost its tail is rejected, or decoded as the whole frame is.
-/

namespace CausalWorks

structure NeverMisdecoded (ts : UInt64) (buf : List UInt8) : Prop where
  truncated : ∀ cut, cut <+: buf → (∃ error, parseFrame ts cut = .error (.err error)) ∨
    ∃ proto, parseFrame ts cut = .ok ⟨ts, proto, cut⟩ ∧ parseFrame ts buf = .ok ⟨ts, proto, buf⟩
  padded : ∀ proto, parseFrame ts buf = .ok ⟨ts, proto, buf⟩ → ∀ padding,
    parseFrame ts (buf ++ padding) = .ok ⟨ts, proto, buf ++ padding⟩

namespace Proof

section
variable {cut buf : List UInt8} {L : Nat} (leading : cut <+: buf)
include leading

theorem octet_leading {i : Nat} (inside : i < cut.length) : octet cut i = octet buf i := by
  obtain ⟨rest, rfl⟩ := leading
  rw [octet, octet, List.getD_eq_getElem?_getD, List.getD_eq_getElem?_getD,
    List.getElem?_append_left inside]

theorem beWord_leading {i : Nat} (inside : i + 2 ≤ cut.length) : beWord cut i = beWord buf i := by
  rw [beWord, beWord, octet_leading leading (by omega), octet_leading leading (by omega)]

theorem leFloat_leading {i : Nat} (inside : i + 4 ≤ cut.length) :
    leFloat cut i = leFloat buf i := by
  rw [leFloat, leFloat, octet_leading leading (by omega), octet_leading leading (by omega),
    octet_leading leading (by omega), octet_leading leading (by omega)]

theorem ihl_leading (inside : L < cut.length) : ihl cut L = ihl buf L := by
  rw [ihl, ihl, octet_leading leading inside]

theorem linkEnd_leading (long : 14 ≤ cut.length) : linkEnd cut = linkEnd buf := by
  rw [linkEnd, linkEnd, beWord_leading leading long]

theorem ipv4At_leading {transport : UInt8} (behind : 2 ≤ L) (ip : Ipv4At cut L transport) :
    Ipv4At buf L transport := by
  obtain ⟨etherType, words, size, transport_eq⟩ := ip
  have length := leading.length_le
  rw [beWord_leading leading (by omega)] at etherType
  rw [octet_leading leading (by omega)] at transport_eq
  rw [ihl_leading leading (by omega)] at words size
  exact ⟨etherType, words, by omega, transport_eq⟩

theorem udpAt_leading {U : Nat} (room : U + 8 ≤ cut.length) (datagram : UdpAt cut U) :
    UdpAt buf U := by
  obtain ⟨header, size⟩ := datagram
  have length := leading.length_le
  rw [beWord_leading leading (by omega)] at header size
  exact ⟨header, by omega⟩

theorem grammar_leading {proto : IndustrialProtocol} (behind : 2 ≤ L)
    (accepted : Grammar cut L proto) : Grammar buf L proto := by
  have length := leading.length_le
  cases accepted with
  | profinet etherType size =>
      rw [beWord_leading leading (by omega)] at etherType
      rw [beWord_leading leading (by omega), octet_leading leading (by omega)]
      exact .profinet etherType (by omega)
  | s7comm ip port =>
      have size := ip.size
      rw [beWord_leading leading (by omega), beWord_leading leading (by omega),
        ihl_leading leading (by omega)] at port
      exact .s7comm (ipv4At_leading leading behind ip) port
  | fanuc ip datagram port pose =>
      have size := ip.size
      have whole := datagram.size
      have datagram' := udpAt_leading leading size datagram
      rw [beWord_leading leading (by omega), ihl_leading leading (by omega)] at port
      -- The floats end with the datagram, which is twenty bytes or more.
      rw [leFloat_leading leading (by omega), leFloat_leading leading (by omega),
        leFloat_leading leading (by omega), ihl_leading leading (by omega)]
      rw [beWord_leading leading (by omega), ihl_leading leading (by omega)] at pose
      rw [ihl_leading leading (by omega)] at datagram'
      exact .fanuc (ipv4At_leading leading behind ip) datagram' port pose
  | ros2 ip datagram port =>
      have size := ip.size
      have datagram' := udpAt_leading leading size datagram
      rw [beWord_leading leading (by omega), ihl_leading leading (by omega)] at port
      rw [beWord_leading leading (by omega), beWord_leading leading (by omega),
        ihl_leading leading (by omega)]
      rw [ihl_leading leading (by omega)] at datagram'
      exact .ros2 (ipv4At_leading leading behind ip) datagram' port

theorem parseFrame_leading {ts : UInt64} {proto : IndustrialProtocol}
    (accepted : parseFrame ts cut = .ok ⟨ts, proto, cut⟩) :
    parseFrame ts buf = .ok ⟨ts, proto, buf⟩ := by
  obtain ⟨whole, grammar⟩ := parseFrame_iff.mp accepted
  have link : 14 ≤ linkEnd cut := by
    unfold linkEnd
    split <;> omega
  have same := linkEnd_leading leading (link.trans whole)
  rw [same] at whole grammar link
  have behind : 2 ≤ linkEnd buf := by omega
  exact parseFrame_iff.mpr
    ⟨whole.trans leading.length_le, grammar_leading leading behind grammar⟩

end

theorem never_misdecoded (ts : UInt64) (buf : List UInt8) : NeverMisdecoded ts buf := by
  constructor
  case truncated =>
    intro cut leading
    rcases parseFrame_cases ts cut with ⟨proto, accepted⟩ | ⟨error, rejected⟩
    · exact Or.inr ⟨proto, accepted, parseFrame_leading leading accepted⟩
    · exact Or.inl ⟨error, rejected⟩
  case padded =>
    intro proto accepted padding
    exact parseFrame_leading (List.prefix_append buf padding) accepted

end Proof
end CausalWorks
